/-
What the hierarchy checks accept.

`validateDomainHierarchy` accepts exactly the stores whose ids are there and
distinct and whose parents are there, on the same server and one label
further up (`WellPlaced`). The walk over the ancestors never runs out of
steps, and below distinct ids it never meets a cycle: names only get
shorter upwards.
-/
import Yunpanel.Domains.Hierarchy
import Yunpanel.Lib.Forest
import Yunpanel.Lib.Result

namespace Yunpanel.Domains

open Lib

-- ====== places

/-- What a parent is to its child: on the same server, of a name the
child's ends in after a dot, and of an id the checks let through. -/
structure Under (child parent : Place) : Prop where
  server : parent.serverId = child.serverId
  below : isBelow child.primaryDomain parent.primaryDomain = true
  short : Text.length parent.id ≤ 128

/-- The places of a store, as the hierarchy checks want them. -/
structure WellPlaced (places : List Place) : Prop where
  present : ∀ p ∈ places, p.id ≠ ""
  unique : (places.map Place.id).Nodup
  parented : Links Place.id Place.parentDomainId Under places

def places (domains : List Domain) : List Place := domains.map Domain.place

theorem map_id_places (domains : List Domain) :
    (places domains).map Place.id = domains.map Domain.id := by
  rw [places, List.map_map]
  rfl

theorem length_of_isBelow {name parent : String}
    (h : isBelow name parent = true) :
    parent.toList.length < name.toList.length := by
  rw [isBelow, List.isSuffixOf_iff_suffix] at h
  have hle := h.length_le
  rw [List.length_cons] at hle
  omega

-- ====== byId

variable {domains rest : List Domain} {id start parentId : String}
  {domain d : Domain} {visited : List String} {fuel : Nat}

theorem mem_of_byId (h : byId domains id = some domain) :
    domain ∈ domains ∧ domain.id = id := by
  have hmem := List.mem_of_find?_eq_some h
  have hid := List.find?_some h
  exact ⟨List.mem_reverse.mp hmem, beq_iff_eq.mp hid⟩

theorem byId_eq_none :
    byId domains id = none ↔ ∀ domain ∈ domains, domain.id ≠ id := by
  simp [byId, List.find?_eq_none]

/-- Where ids are distinct there is one entry to find. -/
theorem byId_of_mem (hunique : (domains.map Domain.id).Nodup)
    (h : domain ∈ domains) : byId domains domain.id = some domain := by
  cases hfind : byId domains domain.id with
  | none => exact absurd rfl (byId_eq_none.mp hfind domain h)
  | some found =>
      obtain ⟨hmem, hid⟩ := mem_of_byId hfind
      rw [List.inj_on_of_nodup_map hunique hmem h hid]

-- ====== ancestors

/-- What the walk has visited: the id it started from and domains, each
once. -/
structure Visited (domains : List Domain) (start : String)
    (visited : List String) : Prop where
  nodup : visited.Nodup
  known : ∀ v ∈ visited, v ∈ start :: domains.map Domain.id

theorem Visited.cons (h : Visited domains start visited)
    (hmem : domain ∈ domains) (hnew : domain.id ∉ visited) :
    Visited domains start (domain.id :: visited) := by
  refine ⟨List.nodup_cons.mpr ⟨hnew, h.nodup⟩, ?_⟩
  intro v hv
  rcases List.mem_cons.mp hv with rfl | hv
  · exact List.mem_cons_of_mem _ (List.mem_map_of_mem hmem)
  · exact h.known v hv

theorem Visited.length_le (h : Visited domains start visited) :
    visited.length ≤ domains.length + 1 := by
  have hle := length_visited_le h.nodup h.known
  rwa [List.length_cons, List.length_map] at hle

theorem visited_start (domains : List Domain) (start : String) :
    Visited domains start [start] :=
  ⟨List.nodup_singleton start, fun _ hv =>
    List.mem_cons.mpr (.inl (List.mem_singleton.mp hv))⟩

variable {serverId : String} {ancestor : Domain} {platform : Platform}
  {pending : List String}

/-- The steps `validateDomainParent` gives the walk are enough: more change
nothing. -/
theorem checkAncestors_fuel (more : Nat)
    (hvisited : Visited domains start visited) (hmem : ancestor ∈ domains)
    (hfuel : domains.length + 2 ≤ visited.length + fuel) :
    checkAncestors domains serverId (fuel + more) visited ancestor
      = checkAncestors domains serverId fuel visited ancestor := by
  induction fuel generalizing visited ancestor with
  | zero =>
      have hle := hvisited.length_le
      omega
  | succ fuel ih =>
      have hadd : fuel + 1 + more = (fuel + more) + 1 := by omega
      rw [hadd]
      unfold checkAncestors
      by_cases hseen : ancestor.id ∈ visited
      · rw [if_pos hseen, if_pos hseen]
      · rw [if_neg hseen, if_neg hseen]
        split
        · rfl
        · split
          · rfl
          · split
            · rfl
            · rename_i next hnext
              apply ih (hvisited.cons hmem hseen) (mem_of_byId hnext).1
              rw [List.length_cons]
              omega

/-- In a well-placed store the walk upwards succeeds, from any domain whose
name is shorter than those of all domains visited. -/
theorem checkAncestors_ok (h : WellPlaced (places domains))
    (hvisited : Visited domains start visited) (hmem : ancestor ∈ domains)
    (hserver : ancestor.serverId = serverId)
    (hshort : ∀ d ∈ domains, d.id ∈ visited →
      ancestor.primaryDomain.toList.length < d.primaryDomain.toList.length)
    (hfuel : domains.length + 2 ≤ visited.length + fuel) :
    checkAncestors domains serverId fuel visited ancestor = .ok () := by
  induction fuel generalizing visited ancestor with
  | zero =>
      have hle := hvisited.length_le
      omega
  | succ fuel ih =>
      have hseen : ancestor.id ∉ visited :=
        fun hin => Nat.lt_irrefl _ (hshort ancestor hmem hin)
      unfold checkAncestors
      rw [if_neg hseen, if_neg (not_not_intro hserver)]
      cases hparent : ancestor.parentDomainId with
      | none => rfl
      | some nextId =>
          have hplace : ancestor.place ∈ places domains :=
            List.mem_map_of_mem hmem
          obtain ⟨p, hp, hid, hunder⟩ :=
            h.parented ancestor.place hplace nextId hparent
          obtain ⟨next, hnext, rfl⟩ := List.mem_map.mp hp
          have hunique := h.unique
          rw [map_id_places] at hunique
          have hfind : byId domains nextId = some next := by
            rw [← hid]
            exact byId_of_mem hunique hnext
          have hlt : next.primaryDomain.toList.length
              < ancestor.primaryDomain.toList.length :=
            length_of_isBelow hunder.below
          dsimp only
          rw [hfind]
          apply ih (hvisited.cons hmem hseen) hnext
            (hunder.server.trans hserver)
          · intro d hd hin
            rcases List.mem_cons.mp hin with heq | hin
            · rw [List.inj_on_of_nodup_map hunique hd hmem heq]
              exact hlt
            · exact Nat.lt_trans hlt (hshort d hd hin)
          · rw [List.length_cons]
            omega

-- ====== parents

/-- An accepted parent is there, on the same server and further up. -/
theorem under_of_validateDomainParent {place : Place}
    (h : validateDomainParent domains place = .ok ())
    (hparent : place.parentDomainId = some parentId) :
    ∃ q ∈ places domains, q.id = parentId ∧ Under place q := by
  unfold validateDomainParent at h
  rw [hparent] at h
  dsimp only at h
  split at h
  · cases h
  · rename_i hlength
    split at h
    · cases h
    · rename_i parent hfind
      obtain ⟨hmem, hid⟩ := mem_of_byId hfind
      obtain ⟨⟨⟩, hwalk, h⟩ := Result.bind_eq_ok.mp h
      refine ⟨parent.place, List.mem_map_of_mem hmem, hid, ?_, ?_, ?_⟩
      · unfold checkAncestors at hwalk
        split at hwalk
        · cases hwalk
        · split at hwalk
          · cases hwalk
          · rename_i hserver
            exact not_not.mp hserver
      · change isBelow place.primaryDomain parent.primaryDomain = true
        by_contra hbelow
        rw [Bool.not_eq_true] at hbelow
        rw [hbelow] at h
        cases h
      · change Text.length parent.id ≤ 128
        rw [hid]
        by_contra hlong
        exact hlength (.inr (by omega))

/-- In a well-placed store every domain's parent is accepted. -/
theorem validateDomainParent_ok (h : WellPlaced (places domains))
    (hmem : domain ∈ domains) :
    validateDomainParent domains domain.place = .ok () := by
  unfold validateDomainParent
  cases hparent : domain.place.parentDomainId with
  | none => rfl
  | some parentId =>
      obtain ⟨q, hq, rfl, hunder⟩ :=
        h.parented domain.place (List.mem_map_of_mem hmem) parentId hparent
      obtain ⟨parent, hpmem, rfl⟩ := List.mem_map.mp hq
      have hunique := h.unique
      rw [map_id_places] at hunique
      have hfind : byId domains parent.place.id = some parent :=
        byId_of_mem hunique hpmem
      have hid : ¬(parent.place.id = ""
          ∨ 128 < Text.length parent.place.id) := by
        rintro (hid | hid)
        · exact h.present _ hq hid
        · have hle := hunder.short
          omega
      have hwalk : checkAncestors domains domain.place.serverId
          (domains.length + 1) [domain.place.id] parent = .ok () := by
        apply checkAncestors_ok h (visited_start domains domain.place.id)
          hpmem hunder.server
        · intro d hd hin
          rw [List.inj_on_of_nodup_map hunique hd hmem
            (List.mem_singleton.mp hin)]
          exact length_of_isBelow hunder.below
        · rw [List.length_singleton]
          omega
      have hbelow : isBelow domain.place.primaryDomain parent.primaryDomain
          = true := hunder.below
      dsimp only
      rw [if_neg hid, hfind]
      dsimp only
      rw [hwalk, hbelow]
      rfl

-- ====== hierarchy

theorem checkIds_eq_ok {ids : List String} :
    checkIds ids domains = .ok () ↔
      (∀ d ∈ domains, d.id ≠ "") ∧ (domains.map Domain.id).Nodup
        ∧ ∀ d ∈ domains, d.id ∉ ids := by
  induction domains generalizing ids with
  | nil => simp [checkIds]
  | cons domain rest ih =>
      rw [checkIds, Result.guard_eq_ok, ih, List.forall_mem_cons,
        List.forall_mem_cons, List.map_cons, List.nodup_cons]
      simp only [List.mem_cons, not_or, List.mem_map, not_exists, not_and]
      constructor
      · rintro ⟨⟨hne, hnew⟩, hpresent, hunique, hfresh⟩
        exact ⟨⟨hne, hpresent⟩, ⟨fun d hd => (hfresh d hd).1, hunique⟩,
          hnew, fun d hd => (hfresh d hd).2⟩
      · rintro ⟨⟨hne, hpresent⟩, ⟨hfresh, hunique⟩, hnew, hrest⟩
        exact ⟨⟨hne, hnew⟩, hpresent, hunique,
          fun d hd => ⟨hfresh d hd, hrest d hd⟩⟩

theorem checkParents_eq_ok :
    checkParents domains rest = .ok () ↔
      ∀ d ∈ rest, validateDomainParent domains d.place = .ok () := by
  induction rest with
  | nil => simp [checkParents]
  | cons domain rest ih =>
      rw [checkParents, List.forall_mem_cons, ← ih]
      exact ⟨fun h => by
        obtain ⟨⟨⟩, hhead, htail⟩ := Result.bind_eq_ok.mp h
        exact ⟨hhead, htail⟩, fun h => Result.bind_eq_ok.mpr ⟨(), h⟩⟩

/-- The hierarchy checks accept what is well placed. -/
theorem validateDomainHierarchy_eq_ok :
    validateDomainHierarchy domains = .ok () ↔
      WellPlaced (places domains) := by
  constructor
  · intro h
    obtain ⟨⟨⟩, hids, hparents⟩ := Result.bind_eq_ok.mp h
    obtain ⟨hpresent, hunique, -⟩ := checkIds_eq_ok.mp hids
    refine ⟨?_, ?_, ?_⟩
    · intro p hp
      obtain ⟨d, hd, rfl⟩ := List.mem_map.mp hp
      exact hpresent d hd
    · rw [map_id_places]
      exact hunique
    · intro p hp k hk
      obtain ⟨d, hd, rfl⟩ := List.mem_map.mp hp
      exact under_of_validateDomainParent
        (checkParents_eq_ok.mp hparents d hd) hk
  · intro h
    refine Result.bind_eq_ok.mpr ⟨(), checkIds_eq_ok.mpr ⟨?_, ?_, ?_⟩, ?_⟩
    · exact fun d hd => h.present d.place (List.mem_map_of_mem hd)
    · rw [← map_id_places]
      exact h.unique
    · exact fun d _ => List.not_mem_nil
    · exact checkParents_eq_ok.mpr fun d hd => validateDomainParent_ok h hd

-- ====== descendants

/-- A pass over the domains that finds no new child has met none. -/
theorem newChildren_eq_nil (h : newChildren parentId visited domains = []) :
    ∀ d ∈ domains, d.parentDomainId = some parentId → d.id ∈ visited := by
  induction domains with
  | nil => simp
  | cons domain rest ih =>
      unfold newChildren at h
      split at h
      · rename_i hskip
        intro d hd hparent
        rcases List.mem_cons.mp hd with rfl | hd
        · exact hskip.resolve_left (not_not_intro hparent)
        · exact ih h d hd hparent
      · cases h

/-- A domain without descendants is the parent of no other. -/
theorem childless_of_descendantsOf
    (h : descendantsOf platform domains id = []) :
    ∀ d ∈ domains, d.parentDomainId = some id → d.id = id := by
  have hnil : descend domains (domains.length + 1) [id] [id] = [] := by
    have hlen := congrArg List.length h
    rw [descendantsOf, List.length_mergeSort, List.length_map] at hlen
    exact List.length_eq_zero_iff.mp hlen
  rw [descend] at hnil
  have hnew := (List.append_eq_nil_iff.mp hnil).1
  intro d hd hparent
  exact List.mem_singleton.mp (newChildren_eq_nil hnew d hd hparent)

theorem newChildren_visited (hsub : ∀ d ∈ rest, d ∈ domains)
    (h : Visited domains start visited) :
    Visited domains start
      (((newChildren parentId visited rest).map Domain.id).reverse
        ++ visited) := by
  induction rest generalizing visited with
  | nil => exact h
  | cons domain rest ih =>
      rw [List.forall_mem_cons] at hsub
      unfold newChildren
      split
      · exact ih hsub.2 h
      · rename_i hnew
        rw [not_or] at hnew
        have hrest := ih hsub.2 (h.cons hsub.1 hnew.2)
        rwa [List.map_cons, List.reverse_cons, List.append_assoc]

/-- The steps `descendantsOf` gives its loop are enough: every step takes
one visited id off the pending ones, and there are no more ids than
that. -/
theorem descend_fuel (more : Nat) (hvisited : Visited domains start visited)
    (hpending : pending.length ≤ visited.length)
    (hfuel : domains.length + 1 + pending.length
      ≤ fuel + visited.length) :
    descend domains (fuel + more) pending visited
      = descend domains fuel pending visited := by
  induction fuel generalizing pending visited with
  | zero =>
      have hle := hvisited.length_le
      obtain rfl : pending = [] := List.length_eq_zero_iff.mp (by omega)
      cases more <;> simp [descend]
  | succ fuel ih =>
      have hadd : fuel + 1 + more = (fuel + more) + 1 := by omega
      rw [hadd]
      cases pending with
      | nil => rw [descend, descend]
      | cons parentId pending =>
          rw [List.length_cons] at hpending hfuel
          rw [descend, descend]
          rw [ih (newChildren_visited (fun d hd => hd) hvisited)]
          · simp only [List.length_append, List.length_reverse]
            omega
          · simp only [List.length_append, List.length_reverse]
            omega

/-- One id is that of a child of the other. -/
def ChildIn (descendants : List Descendant) (parentId id : String) : Prop :=
  ∃ d ∈ descendants, d.id = id ∧ d.parentDomainId = some parentId

theorem childIn_of_mem (hd : d ∈ domains)
    (hparent : d.parentDomainId = some parentId) :
    ChildIn (domains.map Domain.asDescendant) parentId d.id :=
  ⟨d.asDescendant, List.mem_map_of_mem hd, rfl, hparent⟩

theorem mem_newChildren (h : d ∈ newChildren parentId visited rest) :
    d ∈ rest ∧ d.parentDomainId = some parentId ∧ d.id ∉ visited := by
  induction rest generalizing visited with
  | nil => cases h
  | cons domain rest ih =>
      unfold newChildren at h
      split at h
      · obtain ⟨hmem, hd⟩ := ih h
        exact ⟨List.mem_cons_of_mem _ hmem, hd⟩
      · rename_i hnew
        rw [not_or, not_not] at hnew
        rcases List.mem_cons.mp h with rfl | h
        · exact ⟨List.mem_cons_self, hnew⟩
        · obtain ⟨hmem, hparent, hvisited⟩ := ih h
          exact ⟨List.mem_cons_of_mem _ hmem, hparent,
            fun hv => hvisited (List.mem_cons_of_mem _ hv)⟩

/-- A child that was met is among the new ones, or had been visited. -/
theorem newChildren_complete (hd : d ∈ rest)
    (hparent : d.parentDomainId = some parentId) :
    d.id ∈ visited
      ∨ d.id ∈ (newChildren parentId visited rest).map Domain.id := by
  induction rest generalizing visited with
  | nil => cases hd
  | cons domain rest ih =>
      unfold newChildren
      rcases List.mem_cons.mp hd with rfl | hd
      · by_cases hvisited : d.id ∈ visited
        · exact .inl hvisited
        · rw [if_neg (by rw [not_or, not_not]; exact ⟨hparent, hvisited⟩)]
          exact .inr (List.mem_cons_self)
      · split
        · exact ih hd
        · rcases @ih (domain.id :: visited) hd with h | h
          · rcases List.mem_cons.mp h with h | h
            · rw [h]
              exact .inr (List.mem_cons_self)
            · exact .inl h
          · exact .inr (List.mem_cons_of_mem _ h)

/-- What the loop finds is below what was pending, and new. -/
theorem descend_sound (h : d ∈ descend domains fuel pending visited) :
    d ∈ domains ∧ d.id ∉ visited ∧ ∃ p ∈ pending,
      Relation.ReflTransGen (ChildIn (domains.map Domain.asDescendant)) p
        d.id := by
  induction fuel generalizing pending visited with
  | zero => cases h
  | succ fuel ih =>
      cases pending with
      | nil => cases h
      | cons parentId pending =>
          rw [descend] at h
          rcases List.mem_append.mp h with hnew | hrest
          · obtain ⟨hmem, hparent, hvisited⟩ := mem_newChildren hnew
            exact ⟨hmem, hvisited, parentId, List.mem_cons_self,
              .single (childIn_of_mem hmem hparent)⟩
          · obtain ⟨hmem, hvisited, p, hp, hreach⟩ := ih hrest
            refine ⟨hmem, fun hv => hvisited (List.mem_append_right _ hv), ?_⟩
            rcases List.mem_append.mp hp with hp | hp
            · exact ⟨p, List.mem_cons_of_mem _ hp, hreach⟩
            · obtain ⟨c, hc, rfl⟩ := List.mem_map.mp hp
              obtain ⟨hcmem, hcparent, -⟩ := mem_newChildren hc
              exact ⟨parentId, List.mem_cons_self,
                .head (childIn_of_mem hcmem hcparent) hreach⟩

/-- What was visited is closed when the loop is over: a child of what was
pending, or is found, was visited or is found. -/
theorem descend_closed (hvisited : Visited domains start visited)
    (hpending : pending.length ≤ visited.length)
    (hfuel : domains.length + 1 + pending.length
      ≤ fuel + visited.length) {v : String} (hd : d ∈ domains)
    (hparent : d.parentDomainId = some v) (hv : v ∈ pending
      ∨ v ∈ (descend domains fuel pending visited).map Domain.id) :
    d.id ∈ visited
      ∨ d.id ∈ (descend domains fuel pending visited).map Domain.id := by
  induction fuel generalizing pending visited with
  | zero =>
      have hle := hvisited.length_le
      obtain rfl : pending = [] := List.length_eq_zero_iff.mp (by omega)
      rcases hv with hv | hv <;> cases hv
  | succ fuel ih =>
      cases pending with
      | nil => rcases hv with hv | hv <;> cases hv
      | cons parentId pending =>
          rw [List.length_cons] at hpending hfuel
          rw [descend, List.map_append] at hv ⊢
          by_cases hself : v = parentId
          · subst hself
            rcases newChildren_complete hd hparent with h | h
            · exact .inl h
            · exact .inr (List.mem_append_left _ h)
          · have hv' : v ∈ pending
                  ++ (newChildren parentId visited domains).map Domain.id
                ∨ v ∈ (descend domains fuel (pending
                    ++ (newChildren parentId visited domains).map Domain.id)
                  (((newChildren parentId visited domains).map
                    Domain.id).reverse ++ visited)).map Domain.id := by
              rcases hv with hv | hv
              · rcases List.mem_cons.mp hv with hv | hv
                · exact absurd hv hself
                · exact .inl (List.mem_append_left _ hv)
              · rcases List.mem_append.mp hv with hv | hv
                · exact .inl (List.mem_append_right _ hv)
                · exact .inr hv
            have hrest := ih
              (newChildren_visited (fun d hd => hd) hvisited)
              (by simp only [List.length_append, List.length_reverse]; omega)
              (by simp only [List.length_append, List.length_reverse]; omega)
              hv'
            rcases hrest with h | h
            · rcases List.mem_append.mp h with h | h
              · exact .inr (List.mem_append_left _ (List.mem_reverse.mp h))
              · exact .inl h
            · exact .inr (List.mem_append_right _ h)

/-- The descendants of a domain are those below it. -/
theorem mem_descendantsOf (hunique : (domains.map Domain.id).Nodup)
    {e : Descendant} :
    e ∈ descendantsOf platform domains id
      ↔ e ∈ domains.map Domain.asDescendant ∧ e.id ≠ id
        ∧ Relation.ReflTransGen
            (ChildIn (domains.map Domain.asDescendant)) id e.id := by
  unfold descendantsOf
  rw [List.mem_mergeSort, List.mem_map]
  constructor
  · rintro ⟨d, hd, rfl⟩
    obtain ⟨hmem, hvisited, p, hp, hreach⟩ := descend_sound hd
    rw [List.mem_singleton] at hvisited hp
    subst hp
    exact ⟨List.mem_map_of_mem hmem, hvisited, hreach⟩
  · rintro ⟨hmem, hne, hreach⟩
    obtain ⟨d, hd, rfl⟩ := List.mem_map.mp hmem
    have hall : ∀ v, Relation.ReflTransGen
        (ChildIn (domains.map Domain.asDescendant)) id v →
        v = id ∨ v ∈ (descend domains (domains.length + 1) [id] [id]).map
          Domain.id := by
      intro v hv
      induction hv with
      | refl => exact .inl rfl
      | tail _ hstep ih =>
          obtain ⟨c, hc, rfl, hparent⟩ := hstep
          obtain ⟨c', hc', rfl⟩ := List.mem_map.mp hc
          have hin := descend_closed (visited_start domains id)
            (Nat.le_refl _) (by simp) hc' hparent
            (ih.imp_left List.mem_singleton.mpr)
          exact hin.imp_left List.mem_singleton.mp
    rcases hall _ hreach with h | h
    · exact absurd h hne
    · obtain ⟨d', hd', hid⟩ := List.mem_map.mp h
      obtain rfl : d' = d :=
        List.inj_on_of_nodup_map hunique (descend_sound hd').1 hd hid
      exact ⟨d', hd', rfl⟩

/-- A pass lists no id twice. -/
theorem nodup_newChildren :
    ((newChildren parentId visited rest).map Domain.id).Nodup := by
  induction rest generalizing visited with
  | nil => exact .nil
  | cons domain rest ih =>
      unfold newChildren
      split
      · exact ih
      · refine List.nodup_cons.mpr ⟨fun hmem => ?_, ih⟩
        obtain ⟨d, hd, hid⟩ := List.mem_map.mp hmem
        exact (mem_newChildren hd).2.2 (hid ▸ List.mem_cons_self)

/-- The loop lists no id twice. -/
theorem nodup_descend :
    ((descend domains fuel pending visited).map Domain.id).Nodup := by
  induction fuel generalizing pending visited with
  | zero => exact .nil
  | succ fuel ih =>
      cases pending with
      | nil => exact .nil
      | cons parentId pending =>
          rw [descend, List.map_append]
          refine List.nodup_append'.mpr ⟨nodup_newChildren, ih, ?_⟩
          intro id hnew hrest
          obtain ⟨d, hd, rfl⟩ := List.mem_map.mp hrest
          exact (descend_sound hd).2.1
            (List.mem_append_left _ (List.mem_reverse.mpr hnew))

/-- The check of a store and its descendants fit together: what is accepted
is well placed and nothing else; and where it is, the descendants of a domain
are listed once each, are exactly those that parents lead down to, and more
steps would find no other. -/
theorem hierarchy_exact (platform : Platform) (domains : List Domain) :
    (validateDomainHierarchy domains = .ok () ↔ WellPlaced (places domains))
      ∧ (validateDomainHierarchy domains = .ok () → ∀ id,
        ((descendantsOf platform domains id).map Descendant.id).Nodup
        ∧ (∀ e, e ∈ descendantsOf platform domains id
          ↔ e ∈ domains.map Domain.asDescendant ∧ e.id ≠ id
            ∧ Relation.ReflTransGen
              (ChildIn (domains.map Domain.asDescendant)) id e.id)
        ∧ ∀ more, descend domains (domains.length + 1 + more) [id] [id]
          = descend domains (domains.length + 1) [id] [id]) := by
  refine ⟨validateDomainHierarchy_eq_ok, fun hok id => ⟨?_, fun e => ?_,
    fun more => ?_⟩⟩
  · have hperm := (List.mergeSort_perm ((descend domains (domains.length + 1)
      [id] [id]).map Domain.asDescendant) fun left right =>
        platform.localeLE left.id right.id).map Descendant.id
    refine hperm.nodup_iff.mpr ?_
    rw [List.map_map]
    exact nodup_descend
  · have hunique := (validateDomainHierarchy_eq_ok.mp hok).unique
    rw [map_id_places] at hunique
    exact mem_descendantsOf hunique
  · exact descend_fuel more (visited_start domains id) (Nat.le_refl _)
      (Nat.le_refl _)

end Yunpanel.Domains
