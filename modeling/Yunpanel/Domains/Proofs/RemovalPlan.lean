/-
Which inventories of subdomains are accepted, and in which order they go.

# Depths

A domain has a depth where its parents lead to the root (`Depth`). `depthOf`
finds it or runs into one of two things: a circle, as the domain it comes to
is one it is inside of, or a parent that is nowhere (`depthOf_spec`). So all
have a depth exactly where the inventory is a hierarchy below the root
(`depthsOf_ok_iff`), and a parent is always one less deep than its child.

# Order

Sorted by depth, each domain comes after all below it. That is what the
journal checks place by place (`normalizedChildDomains_ok`); the one parent it
finds outside is the root.
-/
import Mathlib.Data.List.Dedup
import Yunpanel.Lib.Before
import Yunpanel.Domains.RemovalPlan

namespace Yunpanel.Domains.RemovalPlan

open Lib Lib.Result

variable {entries : List Child} {rootId : String}

-- ====== hierarchy

/-- `e` is a child of `p` among the entries. -/
def ChildOf (entries : List Child) (e p : Child) : Prop :=
  e ∈ entries ∧ p ∈ entries ∧ p.id = e.parentId

/-- The parent of `e` is neither the root nor an entry. -/
def Dangling (entries : List Child) (rootId : String) (e : Child) : Prop :=
  e ∈ entries ∧ e.parentId ≠ rootId ∧ ∀ p ∈ entries, p.id ≠ e.parentId

/-- An entry leads back to itself. -/
def OnCycle (entries : List Child) (e : Child) : Prop :=
  Relation.TransGen (ChildOf entries) e e

/-- The entries are told apart, and all of them are below the root. -/
structure Hierarchy (entries : List Child) (rootId : String) : Prop where
  distinct : (entries.map fun e => e.id).Nodup
  connected : ∀ e, ¬Dangling entries rootId e
  acyclic : ∀ e, ¬OnCycle entries e

/-- How many steps up lead from an entry to the root. -/
inductive Depth (entries : List Child) (rootId : String) : Child → Nat → Prop
  | top {e : Child} (he : e ∈ entries) (hroot : e.parentId = rootId) :
      Depth entries rootId e 1
  | deeper {e p : Child} {n : Nat} (he : e ∈ entries) (hp : p ∈ entries)
      (hchild : p.id = e.parentId) (hdepth : Depth entries rootId p n) :
      Depth entries rootId e (n + 1)

variable {a b : Child} {n m : Nat} {id field : String} {depths : Depths}
  {entries' order : List Child} {root : Root}

theorem eq_of_id (hdistinct : (entries.map fun e => e.id).Nodup)
    (ha : a ∈ entries) (hb : b ∈ entries) (h : a.id = b.id) : a = b :=
  List.inj_on_of_nodup_map hdistinct ha hb h

/-- A child is one deeper than its parent. -/
theorem depth_parent (hdistinct : (entries.map fun e => e.id).Nodup)
    (houtside : ∀ e ∈ entries, e.id ≠ rootId) {e p : Child}
    (hchild : ChildOf entries e p) (hdepth : Depth entries rootId e n) :
    ∃ m, Depth entries rootId p m ∧ n = m + 1 := by
  obtain ⟨-, hp, hid⟩ := hchild
  cases hdepth with
  | top _ hroot => exact absurd (hid.trans hroot) (houtside p hp)
  | deeper _ hq hid' hdepth =>
      obtain rfl := eq_of_id hdistinct hq hp (hid'.trans hid.symm)
      exact ⟨_, hdepth, rfl⟩

theorem depth_unique (hdistinct : (entries.map fun e => e.id).Nodup)
    (houtside : ∀ e ∈ entries, e.id ≠ rootId) {e : Child}
    (hn : Depth entries rootId e n) (hm : Depth entries rootId e m) :
    n = m := by
  induction hn generalizing m with
  | top _ hroot =>
      cases hm with
      | top => rfl
      | deeper _ hp hid _ => exact absurd (hid.trans hroot) (houtside _ hp)
  | deeper he hp hid _ ih =>
      obtain ⟨k, hk, rfl⟩ := depth_parent hdistinct houtside ⟨he, hp, hid⟩ hm
      rw [ih hk]

/-- A domain is deeper than all it is below of. -/
theorem depth_lt (hdistinct : (entries.map fun e => e.id).Nodup)
    (houtside : ∀ e ∈ entries, e.id ≠ rootId) {e : Child}
    (hbelow : Relation.TransGen (ChildOf entries) e a)
    (hn : Depth entries rootId e n) (hm : Depth entries rootId a m) :
    m < n := by
  induction hbelow generalizing m with
  | single hchild =>
      obtain ⟨k, hk, rfl⟩ := depth_parent hdistinct houtside hchild hn
      rw [depth_unique hdistinct houtside hm hk]
      omega
  | tail hbelow hchild ih =>
      obtain ⟨he, hp, hid⟩ := hchild
      have hmiddle := Depth.deeper he hp hid hm
      have hlt := ih hmiddle
      omega

-- ====== depthOf

/-- Every depth that is known is one. -/
def Known (entries : List Child) (rootId : String) (depths : Depths) : Prop :=
  ∀ id d, depths.lookup id = some d →
    ∃ e ∈ entries, e.id = id ∧ Depth entries rootId e d

/-- The depths that are known stay. -/
def Keeps (depths depths' : Depths) : Prop :=
  ∀ id d, depths.lookup id = some d → depths'.lookup id = some d

theorem lookup_cons_self (id : String) (d : Nat) (depths : Depths) :
    ((id, d) :: depths).lookup id = some d := by
  simp [List.lookup_cons]

theorem lookup_cons_ne {other : String} (hne : id ≠ other) (d : Nat)
    (depths : Depths) :
    ((other, d) :: depths).lookup id = depths.lookup id := by
  have hdiffer : (id == other) = false := beq_eq_false_iff_ne.mpr hne
  simp [List.lookup_cons, hdiffer]

theorem Known.cons (h : Known entries rootId depths) {e : Child} {d : Nat}
    (he : e ∈ entries) (hdepth : Depth entries rootId e d) :
    Known entries rootId ((e.id, d) :: depths) := by
  intro id d' hlookup
  by_cases hsame : id = e.id
  · subst hsame
    rw [lookup_cons_self] at hlookup
    obtain rfl := Option.some.inj hlookup
    exact ⟨e, he, rfl, hdepth⟩
  · rw [lookup_cons_ne hsame] at hlookup
    exact h id d' hlookup

theorem Keeps.cons {depths' : Depths} (h : Keeps depths depths')
    (hnew : depths.lookup id = none) (d : Nat) :
    Keeps depths ((id, d) :: depths') := by
  intro id' d' hlookup
  have hne : id' ≠ id := by
    rintro rfl
    rw [hnew] at hlookup
    cases hlookup
  rw [lookup_cons_ne hne]
  exact h id' d' hlookup

/-- Why a depth is not found. -/
def Broken (entries : List Child) (rootId : String) (e : Failure) : Prop :=
  (e = hierarchyCycle ∧ ∃ a, OnCycle entries a)
    ∨ (e = disconnected ∧ ∃ a, Dangling entries rootId a)

theorem depthOf_spec (hdistinct : (entries.map fun e => e.id).Nodup) :
    ∀ (fuel : Nat) (resolving : List String) (depths : Depths) (entry : Child),
      entry ∈ entries → resolving.Nodup →
      (∀ id ∈ resolving, ∃ a ∈ entries, a.id = id
        ∧ Relation.TransGen (ChildOf entries) a entry) →
      entries.length < fuel + resolving.length → Known entries rootId depths →
      (∀ d depths', depthOf entries rootId fuel resolving depths entry
          = .ok (d, depths') →
        Depth entries rootId entry d ∧ Known entries rootId depths'
          ∧ Keeps depths depths' ∧ depths'.lookup entry.id = some d)
      ∧ ∀ e, depthOf entries rootId fuel resolving depths entry = .error e →
        Broken entries rootId e := by
  intro fuel
  induction fuel with
  | zero =>
      intro resolving depths entry _ hnodup hinside hfuel _
      -- there is no room for more domains than there are
      have hsub : resolving ⊆ entries.map fun e => e.id := by
        intro id hid
        obtain ⟨a, ha, hsame, -⟩ := hinside id hid
        exact List.mem_map.mpr ⟨a, ha, hsame⟩
      have hle := (List.subperm_of_subset hnodup hsub).length_le
      rw [List.length_map] at hle
      omega
  | succ fuel ih =>
      intro resolving depths entry hentry hnodup hinside hfuel hknown
      unfold depthOf
      cases hlookup : depths.lookup entry.id with
      | some depth =>
          refine ⟨fun d depths' h => ?_, fun e h => by cases h⟩
          obtain ⟨rfl, rfl⟩ := Prod.mk.inj (Except.ok.inj h)
          obtain ⟨a, ha, hsame, hdepth⟩ := hknown _ _ hlookup
          obtain rfl := eq_of_id hdistinct ha hentry hsame
          exact ⟨hdepth, hknown, fun _ _ h => h, hlookup⟩
      | none =>
          dsimp only
          by_cases hcircle : entry.id ∈ resolving
          · rw [if_pos (List.contains_iff_mem.mpr hcircle)]
            refine ⟨fun d depths' h => (by cases h), fun e h => ?_⟩
            cases h
            obtain ⟨a, ha, hsame, hbelow⟩ := hinside _ hcircle
            obtain rfl := eq_of_id hdistinct ha hentry hsame
            exact .inl ⟨rfl, a, hbelow⟩
          · rw [if_neg (by rw [List.contains_iff_mem]; exact hcircle)]
            by_cases hroot : entry.parentId = rootId
            · rw [if_pos hroot]
              refine ⟨fun d depths' h => ?_, fun e h => by cases h⟩
              obtain ⟨rfl, rfl⟩ := Prod.mk.inj (Except.ok.inj h)
              have hdepth := Depth.top hentry hroot
              exact ⟨hdepth, hknown.cons hentry hdepth,
                Keeps.cons (fun _ _ h => h) hlookup 1, lookup_cons_self _ _ _⟩
            · rw [if_neg hroot]
              cases hparent : byId entries entry.parentId with
              | none =>
                  refine ⟨fun d depths' h => (by cases h), fun e h => ?_⟩
                  cases h
                  refine .inr ⟨rfl, entry, hentry, hroot, fun p hp => ?_⟩
                  have hnot := List.find?_eq_none.mp hparent p hp
                  simpa using hnot
              | some parent =>
                  have hp : parent ∈ entries := List.mem_of_find?_eq_some hparent
                  have hid : parent.id = entry.parentId := by
                    simpa using List.find?_some hparent
                  have hchild : ChildOf entries entry parent :=
                    ⟨hentry, hp, hid⟩
                  have hinside' : ∀ id ∈ entry.id :: resolving,
                      ∃ a ∈ entries, a.id = id
                        ∧ Relation.TransGen (ChildOf entries) a parent := by
                    rw [List.forall_mem_cons]
                    refine ⟨⟨entry, hentry, rfl, .single hchild⟩, ?_⟩
                    intro id hid
                    obtain ⟨a, ha, hsame, hbelow⟩ := hinside id hid
                    exact ⟨a, ha, hsame, hbelow.tail hchild⟩
                  obtain ⟨hok, herror⟩ := ih (entry.id :: resolving) depths
                    parent hp (List.nodup_cons.mpr ⟨hcircle, hnodup⟩) hinside'
                    (by rw [List.length_cons]; omega) hknown
                  dsimp only
                  constructor
                  · intro d depths' h
                    obtain ⟨⟨n, middle⟩, hvisit, h⟩ := bind_eq_ok.mp h
                    obtain ⟨rfl, rfl⟩ := Prod.mk.inj (Except.ok.inj h)
                    obtain ⟨hdepth, hmiddle, hkeeps, -⟩ := hok n middle hvisit
                    have hdeeper := Depth.deeper hentry hp hid hdepth
                    exact ⟨hdeeper, hmiddle.cons hentry hdeeper,
                      hkeeps.cons hlookup (n + 1), lookup_cons_self _ _ _⟩
                  · intro e h
                    rcases bind_eq_error.mp h with h | ⟨_, -, h⟩
                    · exact herror e h
                    · cases h

/-- The loop over the entries, from depths that are known. -/
theorem foldlM_noteDepth (hdistinct : (entries.map fun e => e.id).Nodup)
    {rest : List Child} (hrest : ∀ e ∈ rest, e ∈ entries)
    (hknown : Known entries rootId depths) :
    (∀ depths', rest.foldlM (noteDepth entries rootId) depths = .ok depths' →
      Known entries rootId depths' ∧ Keeps depths depths'
        ∧ ∀ e ∈ rest, ∃ d, depths'.lookup e.id = some d
          ∧ Depth entries rootId e d)
    ∧ ∀ e, rest.foldlM (noteDepth entries rootId) depths = .error e → Broken entries rootId e := by
  induction rest generalizing depths with
  | nil =>
      refine ⟨fun depths' h => ?_, fun e h => (by cases h)⟩
      obtain rfl := Except.ok.inj h
      exact ⟨hknown, fun _ _ h => h, by simp⟩
  | cons entry rest ih =>
      obtain ⟨hentry, hrest⟩ := List.forall_mem_cons.mp hrest
      obtain ⟨hok, herror⟩ := depthOf_spec hdistinct (entries.length + 1) []
        depths entry hentry List.nodup_nil (by simp) (by simp) hknown
      rw [List.foldlM_cons]
      unfold noteDepth
      cases hvisit : depthOf entries rootId (entries.length + 1) [] depths entry
        with
      | error e =>
          refine ⟨fun depths' h => (by cases h), fun e' h => ?_⟩
          cases h
          exact herror e hvisit
      | ok found =>
          obtain ⟨d, middle⟩ := found
          obtain ⟨hdepth, hmiddle, hkeeps, hlookup⟩ := hok d middle hvisit
          obtain ⟨hok', herror'⟩ := ih hrest hmiddle
          refine ⟨fun depths' h => ?_, herror'⟩
          obtain ⟨hknown', hkeeps', hall⟩ := hok' depths' h
          refine ⟨hknown', fun id d h => hkeeps' id d (hkeeps id d h), ?_⟩
          rw [List.forall_mem_cons]
          exact ⟨⟨d, hkeeps' _ _ hlookup, hdepth⟩, hall⟩

theorem depthsOf_spec (hdistinct : (entries.map fun e => e.id).Nodup) :
    (∀ depths, depthsOf entries rootId = .ok depths →
      ∀ e ∈ entries, ∃ d, depths.lookup e.id = some d
        ∧ Depth entries rootId e d)
    ∧ ∀ e, depthsOf entries rootId = .error e → Broken entries rootId e := by
  have hnone : Known entries rootId [] := fun _ _ h => nomatch h
  obtain ⟨hok, herror⟩ :=
    foldlM_noteDepth hdistinct (fun _ h => h) hnone
  exact ⟨fun depths h => (hok depths h).2.2, herror⟩

/-- All entries have a depth exactly where they are a hierarchy. -/
theorem depthsOf_ok_iff (hdistinct : (entries.map fun e => e.id).Nodup)
    (houtside : ∀ e ∈ entries, e.id ≠ rootId) :
    (∃ depths, depthsOf entries rootId = .ok depths)
      ↔ Hierarchy entries rootId := by
  obtain ⟨hok, herror⟩ := @depthsOf_spec entries rootId hdistinct
  constructor
  · rintro ⟨depths, hdepths⟩
    have hall := hok depths hdepths
    refine ⟨hdistinct, ?_, fun e hcycle => ?_⟩
    · rintro e ⟨he, hne, hnone⟩
      obtain ⟨d, -, hdepth⟩ := hall e he
      cases hdepth with
      | top _ hroot => exact hne hroot
      | deeper _ hp hid _ => exact hnone _ hp hid
    · obtain ⟨p, ⟨he, -, -⟩, -⟩ := Relation.TransGen.head'_iff.mp hcycle
      obtain ⟨d, -, hdepth⟩ := hall e he
      exact Nat.lt_irrefl d
        (depth_lt hdistinct houtside hcycle hdepth hdepth)
  · intro hhierarchy
    cases hdepths : depthsOf entries rootId with
    | ok depths => exact ⟨depths, rfl⟩
    | error e =>
        rcases herror e hdepths with ⟨-, a, hcycle⟩ | ⟨-, a, hdangling⟩
        · exact absurd hcycle (hhierarchy.acyclic a)
        · exact absurd hdangling (hhierarchy.connected a)

-- ====== order

theorem sortByDepth_perm (depths : Depths) (entries : List Child) :
    (sortByDepth depths entries).Perm entries :=
  List.perm_insertionSort _ entries

/-- What the sort goes by. -/
def Precedes (depths : Depths) (left right : Child) : Prop :=
  (depths.lookup right.id).getD 0 < (depths.lookup left.id).getD 0
    ∨ (depths.lookup left.id).getD 0 = (depths.lookup right.id).getD 0
      ∧ Text.localeCompare left.id right.id ≠ .gt

instance (depths : Depths) : DecidableRel (Precedes depths) := fun _ _ =>
  inferInstanceAs (Decidable (_ ∨ _))

theorem precedes_total (depths : Depths) (a b : Child) :
    Precedes depths a b ∨ Precedes depths b a := by
  unfold Precedes
  have htotal : Text.localeCompare a.id b.id ≠ .gt
      ∨ Text.localeCompare b.id a.id ≠ .gt := by
    rw [Text.localeCompare_ne_gt_iff, Text.localeCompare_ne_gt_iff]
    exact le_total _ _
  rcases Nat.lt_trichotomy ((depths.lookup a.id).getD 0)
    ((depths.lookup b.id).getD 0) with hlt | heq | hgt
  · exact .inr (.inl hlt)
  · rcases htotal with h | h
    · exact .inl (.inr ⟨heq, h⟩)
    · exact .inr (.inr ⟨heq.symm, h⟩)
  · exact .inl (.inl hgt)

theorem precedes_trans {c : Child} (hab : Precedes depths a b)
    (hbc : Precedes depths b c) :
    Precedes depths a c := by
  unfold Precedes at hab hbc ⊢
  rcases hab with hab | ⟨hab, hab'⟩ <;> rcases hbc with hbc | ⟨hbc, hbc'⟩
  · exact .inl (by omega)
  · exact .inl (by omega)
  · exact .inl (by omega)
  · refine .inr ⟨by omega, ?_⟩
    rw [Text.localeCompare_ne_gt_iff] at hab' hbc' ⊢
    exact hab'.trans hbc'

theorem pairwise_sortByDepth (depths : Depths) (entries : List Child) :
    (sortByDepth depths entries).Pairwise (Precedes depths) := by
  have : Std.Total fun left right : Child => Precedes depths left right :=
    ⟨precedes_total depths⟩
  have : IsTrans Child fun left right => Precedes depths left right :=
    ⟨fun _ _ _ => precedes_trans⟩
  exact List.pairwise_insertionSort (Precedes depths) entries

/-- Each domain comes after all below it. -/
def BottomUp (order : List Child) : Prop :=
  ∀ e a, Relation.TransGen (ChildOf order) e a → Before order e a

theorem ChildOf.perm (hperm : entries.Perm entries') {e p : Child}
    (h : ChildOf entries e p) : ChildOf entries' e p :=
  ⟨hperm.mem_iff.mp h.1, hperm.mem_iff.mp h.2.1, h.2.2⟩

theorem bottomUp_sortByDepth (hdistinct : (entries.map fun e => e.id).Nodup)
    (houtside : ∀ e ∈ entries, e.id ≠ rootId)
    (hdepths : ∀ e ∈ entries, ∃ d, depths.lookup e.id = some d
      ∧ Depth entries rootId e d) :
    BottomUp (sortByDepth depths entries) := by
  have hperm := sortByDepth_perm depths entries
  have hsorted := pairwise_sortByDepth depths entries
  intro e a hbelow
  have hbelow' : Relation.TransGen (ChildOf entries) e a :=
    Relation.TransGen.mono (fun _ _ => ChildOf.perm hperm) _ _ hbelow
  obtain ⟨p, ⟨he, -, -⟩, -⟩ := Relation.TransGen.head'_iff.mp hbelow'
  obtain ⟨c, -, -, ha, -⟩ := Relation.TransGen.tail'_iff.mp hbelow'
  obtain ⟨n, hn, hen⟩ := hdepths e he
  obtain ⟨m, hm, ham⟩ := hdepths a ha
  have hlt := depth_lt hdistinct houtside hbelow' hen ham
  refine before_of_not_rel hsorted (hperm.mem_iff.mpr he) ?_ ?_
  · rintro rfl
    rw [depth_unique hdistinct houtside hen ham] at hlt
    exact Nat.lt_irrefl _ hlt
  · unfold Precedes
    rw [hn, hm, Option.getD_some, Option.getD_some]
    rintro (h | ⟨h, -⟩) <;> omega

-- ====== entries

/-- What an entry is made of. -/
structure IsChild (root : Root) (value : DomainRecord) (e : Child) : Prop where
  snapshot : domainSnapshot value = .ok e.toSnapshot
  notRoot : e.id ≠ root.id
  server : e.serverId = root.serverId

theorem childEntry_eq_ok_iff {value : DomainRecord} {e : Child} :
    childEntry root value = .ok e ↔ IsChild root value e := by
  unfold childEntry
  constructor
  · intro h
    obtain ⟨snapshot, hsnapshot, h⟩ := bind_eq_ok.mp h
    split at h
    · cases h
    · obtain ⟨_, hroot, h⟩ := bind_eq_ok.mp h
      obtain ⟨_, hserver, h⟩ := bind_eq_ok.mp h
      obtain rfl := Except.ok.inj h
      rw [ensure_eq_ok, bne_iff_ne] at hroot
      rw [ensure_eq_ok, beq_iff_eq] at hserver
      exact ⟨hsnapshot, hroot, hserver⟩
  · rintro ⟨hsnapshot, hroot, hserver⟩
    rw [hsnapshot, ok_bind]
    split
    · rename_i hnone
      rw [e.linked] at hnone
      cases hnone
    · rename_i parentId hparent
      have hsame : parentId = e.parentId :=
        Option.some.inj (hparent.symm.trans e.linked)
      have hne : (e.id != root.id) = true := bne_iff_ne.mpr hroot
      have heq : (e.serverId == root.serverId) = true := beq_iff_eq.mpr hserver
      rw [hne, heq]
      subst hsame
      rfl

/-- What the checks of a snapshot leave to be said. -/
structure Sound (s : Snapshot) : Prop where
  id : isSafeId s.id = true
  server : isSafeId s.serverId = true
  name : isPrimaryDomain s.primaryDomain = true
  website : s.websiteId.all isSafeId = true
  certificate : s.certificateId.all isSafeId = true
  parent : s.parentDomainId.all isSafeId = true
  state : ["active", "suspended"].contains s.state = true
  revision : isRevision s.desiredRevision = true
  checksum : Text.isSha256 s.checksum = true
  active : s.state ≠ "suspended" → s.suspensionOperationId = none
  suspended : s.state = "suspended" →
    s.suspensionOperationId.any isSafeId = true

theorem safeId_eq_ok {value : String} :
    safeId value field = .ok id ↔ isSafeId value = true ∧ id = value := by
  unfold safeId
  by_cases hsafe : isSafeId value = true
  · simp [hsafe, eq_comm]
  · simp [hsafe]

theorem optionalId_eq_ok {value id : Option String} :
    optionalId value field = .ok id
      ↔ value.all isSafeId = true ∧ id = value := by
  cases value with
  | none => simp [optionalId, eq_comm]
  | some value =>
      simp only [optionalId, map_eq_ok, safeId_eq_ok, Option.all_some]
      constructor
      · rintro ⟨a, ⟨hsafe, rfl⟩, rfl⟩
        exact ⟨hsafe, rfl⟩
      · rintro ⟨hsafe, rfl⟩
        exact ⟨value, ⟨hsafe, rfl⟩, rfl⟩

theorem sound_of_domainSnapshot {domain : DomainRecord} {s : Snapshot}
    (h : domainSnapshot domain = .ok s) : Sound s := by
  unfold domainSnapshot at h
  obtain ⟨_, hstable, h⟩ := bind_eq_ok.mp h
  obtain ⟨checksum, hchecksum, h⟩ := bind_eq_ok.mp h
  obtain ⟨_, hsuspended, h⟩ := bind_eq_ok.mp h
  obtain ⟨_, hactive, h⟩ := bind_eq_ok.mp h
  obtain ⟨id, hid, h⟩ := bind_eq_ok.mp h
  obtain ⟨serverId, hserver, h⟩ := bind_eq_ok.mp h
  obtain ⟨websiteId, hwebsite, h⟩ := bind_eq_ok.mp h
  obtain ⟨certificateId, hcertificate, h⟩ := bind_eq_ok.mp h
  obtain ⟨parentDomainId, hparent, h⟩ := bind_eq_ok.mp h
  obtain rfl := Except.ok.inj h
  rw [safeId_eq_ok] at hid hserver
  rw [optionalId_eq_ok] at hwebsite hcertificate hparent
  obtain ⟨hid, rfl⟩ := hid
  obtain ⟨hserver, rfl⟩ := hserver
  obtain ⟨hwebsite, rfl⟩ := hwebsite
  obtain ⟨hcertificate, rfl⟩ := hcertificate
  obtain ⟨hparent, rfl⟩ := hparent
  unfold safeDigest at hchecksum
  rw [demand_eq_ok, Option.filter_eq_some_iff] at hchecksum
  simp only [ensure_eq_ok, Bool.and_eq_true] at hstable
  obtain ⟨⟨⟨⟨⟨hname, hstate⟩, hrevision⟩, -⟩, -⟩, -⟩ := hstable
  refine ⟨hid, hserver, hname, hwebsite, hcertificate, hparent, hstate,
    hrevision, hchecksum.2, fun hne => ?_, fun heq => ?_⟩
  · exact if_neg (by simpa using hne)
  · have heq' : (domain.state == "suspended") = true := beq_iff_eq.mpr heq
    rw [ensure_eq_ok, heq', Bool.not_true, Bool.false_or, Bool.and_eq_true]
      at hsuspended
    show (if (domain.state == "suspended") = true then
      domain.suspensionOperationId else none).any isSafeId = true
    rw [if_pos heq']
    exact hsuspended.2

-- ====== journal

theorem childIntent_eq_ok {item : Child} (h : Sound item.toSnapshot) :
    childIntent item.id item = .ok () := by
  have hactive : (item.state != "active"
      || item.suspensionOperationId.isNone) = true := by
    by_cases hstate : item.state = "suspended"
    · rw [hstate]
      rfl
    · rw [h.active hstate, Bool.or_eq_true]
      exact .inr rfl
  have hsuspended : (item.state != "suspended"
      || item.suspensionOperationId.any isSafeId) = true := by
    by_cases hstate : item.state = "suspended"
    · rw [h.suspended hstate, Bool.or_true]
    · rw [bne_iff_ne.mpr hstate, Bool.true_or]
  have hparent : isSafeId item.parentId = true := by
    have hall := h.parent
    rwa [item.linked, Option.all_some] at hall
  unfold childIntent checked
  simp only [bind_eq_ok, ensure_eq_ok, Bool.and_eq_true, beq_self_eq_true]
  exact ⟨(), ⟨⟨⟨⟨⟨trivial, h.name⟩, h.state⟩, h.revision⟩, hactive⟩,
    hsuspended⟩, (), h.id, (), h.server, (), h.website, (), h.certificate, (),
    hparent, h.checksum⟩

/-- The place of a parent among the identifiers is its place in the list. -/
theorem idxOf_id (hdistinct : (order.map fun e => e.id).Nodup) {p : Child}
    (hp : p ∈ order) :
    (order.map fun e => e.id).idxOf p.id = order.idxOf p := by
  have hlt : order.idxOf p < order.length := List.idxOf_lt_length_iff.mpr hp
  have hlt' : order.idxOf p < (order.map fun e => e.id).length := by
    rwa [List.length_map]
  have hat : (order.map fun e => e.id)[order.idxOf p] = p.id := by
    rw [List.getElem_map, List.getElem_idxOf]
  rw [← hat]
  exact hdistinct.idxOf_getElem _ _

theorem length_dedup_le_one {l : List String} {b : String}
    (h : ∀ a ∈ l, a = b) : l.dedup.length ≤ 1 := by
  have hsub : l.dedup ⊆ [b] := by
    intro a ha
    rw [h a (List.mem_dedup.mp ha)]
    exact List.mem_singleton_self b
  exact (List.subperm_of_subset (List.nodup_dedup l) hsub).length_le

/-- Some entry is right below the root. -/
theorem Depth.exists_top {e : Child} (h : Depth entries rootId e n) :
    ∃ t ∈ entries, t.parentId = rootId := by
  induction h with
  | top he hroot => exact ⟨_, he, hroot⟩
  | deeper _ _ _ _ ih => exact ih

/-- The only parent outside of a hierarchy is the root. -/
theorem externalParents_length (hhierarchy : Hierarchy entries rootId)
    (houtside : ∀ e ∈ entries, e.id ≠ rootId) (hne : entries ≠ []) :
    (externalParents (entries.map fun e => e.id) entries).length = 1 := by
  unfold externalParents
  have hle : ((entries.filter fun item =>
      !(entries.map fun e => e.id).contains item.parentId).map
        Child.parentId).dedup.length ≤ 1 := by
    refine length_dedup_le_one (b := rootId) fun a ha => ?_
    obtain ⟨e, he, rfl⟩ := List.mem_map.mp ha
    obtain ⟨hmem, hlisted⟩ := List.mem_filter.mp he
    by_contra hroot
    refine hhierarchy.connected e ⟨hmem, hroot, fun p hp hid => ?_⟩
    have hin : (entries.map fun e => e.id).contains e.parentId = true := by
      rw [List.contains_iff_mem, ← hid]
      exact List.mem_map_of_mem hp
    rw [hin] at hlisted
    cases hlisted
  have hsome : rootId ∈ ((entries.filter fun item =>
      !(entries.map fun e => e.id).contains item.parentId).map
        Child.parentId).dedup := by
    obtain ⟨depths, hdepths⟩ :=
      (depthsOf_ok_iff hhierarchy.distinct houtside).mpr hhierarchy
    obtain ⟨e, rest, hlist⟩ := List.exists_cons_of_ne_nil hne
    obtain ⟨d, -, hdepth⟩ := (depthsOf_spec hhierarchy.distinct).1 depths
      hdepths e (by simp [hlist])
    obtain ⟨t, ht, hroot⟩ := hdepth.exists_top
    rw [List.mem_dedup, List.mem_map]
    refine ⟨t, List.mem_filter.mpr ⟨ht, ?_⟩, hroot⟩
    have hout : (entries.map fun e => e.id).contains t.parentId = false := by
      rw [← Bool.not_eq_true, List.contains_iff_mem, hroot]
      intro hmem
      obtain ⟨p, hp, hid⟩ := List.mem_map.mp hmem
      exact houtside p hp hid
    rw [hout]
    rfl
  have hpos := List.length_pos_of_mem hsome
  omega

/-- What the plan puts in order the journal takes as it is. -/
theorem normalizedChildDomains_ok (hfew : order.length ≤ 500)
    (hsound : ∀ e ∈ order, Sound e.toSnapshot)
    (hserver : ∀ e ∈ order, e.serverId = root.serverId)
    (houtside : ∀ e ∈ order, e.id ≠ root.id)
    (hhierarchy : Hierarchy order root.id) (hup : BottomUp order) :
    normalizedChildDomains (order.map fun e => e.id) order = .ok order := by
  have hids : ((order.map fun e => e.id).all isSafeId) = true := by
    rw [List.all_map, List.all_eq_true]
    exact fun e he => (hsound e he).id
  have hintents : ((order.map fun e => e.id).zip order).forM
      (fun pair => childIntent pair.1 pair.2) = .ok ⟨⟩ := by
    rw [forM_eq_ok]
    intro pair hpair
    obtain ⟨i, hi, rfl⟩ := List.mem_iff_getElem.mp hpair
    rw [List.getElem_zip, List.getElem_map]
    exact childIntent_eq_ok (hsound _ (List.getElem_mem _))
  have hplaces : (order.zipIdx.all fun pair =>
      !(order.map fun e => e.id).contains pair.1.parentId
        || decide (pair.2 < (order.map fun e => e.id).idxOf pair.1.parentId))
      = true := by
    rw [List.all_eq_true]
    rintro ⟨e, i⟩ hpair
    have hat : order[i]? = some e := List.mem_zipIdx_iff_getElem?.mp hpair
    obtain ⟨hi, hsame⟩ := List.getElem?_eq_some_iff.mp hat
    have he : e ∈ order := hsame ▸ List.getElem_mem hi
    by_cases hlisted : e.parentId ∈ order.map fun e => e.id
    · obtain ⟨p, hp, hid⟩ := List.mem_map.mp hlisted
      have hbefore := hup _ _ (.single ⟨he, hp, hid⟩)
      have hplace : order.idxOf e = i := by
        rw [← hsame]
        exact (List.Nodup.of_map _ hhierarchy.distinct).idxOf_getElem _ _
      unfold Before at hbefore
      rw [hplace, ← idxOf_id hhierarchy.distinct hp, hid] at hbefore
      rw [Bool.or_eq_true]
      exact .inr (decide_eq_true hbefore)
    · rw [Bool.or_eq_true, Bool.not_eq_true', ← Bool.not_eq_true,
        List.contains_iff_mem]
      exact .inl hlisted
  have hservers : (order.map fun e => e.serverId).dedup.length ≤ 1 := by
    refine length_dedup_le_one (b := root.serverId) fun a ha => ?_
    obtain ⟨e, he, rfl⟩ := List.mem_map.mp ha
    exact hserver e he
  have hparents : (order.isEmpty || (externalParents
      (order.map fun e => e.id) order).length == 1) = true := by
    by_cases hne : order = []
    · rw [hne]
      rfl
    · rw [externalParents_length hhierarchy houtside hne, Bool.or_eq_true]
      exact .inr rfl
  unfold normalizedChildDomains checked
  rw [hintents]
  simp only [bind_eq_ok, ensure_eq_ok, decide_eq_true_eq, Bool.and_eq_true,
    exists_unit, ok_bind]
  refine ⟨by simpa using hfew, hids, hhierarchy.distinct, by simp, hplaces,
    ⟨hservers, hparents⟩, rfl⟩

-- ====== the plan

theorem Hierarchy.perm (hperm : entries.Perm entries')
    (h : Hierarchy entries rootId) :
    Hierarchy entries' rootId := by
  refine ⟨(hperm.map _).nodup_iff.mp h.distinct, fun e hdangling => ?_,
    fun e hcycle => ?_⟩
  · obtain ⟨he, hne, hnone⟩ := hdangling
    exact h.connected e ⟨hperm.mem_iff.mpr he, hne,
      fun p hp => hnone p (hperm.mem_iff.mp hp)⟩
  · exact h.acyclic e (Relation.TransGen.mono
      (fun _ _ => ChildOf.perm hperm.symm) _ _ hcycle)

theorem orderedChildDomains_eq_ok {values : List DomainRecord}
    {r : List Child} :
    orderedChildDomains values root = .ok r ↔ values.length ≤ 500
      ∧ ∃ entries, List.Forall₂ (IsChild root) values entries
        ∧ (entries.map fun e => e.id).Nodup
        ∧ ∃ depths, depthsOf entries root.id = .ok depths
          ∧ r = sortByDepth depths entries := by
  unfold orderedChildDomains
  simp only [bind_eq_ok, ensure_eq_ok, decide_eq_true_eq, mapM_eq_ok_iff,
    childEntry_eq_ok_iff, exists_unit]
  constructor
  · rintro ⟨hfew, entries, hentries, hdistinct, depths, hdepths, h⟩
    exact ⟨hfew, entries, hentries, hdistinct, depths, hdepths,
      (Except.ok.inj h).symm⟩
  · rintro ⟨hfew, entries, hentries, hdistinct, depths, hdepths, rfl⟩
    exact ⟨hfew, entries, hentries, hdistinct, depths, hdepths, rfl⟩

/-- An inventory is accepted exactly where it is not too long, each of its
domains is an entry on its own, and the entries are a hierarchy below the
root. They are returned bottom up, and the journal takes that order. -/
theorem orderedChildDomains_exact (root : Root) (values : List DomainRecord) :
    ((∃ r, orderedChildDomains values root = .ok r) ↔ values.length ≤ 500
      ∧ ∃ entries, List.Forall₂ (IsChild root) values entries
        ∧ Hierarchy entries root.id)
    ∧ ∀ r, orderedChildDomains values root = .ok r →
      (∃ entries, List.Forall₂ (IsChild root) values entries
        ∧ r.Perm entries)
      ∧ (r.map fun e => e.id).Nodup ∧ BottomUp r
      ∧ normalizedChildDomains (r.map fun e => e.id) r = .ok r := by
  have houtside : ∀ entries, List.Forall₂ (IsChild root) values entries →
      ∀ e ∈ entries, e.id ≠ root.id ∧ e.serverId = root.serverId
        ∧ Sound e.toSnapshot := by
    intro entries hentries e he
    obtain ⟨value, -, hchild⟩ := exists_of_forall₂ hentries he
    exact ⟨hchild.notRoot, hchild.server, sound_of_domainSnapshot hchild.snapshot⟩
  constructor
  · constructor
    · rintro ⟨r, h⟩
      obtain ⟨hfew, entries, hentries, hdistinct, depths, hdepths, -⟩ :=
        orderedChildDomains_eq_ok.mp h
      exact ⟨hfew, entries, hentries, (depthsOf_ok_iff hdistinct
        fun e he => (houtside entries hentries e he).1).mp ⟨depths, hdepths⟩⟩
    · rintro ⟨hfew, entries, hentries, hhierarchy⟩
      obtain ⟨depths, hdepths⟩ := (depthsOf_ok_iff hhierarchy.distinct
        fun e he => (houtside entries hentries e he).1).mpr hhierarchy
      exact ⟨_, orderedChildDomains_eq_ok.mpr ⟨hfew, entries, hentries,
        hhierarchy.distinct, depths, hdepths, rfl⟩⟩
  · intro r h
    obtain ⟨hfew, entries, hentries, hdistinct, depths, hdepths, rfl⟩ :=
      orderedChildDomains_eq_ok.mp h
    have hall := houtside entries hentries
    have hroot := fun e he => (hall e he).1
    have hperm := sortByDepth_perm depths entries
    have hhierarchy := (depthsOf_ok_iff hdistinct hroot).mp ⟨depths, hdepths⟩
    have hup := bottomUp_sortByDepth hdistinct hroot
      ((depthsOf_spec hdistinct).1 depths hdepths)
    have hsorted := hhierarchy.perm hperm.symm
    refine ⟨⟨entries, hentries, hperm⟩, hsorted.distinct, hup, ?_⟩
    refine normalizedChildDomains_ok ?_
      (fun e he => (hall e (hperm.mem_iff.mp he)).2.2)
      (fun e he => (hall e (hperm.mem_iff.mp he)).2.1)
      (fun e he => hroot e (hperm.mem_iff.mp he)) hsorted hup
    rw [hperm.length_eq, ← hentries.length_eq]
    exact hfew

/-- A domain right below the root. -/
def sampleRecord (stagedRevision : Int) : DomainRecord where
  id := "shop"
  serverId := "server"
  primaryDomain := "shop.example.com"
  websiteId := none
  certificateId := none
  parentDomainId := some "root"
  state := "active"
  desiredRevision := 2
  stagedRevision := some stagedRevision
  appliedRevision := some 2
  appliedPrimaryDomain := some "shop.example.com"
  stagedChecksum := some (String.ofList (List.replicate 64 'a'))
  suspendedChecksum := none
  suspensionOperationId := none

/-- A domain of the root's server that names the root as its parent, on its
own, is refused while a revision of it is not staged. -/
theorem unstaged_child_refused :
    (orderedChildDomains [sampleRecord 2] ⟨"root", "server"⟩).toOption.isSome
      = true
    ∧ ¬∃ r, orderedChildDomains [sampleRecord 1] ⟨"root", "server"⟩ = .ok r := by
  have hok : (orderedChildDomains [sampleRecord 2]
      ⟨"root", "server"⟩).toOption.isSome = true := by decide +kernel
  have hrefused : (orderedChildDomains [sampleRecord 1]
      ⟨"root", "server"⟩).toOption.isSome = false := by decide +kernel
  refine ⟨hok, fun ⟨r, hr⟩ => ?_⟩
  rw [hr] at hrefused
  cases hrefused

end Yunpanel.Domains.RemovalPlan
