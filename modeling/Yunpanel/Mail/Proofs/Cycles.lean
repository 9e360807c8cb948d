/-
The aliases forward in no circle.

The search of `normalizeAliases` is the depth-first search of
`Lib.DepthFirst` over the listed sources, with what they forward to among
themselves as its edges (`visit_eq`). So it is refused exactly where a source
leads back to itself. No other check is refused for that reason
(`Sound.ne_aliasCycle`), and where there is no circle, forwarding comes to an
end whichever way it goes (`forwards_wellFounded`). The search is given more
fuel than the aliases it can be inside of (`visit_fuel`).
-/
import Mathlib.Data.Set.Finite.List
import Yunpanel.Lib.DepthFirst
import Yunpanel.Mail.Proofs.Addresses

namespace Yunpanel.Mail

open Lib Json
open Domains (Net)

variable {net : Net} {aliases : List Alias}

-- ====== fuel

variable {source : String} {value : Json} {managed : List String}

theorem mem_of_destinationsOf
    (h : (destinationsOf aliases source).isSome = true) :
    source ∈ aliases.map Alias.source := by
  unfold destinationsOf at h
  rw [Option.isSome_map, List.find?_isSome] at h
  obtain ⟨entry, hentry, heq⟩ := h
  exact List.mem_map.mpr ⟨entry, hentry, beq_iff_eq.mp heq⟩

/-- The search is inside of sources, each of them once, so it is not inside
of more than there are: more fuel than that is never missed. -/
theorem visit_fuel {fuel more : Nat} {visiting visited : List String}
    (hdistinct : visiting.Nodup)
    (hsources : ∀ s ∈ visiting, s ∈ aliases.map Alias.source)
    (hsource : source ∈ aliases.map Alias.source)
    (hfuel : aliases.length < fuel + visiting.length) :
    visit aliases (fuel + more) visiting visited source
      = visit aliases fuel visiting visited source := by
  induction fuel generalizing visiting visited source with
  | zero =>
      have hle : visiting.length ≤ (aliases.map Alias.source).length :=
        (List.subperm_of_subset hdistinct hsources).length_le
      rw [List.length_map] at hle
      omega
  | succ fuel ih =>
      rw [show fuel + 1 + more = (fuel + more) + 1 by omega]
      unfold visit
      by_cases hcircle : source ∈ visiting
      · rw [if_pos (List.contains_iff_mem.mpr hcircle),
          if_pos (List.contains_iff_mem.mpr hcircle)]
      · have hnext : ∀ s ∈ source :: visiting,
            s ∈ aliases.map Alias.source := by
          intro s hs
          rcases List.mem_cons.mp hs with rfl | hs
          · exact hsource
          · exact hsources s hs
        have hstep : ∀ (visited : List String) (destination : String),
            (if (destinationsOf aliases destination).isSome then
              visit aliases (fuel + more) (source :: visiting) visited
                destination
            else .ok visited)
            = if (destinationsOf aliases destination).isSome then
                visit aliases fuel (source :: visiting) visited destination
              else .ok visited := by
          intro visited destination
          by_cases hsome : (destinationsOf aliases destination).isSome = true
          · rw [if_pos hsome, if_pos hsome]
            refine ih (List.nodup_cons.mpr ⟨hcircle, hdistinct⟩) hnext
              (mem_of_destinationsOf hsome) ?_
            rw [List.length_cons]
            omega
          · rw [if_neg hsome, if_neg hsome]
        simp only [hstep]

-- ====== forwarding

/-- A listed source forwards to an address. -/
def Forwards (aliases : List Alias) (source destination : String) : Prop :=
  ∃ entry ∈ aliases, entry.source = source
    ∧ destination ∈ entry.destinations

/-- An address is the source of an alias. -/
def IsSource (aliases : List Alias) (address : String) : Prop :=
  address ∈ aliases.map Alias.source

/-- The graph of the sources: who forwards to whom among them. -/
def Leads (aliases : List Alias) (source destination : String) : Prop :=
  Forwards aliases source destination ∧ IsSource aliases destination

/-- Some source leads back to itself. -/
def Circular (aliases : List Alias) : Prop :=
  ∃ source, Relation.TransGen (Leads aliases) source source

/-- Where mail to an address ends up. -/
def Final (aliases : List Alias) (address : String) : Set String :=
  { destination | Relation.ReflTransGen (Forwards aliases) address destination
    ∧ ¬IsSource aliases destination }

/-- A list of aliases that are as they have to be, each on its own. -/
structure Listed (net : Net) (managed : List String) (aliases : Json)
    (entries : List Alias) : Prop where
  values : ∃ values, aliases = .arr values ∧ values.length ≤ maxMailboxes
    ∧ List.Forall₂ (AliasOf net managed) values entries
  distinct : (entries.map Alias.source).Nodup

theorem Circular.perm {aliases' : List Alias} (hperm : aliases.Perm aliases')
    (h : Circular aliases) : Circular aliases' := by
  obtain ⟨source, hcycle⟩ := h
  refine ⟨source, Relation.TransGen.mono ?_ _ _ hcycle⟩
  rintro s d ⟨⟨entry, hentry, hsource, hd⟩, hlisted⟩
  exact ⟨⟨entry, hperm.mem_iff.mp hentry, hsource, hd⟩,
    (hperm.map Alias.source).mem_iff.mp hlisted⟩

-- ====== the search

theorem destinationsOf_isSome {address : String} :
    (destinationsOf aliases address).isSome = true
      ↔ IsSource aliases address := by
  constructor
  · exact mem_of_destinationsOf
  · intro hsource
    obtain ⟨entry, hentry, rfl⟩ := List.mem_map.mp hsource
    unfold destinationsOf
    rw [Option.isSome_map, List.find?_isSome]
    exact ⟨entry, hentry, beq_self_eq_true _⟩

theorem destinationsOf_eq_some
    (hdistinct : (aliases.map Alias.source).Nodup) {entry : Alias}
    (hentry : entry ∈ aliases) :
    destinationsOf aliases entry.source = some entry.destinations := by
  unfold destinationsOf
  have hfound : (aliases.find? fun other => other.source == entry.source).isSome
      = true := by
    rw [List.find?_isSome]
    exact ⟨entry, hentry, beq_self_eq_true _⟩
  obtain ⟨found, hfind⟩ := Option.isSome_iff_exists.mp hfound
  have hsame : found.source = entry.source := by
    simpa using List.find?_some hfind
  have heq : found = entry := List.inj_on_of_nodup_map hdistinct
    (List.mem_of_find?_eq_some hfind) hentry hsame
  rw [hfind, heq, Option.map_some]

/-- The sources that a source forwards to. -/
def nextOf (aliases : List Alias) (source : String) : List String :=
  ((destinationsOf aliases source).getD []).filter fun destination =>
    (destinationsOf aliases destination).isSome

theorem edge_nextOf (hdistinct : (aliases.map Alias.source).Nodup) :
    DepthFirst.Edge (nextOf aliases) = Leads aliases := by
  funext source destination
  apply propext
  unfold DepthFirst.Edge nextOf
  rw [List.mem_filter, destinationsOf_isSome]
  constructor
  · rintro ⟨hmem, hlisted⟩
    refine ⟨?_, hlisted⟩
    unfold destinationsOf at hmem
    cases hfind : aliases.find? fun entry => entry.source == source with
    | none =>
        rw [hfind] at hmem
        cases hmem
    | some entry =>
        rw [hfind] at hmem
        exact ⟨entry, List.mem_of_find?_eq_some hfind,
          by simpa using List.find?_some hfind, hmem⟩
  · rintro ⟨⟨entry, hentry, rfl, hmem⟩, hlisted⟩
    rw [destinationsOf_eq_some hdistinct hentry]
    exact ⟨hmem, hlisted⟩

theorem visit_eq (fuel : Nat) (visiting visited : List String)
    (source : String) :
    visit aliases fuel visiting visited source
      = DepthFirst.visit (nextOf aliases) aliasCycle fuel visiting visited
          source := by
  induction fuel generalizing visiting visited source with
  | zero => rfl
  | succ fuel ih =>
      unfold visit DepthFirst.visit
      simp only [List.contains_iff_mem, ih]
      by_cases hcircle : source ∈ visiting
      · rw [if_pos hcircle, if_pos hcircle]
      · rw [if_neg hcircle, if_neg hcircle]
        by_cases hseen : source ∈ visited
        · rw [if_pos hseen, if_pos hseen]
        · rw [if_neg hseen, if_neg hseen]
          unfold nextOf
          rw [List.foldlM_filter]
          rfl

theorem mem_sources_of_nextOf {destination : String}
    (h : destination ∈ nextOf aliases source) :
    destination ∈ aliases.map Alias.source :=
  destinationsOf_isSome.mp (List.mem_filter.mp h).2

theorem mem_sources_of_nextOf_ne_nil (h : nextOf aliases source ≠ []) :
    source ∈ aliases.map Alias.source := by
  by_contra hnot
  apply h
  have hnone : destinationsOf aliases source = none := by
    rw [← Option.not_isSome_iff_eq_none, destinationsOf_isSome]
    exact hnot
  unfold nextOf
  rw [hnone]
  rfl

/-- The search of the sources, as the library has it. -/
theorem search_nextOf (aliases : List Alias) :
    (∀ visited, DepthFirst.search (nextOf aliases) aliasCycle
        (aliases.length + 1) (aliases.map Alias.source) = .ok visited →
      ∀ s ∈ aliases.map Alias.source,
        Acc (fun b a => DepthFirst.Edge (nextOf aliases) a b) s)
    ∧ ∀ e, DepthFirst.search (nextOf aliases) aliasCycle
        (aliases.length + 1) (aliases.map Alias.source) = .error e →
      e = aliasCycle ∧ ∃ s, DepthFirst.OnCycle (nextOf aliases) s :=
  DepthFirst.search_spec (fun _ _ _ hb => mem_sources_of_nextOf hb) (by simp)

theorem checkCycles_eq :
    checkCycles aliases
      = (DepthFirst.search (nextOf aliases) aliasCycle (aliases.length + 1)
          (aliases.map Alias.source)).map fun _ => () := by
  unfold checkCycles DepthFirst.search
  have hvisit : visit aliases (aliases.length + 1) []
      = DepthFirst.visit (nextOf aliases) aliasCycle (aliases.length + 1) [] := by
    funext visited source
    exact visit_eq _ _ _ _
  rw [hvisit]
  cases (aliases.map Alias.source).foldlM
    (DepthFirst.visit (nextOf aliases) aliasCycle (aliases.length + 1) []) []
    with
  | error e => rfl
  | ok visited => rfl

/-- The search is refused exactly where there is a circle. -/
theorem checkCycles_error_iff
    (hdistinct : (aliases.map Alias.source).Nodup) :
    checkCycles aliases = .error aliasCycle ↔ Circular aliases := by
  have hsearch : DepthFirst.search (nextOf aliases) aliasCycle
      (aliases.length + 1) (aliases.map Alias.source) = .error aliasCycle
      ↔ ∃ s, DepthFirst.OnCycle (nextOf aliases) s :=
    DepthFirst.search_error_iff (fun _ _ _ hb => mem_sources_of_nextOf hb)
      (fun _ hne => mem_sources_of_nextOf_ne_nil hne) (by simp)
  unfold DepthFirst.OnCycle at hsearch
  rw [edge_nextOf hdistinct] at hsearch
  rw [Circular, ← hsearch, checkCycles_eq]
  cases DepthFirst.search (nextOf aliases) aliasCycle (aliases.length + 1)
      (aliases.map Alias.source) with
  | error e => simp [Except.map]
  | ok visited => simp [Except.map]

/-- And it is refused for nothing else. -/
theorem checkCycles_ok_iff (hdistinct : (aliases.map Alias.source).Nodup) :
    checkCycles aliases = .ok () ↔ ¬Circular aliases := by
  rw [← checkCycles_error_iff hdistinct]
  cases hcheck : checkCycles aliases with
  | ok u => simp
  | error e =>
      have hcause : e = aliasCycle := by
        rw [checkCycles_eq] at hcheck
        have hspec := (search_nextOf aliases).2
        cases hsearch : DepthFirst.search (nextOf aliases) aliasCycle
            (aliases.length + 1) (aliases.map Alias.source) with
        | ok visited =>
            rw [hsearch] at hcheck
            cases hcheck
        | error e' =>
            rw [hsearch] at hcheck
            cases hcheck
            exact (hspec e hsearch).1
      rw [hcause]
      simp

-- ====== other checks

/-- A step that is never refused for a circle. -/
def Straight {α : Type} (x : Except Failure α) : Prop := x ≠ .error aliasCycle

theorem straight_ok {α : Type} (a : α) : Straight (.ok a) := nofun

variable {code message : String} {entries : List Alias}

theorem straight_ensure {condition : Bool}
    (hcode : code ≠ "mail_alias_cycle") :
    Straight (ensure (.template code message) condition) := by
  unfold ensure
  split
  · exact straight_ok ()
  · exact fun h => hcode (Failure.template.inj (Except.error.inj h)).1

theorem straight_demand {α : Type} {x : Option α}
    (hcode : code ≠ "mail_alias_cycle") :
    Straight (demand (.template code message) x) := by
  cases x with
  | some a => exact straight_ok a
  | none => exact fun h => hcode (Failure.template.inj (Except.error.inj h)).1

theorem Straight.bind {α β : Type} {x : Except Failure α}
    {f : α → Except Failure β} (hx : Straight x) (hf : ∀ a, Straight (f a)) :
    Straight (x >>= f) := by
  intro h
  rcases Result.bind_eq_error.mp h with h | ⟨a, -, h⟩
  · exact hx h
  · exact hf a h

theorem straight_normalizeDomain (hcode : code ≠ "mail_alias_cycle") :
    Straight (normalizeDomain net code value) := by
  unfold normalizeDomain
  split
  · exact straight_ok _
  · exact fun h => hcode (Failure.template.inj (Except.error.inj h)).1
  · exact fun h => hcode (Failure.template.inj (Except.error.inj h)).1

theorem straight_normalizeAddress :
    Straight (normalizeAddress net value) := by
  have hcode : "invalid_mailbox_address" ≠ "mail_alias_cycle" := by decide
  unfold normalizeAddress
  refine (straight_demand hcode).bind fun text => ?_
  refine (straight_ensure hcode).bind fun _ => ?_
  refine (straight_ensure hcode).bind fun _ => ?_
  refine (straight_normalizeDomain hcode).bind fun domain => ?_
  exact (straight_ensure hcode).bind fun _ => straight_ok _

theorem straight_normalizeDestinations {values : List Json}
    (done : List String) : Straight (normalizeDestinations net done values) := by
  induction values generalizing done with
  | nil => exact straight_ok done
  | cons value rest ih =>
      unfold normalizeDestinations
      exact straight_normalizeAddress.bind fun destination => ih _

theorem straight_readAlias (done : List Alias) (value : Json) :
    Straight (readAlias net managed done value) := by
  unfold readAlias
  refine (straight_demand (by decide)).bind fun fields => ?_
  refine straight_normalizeAddress.bind fun source => ?_
  refine (straight_ensure (by decide)).bind fun _ => ?_
  refine (straight_ensure (by decide)).bind fun _ => ?_
  refine (straight_demand (by decide)).bind fun values => ?_
  exact (straight_normalizeDestinations []).bind fun _ => straight_ok _

theorem straight_collect {α : Type} {read : List α → Json → Except Failure α}
    (hread : ∀ done value, Straight (read done value)) (done : List α)
    (values : List Json) : Straight (collect read done values) := by
  induction values generalizing done with
  | nil => exact straight_ok done
  | cons value rest ih =>
      unfold collect
      exact (hread done value).bind fun a => ih _

-- ====== the lists

theorem listed_iff :
    Listed net managed value entries
      ↔ ∃ values, value = .arr values ∧ values.length ≤ maxMailboxes
        ∧ collect (readAlias net managed) [] values = .ok entries := by
  simp only [collect_nil_eq_ok (readAlias_eq_ok managed)]
  constructor
  · rintro ⟨⟨values, hvalue, hlength, hentries⟩, hdistinct⟩
    exact ⟨values, hvalue, hlength, hentries, hdistinct⟩
  · rintro ⟨values, hvalue, hlength, hentries, hdistinct⟩
    exact ⟨⟨values, hvalue, hlength, hentries⟩, hdistinct⟩

/-- Sorted by source, the aliases forward as they did. -/
theorem circular_sorted :
    Circular (Text.sortOn Alias.source entries) ↔ Circular entries := by
  have hperm := Text.sortOn_perm Alias.source entries
  exact ⟨Circular.perm hperm, Circular.perm hperm.symm⟩

theorem nodup_sorted (h : (entries.map Alias.source).Nodup) :
    ((Text.sortOn Alias.source entries).map Alias.source).Nodup :=
  ((Text.sortOn_perm Alias.source entries).map Alias.source).nodup_iff.mpr h

/-- A list is refused for a circle where it is listed and has one. -/
theorem normalizeAliases_cycle_iff :
    normalizeAliases net managed value = .error aliasCycle
      ↔ ∃ entries, Listed net managed value entries ∧ Circular entries := by
  unfold normalizeAliases
  constructor
  · intro h
    rcases Result.bind_eq_error.mp h with h | ⟨values, hvalues, h⟩
    · exact absurd h (straight_demand (by decide))
    rcases Result.bind_eq_error.mp h with h | ⟨_, hlength, h⟩
    · exact absurd h (straight_ensure (by decide))
    rcases Result.bind_eq_error.mp h with h | ⟨entries, hentries, h⟩
    · exact absurd h (straight_collect straight_readAlias [] values)
    have hlisted : Listed net managed value entries :=
      listed_iff.mpr ⟨values, arr?_eq_some.mp (demand_eq_ok.mp hvalues),
        of_decide_eq_true (ensure_eq_ok.mp hlength), hentries⟩
    refine ⟨entries, hlisted, ?_⟩
    rcases Result.bind_eq_error.mp h with h | ⟨_, _, h⟩
    · exact circular_sorted.mp
        ((checkCycles_error_iff (nodup_sorted hlisted.distinct)).mp h)
    · cases h
  · rintro ⟨entries, hlisted, hcircular⟩
    obtain ⟨values, rfl, hlength, hentries⟩ := listed_iff.mp hlisted
    have hcycle := (checkCycles_error_iff (nodup_sorted hlisted.distinct)).mpr
      (circular_sorted.mpr hcircular)
    have hroom : ensure (.template "too_many_mail_aliases"
        "At most 10000 managed mail aliases are supported")
        (decide (values.length ≤ maxMailboxes)) = .ok () := by
      rw [ensure_eq_ok, decide_eq_true_eq]
      exact hlength
    show (ensure _ _ >>= _) = _
    rw [hroom, Result.ok_bind, hentries, Result.ok_bind]
    show (checkCycles _ >>= _) = _
    rw [hcycle]
    rfl

/-- A list is accepted where it is listed and has no circle. -/
theorem normalizeAliases_ok_iff {r : List Alias} :
    normalizeAliases net managed value = .ok r
      ↔ ∃ entries, Listed net managed value entries ∧ ¬Circular entries
        ∧ r = Text.sortOn Alias.source entries := by
  rw [normalizeAliases_eq_ok]
  constructor
  · rintro ⟨values, entries, rfl, hlength, hentries, hdistinct, rfl, hcheck⟩
    refine ⟨entries, ⟨⟨values, rfl, hlength, hentries⟩, hdistinct⟩, ?_, rfl⟩
    rw [checkCycles_ok_iff (nodup_sorted hdistinct), circular_sorted] at hcheck
    exact hcheck
  · rintro ⟨entries, ⟨⟨values, rfl, hlength, hentries⟩, hdistinct⟩, hcircular,
      rfl⟩
    refine ⟨values, entries, rfl, hlength, hentries, hdistinct, rfl, ?_⟩
    rw [checkCycles_ok_iff (nodup_sorted hdistinct), circular_sorted]
    exact hcircular

-- ====== destinations

/-- Where there is no circle, forwarding goes on for ever from nowhere. -/
theorem forwards_wellFounded (hdistinct : (aliases.map Alias.source).Nodup)
    (hcircular : ¬Circular aliases) :
    WellFounded fun destination source => Forwards aliases source destination := by
  have hsettled : ∀ s ∈ aliases.map Alias.source,
      Acc (fun d s => Leads aliases s d) s := by
    have hcheck := (checkCycles_ok_iff hdistinct).mpr hcircular
    rw [checkCycles_eq] at hcheck
    obtain ⟨visited, hsearch, -⟩ := Result.map_eq_ok.mp hcheck
    have hspec := (search_nextOf aliases).1 visited hsearch
    rwa [edge_nextOf hdistinct] at hspec
  -- only sources forward, so it is their graph that decides
  have hend : ∀ a, ¬IsSource aliases a →
      Acc (fun d s => Forwards aliases s d) a := by
    intro a hnot
    refine .intro a fun d hd => absurd ?_ hnot
    obtain ⟨entry, hentry, rfl, -⟩ := hd
    exact List.mem_map_of_mem hentry
  have hsource : ∀ a, Acc (fun d s => Leads aliases s d) a →
      Acc (fun d s => Forwards aliases s d) a := by
    intro a hacc
    induction hacc with
    | intro a _ ih =>
        refine .intro a fun d hd => ?_
        by_cases hlisted : IsSource aliases d
        · exact ih d ⟨hd, hlisted⟩
        · exact hend d hlisted
  refine ⟨fun a => ?_⟩
  by_cases hlisted : IsSource aliases a
  · exact hsource a (hsettled a hlisted)
  · exact hend a hlisted

/-- Mail ends up at finitely many addresses. -/
theorem final_finite (address : String) : (Final aliases address).Finite := by
  refine Set.Finite.subset
    (List.finite_toSet (address :: aliases.flatMap Alias.destinations)) ?_
  rintro destination ⟨hreach, -⟩
  rcases Relation.ReflTransGen.cases_tail hreach with rfl | ⟨s, -, hlast⟩
  · exact List.mem_cons_self
  · obtain ⟨entry, hentry, -, hmem⟩ := hlast
    exact List.mem_cons_of_mem _ (List.mem_flatMap.mpr ⟨entry, hentry, hmem⟩)

/-- Mail ends up somewhere. -/
theorem final_nonempty
    (hfull : ∀ entry ∈ aliases, entry.destinations ≠ [])
    (hends : WellFounded fun destination source =>
      Forwards aliases source destination) (address : String) :
    (Final aliases address).Nonempty := by
  induction address using hends.induction with
  | h address ih =>
      by_cases hlisted : IsSource aliases address
      · obtain ⟨entry, hentry, rfl⟩ := List.mem_map.mp hlisted
        obtain ⟨d, hd⟩ := List.exists_mem_of_ne_nil _ (hfull entry hentry)
        have hforwards : Forwards aliases entry.source d :=
          ⟨entry, hentry, rfl, hd⟩
        obtain ⟨last, hreach, hlast⟩ := ih d hforwards
        exact ⟨last, .head hforwards hreach, hlast⟩
      · exact ⟨address, .refl, hlisted⟩

/-- The search for circles ends on its own, a list is refused for a circle
exactly where it has one, and the mail to any address of an accepted list
ends up at some addresses, finitely many. -/
theorem aliases_settle (net : Net) (managed : List String) (value : Json) :
    (normalizeAliases net managed value = .error aliasCycle
      ↔ ∃ entries, Listed net managed value entries ∧ Circular entries)
    ∧ (∀ r, normalizeAliases net managed value = .ok r ↔
      ∃ entries, Listed net managed value entries ∧ ¬Circular entries
        ∧ r = Text.sortOn Alias.source entries)
    ∧ (∀ entries more, Listed net managed value entries →
      ∀ source ∈ entries.map Alias.source, ∀ visited,
        visit entries (entries.length + 1 + more) [] visited source
          = visit entries (entries.length + 1) [] visited source)
    ∧ ∀ r, normalizeAliases net managed value = .ok r →
      (WellFounded fun destination source => Forwards r source destination)
      ∧ ∀ address, (Final r address).Finite ∧ (Final r address).Nonempty := by
  refine ⟨normalizeAliases_cycle_iff, fun r => normalizeAliases_ok_iff, ?_, ?_⟩
  · intro entries more hlisted source hsource visited
    exact visit_fuel List.nodup_nil (by simp) hsource (by simp)
  · intro r hok
    obtain ⟨entries, hlisted, hcircular, rfl⟩ := normalizeAliases_ok_iff.mp hok
    have hends := forwards_wellFounded (nodup_sorted hlisted.distinct)
      (circular_sorted.not.mpr hcircular)
    refine ⟨hends, fun address => ⟨final_finite address, ?_⟩⟩
    refine final_nonempty (fun entry hentry => ?_) hends address
    obtain ⟨values, -, -, hentries⟩ := hlisted.values
    have hmem := (Text.sortOn_perm Alias.source entries).mem_iff.mp hentry
    obtain ⟨value, -, hof⟩ := Result.exists_of_forall₂ hentries hmem
    exact hof.sound.nonempty

end Yunpanel.Mail
