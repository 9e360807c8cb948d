/-
Addresses, domains and aliases of the mail state, each normalized on its
own.

A loop over values that refuses a name it met before takes a list exactly
where its entries can be read and their names are distinct
(`collect_eq_ok`), which does not depend on the order of the list.
-/
import Yunpanel.Mail.Templates
import Yunpanel.Domains.Proofs.Names

namespace Yunpanel.Mail

open Lib Json
open Domains (Net IsHostname)

variable {net : Net}

variable {e : Failure} {code domain : String} {value : Json}
  {managed : List String}

theorem ensure_eq_ok {condition : Bool} {u : Unit} :
    ensure e condition = .ok u ↔ condition = true := by
  cases condition <;> simp [ensure]

theorem demand_eq_ok {α : Type} {x : Option α} {a : α} :
    demand e x = .ok a ↔ x = some a := by
  cases x <;> simp [demand]

-- ====== loops

section Collecting

variable {α : Type} {read : List α → Json → Except Failure α}
  {key : α → String} {one : Json → α → Prop}

variable {r : List α}

/-- A loop that refuses a name it met before. -/
theorem collect_eq_ok (hread : ∀ done value a, read done value = .ok a ↔
      one value a ∧ key a ∉ done.map key) {done : List α}
    (hdone : (done.map key).Nodup) {values : List Json} :
    collect read done values = .ok r ↔
      ∃ as, List.Forall₂ one values as
        ∧ r = done ++ as ∧ (r.map key).Nodup := by
  induction values generalizing done with
  | nil =>
      show Except.ok done = .ok r ↔ _
      constructor
      · rintro h
        obtain rfl := Except.ok.inj h
        exact ⟨[], .nil, (List.append_nil done).symm, hdone⟩
      · rintro ⟨as, has, rfl, -⟩
        cases has
        rw [List.append_nil]
  | cons value rest ih =>
      show (read done value >>= fun a => collect read (done ++ [a]) rest)
        = .ok r ↔ _
      rw [Result.bind_eq_ok]
      have hnext : ∀ a, key a ∉ done.map key →
          ((done ++ [a]).map key).Nodup := by
        intro a ha
        rw [List.map_append, List.map_singleton, List.nodup_append']
        refine ⟨hdone, List.nodup_singleton _, ?_⟩
        rw [List.disjoint_singleton]
        exact ha
      constructor
      · rintro ⟨a, ha, h⟩
        obtain ⟨hone, hnew⟩ := (hread done value a).mp ha
        obtain ⟨as, has, rfl, hnodup⟩ := (ih (hnext a hnew)).mp h
        exact ⟨a :: as, .cons hone has, by simp, hnodup⟩
      · rintro ⟨as, has, rfl, hnodup⟩
        cases has with
        | @cons _ a _ as hone has =>
            have hnew : key a ∉ done.map key := by
              rw [List.map_append, List.nodup_append'] at hnodup
              exact fun hmem => hnodup.2.2 hmem List.mem_cons_self
            refine ⟨a, (hread done value a).mpr ⟨hone, hnew⟩, ?_⟩
            exact (ih (hnext a hnew)).mpr ⟨as, has, by simp, hnodup⟩

theorem collect_nil_eq_ok (hread : ∀ done value a, read done value = .ok a ↔
      one value a ∧ key a ∉ done.map key) {values : List Json} :
    collect read [] values = .ok r ↔
      List.Forall₂ one values r ∧ (r.map key).Nodup := by
  have hnil : (([] : List α).map key).Nodup := List.nodup_nil
  rw [collect_eq_ok hread hnil]
  constructor
  · rintro ⟨as, has, rfl, hnodup⟩
    exact ⟨has, hnodup⟩
  · rintro ⟨hr, hnodup⟩
    exact ⟨r, hr, rfl, hnodup⟩

end Collecting

-- ====== domains

theorem normalizeDomain_eq_ok :
    normalizeDomain net code value = .ok domain ↔
      Domains.assertDomainName net (value.str?.getD "") = .ok domain := by
  unfold normalizeDomain Domains.normalizeDomains
  cases hassert : Domains.assertDomainName net (value.str?.getD "") with
  | error e => cases e <;> simp
  | ok primary => simp [Domains.normalizeAliases]

theorem isHostname_of_normalizeDomain
    (h : normalizeDomain net code value = .ok domain) :
    IsHostname net domain :=
  Domains.isHostname_of_assert net (normalizeDomain_eq_ok.mp h)

theorem arr?_eq_some {values : List Json} :
    value.arr? = some values ↔ value = .arr values := by
  cases value <;> simp [Json.arr?]

-- ====== addresses

/-- What the normalizer of the addresses leaves. -/
structure Normal (net : Net) (a : Address) : Prop where
  hostname : IsHostname net a.domain
  split : ∃ name, isLocalPart name = true
    ∧ Text.includes name ['.', '.'] = false
    ∧ a.address.toList = name ++ '@' :: a.domain.toList
  length : Text.length a.address ≤ 254

theorem normal_of_normalize {a : Address}
    (h : normalizeAddress net value = .ok a) : Normal net a := by
  unfold normalizeAddress at h
  obtain ⟨text, -, h⟩ := Result.bind_eq_ok.mp h
  obtain ⟨_, -, h⟩ := Result.bind_eq_ok.mp h
  obtain ⟨_, hlocal, h⟩ := Result.bind_eq_ok.mp h
  obtain ⟨domain, hdomain, h⟩ := Result.bind_eq_ok.mp h
  obtain ⟨_, hlength, h⟩ := Result.bind_eq_ok.mp h
  obtain rfl := Except.ok.inj h
  rw [ensure_eq_ok, Bool.and_eq_true, Bool.not_eq_true'] at hlocal
  rw [ensure_eq_ok, decide_eq_true_eq] at hlength
  refine ⟨isHostname_of_normalizeDomain hdomain, ?_, hlength⟩
  exact ⟨_, hlocal.1, hlocal.2, String.toList_ofList⟩

-- ====== aliases

/-- The destinations of an alias: what each of them is normalized to, each
address once. -/
theorem normalizeDestinations_spec {done r : List String}
    {values : List Json} (h : normalizeDestinations net done values = .ok r)
    (hdone : done.Nodup) :
    ∃ addresses, List.Forall₂ (fun value a =>
        normalizeAddress net value = .ok a) values addresses
      ∧ r.Nodup ∧ ∀ x, x ∈ r ↔ x ∈ done ∨ x ∈ addresses.map Address.address := by
  induction values generalizing done with
  | nil =>
      obtain rfl := Except.ok.inj h
      exact ⟨[], .nil, hdone, by simp⟩
  | cons value rest ih =>
      rw [normalizeDestinations] at h
      obtain ⟨a, ha, h⟩ := Result.bind_eq_ok.mp h
      by_cases hmem : a.address ∈ done
      · rw [if_pos (List.contains_iff_mem.mpr hmem)] at h
        obtain ⟨as, has, hnodup, hall⟩ := ih h hdone
        refine ⟨a :: as, .cons ha has, hnodup, fun x => ?_⟩
        rw [hall, List.map_cons, List.mem_cons]
        constructor
        · rintro (hx | hx)
          · exact .inl hx
          · exact .inr (.inr hx)
        · rintro (hx | rfl | hx)
          · exact .inl hx
          · exact .inl hmem
          · exact .inr hx
      · rw [if_neg (by rw [List.contains_iff_mem]; exact hmem)] at h
        have hnext : (done ++ [a.address]).Nodup := by
          rw [List.nodup_append']
          refine ⟨hdone, List.nodup_singleton _, ?_⟩
          rw [List.disjoint_singleton]
          exact hmem
        obtain ⟨as, has, hnodup, hall⟩ := ih h hnext
        refine ⟨a :: as, .cons ha has, hnodup, fun x => ?_⟩
        rw [hall, List.mem_append, List.mem_singleton, List.map_cons,
          List.mem_cons, or_assoc]

/-- One alias on its own. -/
structure AliasOf (net : Net) (managed : List String) (value : Json)
    (entry : Alias) : Prop where
  intro ::
  exists_ : ∃ fields source values destinations,
    Json.exactObject ["source", "destinations"] value = some fields
      ∧ normalizeAddress net (Fields.get fields "source") = .ok source
      ∧ source.domain ∈ managed
      ∧ Fields.get fields "destinations" = .arr values
      ∧ 1 ≤ values.length ∧ values.length ≤ maxAliasDestinations
      ∧ normalizeDestinations net [] values = .ok destinations
      ∧ entry = { source := source.address,
                  destinations := Text.sort destinations }

theorem readAlias_eq_ok (managed : List String) (done : List Alias)
    (value : Json) (entry : Alias) :
    readAlias net managed done value = .ok entry ↔
      AliasOf net managed value entry
        ∧ entry.source ∉ done.map Alias.source := by
  unfold readAlias
  simp only [Result.bind_eq_ok, demand_eq_ok, ensure_eq_ok,
    Option.filter_eq_some_iff, arr?_eq_some, decide_eq_true_eq,
    Bool.not_eq_true', ← Bool.not_eq_true, List.contains_iff_mem]
  constructor
  · rintro ⟨fields, hfields, source, hsource, _, hmanaged, _, hnew, values,
      ⟨hvalues, hlo, hhi⟩, destinations, hdestinations, h⟩
    obtain rfl := Except.ok.inj h
    exact ⟨⟨fields, source, values, destinations, hfields, hsource, hmanaged,
      hvalues, hlo, hhi, hdestinations, rfl⟩, hnew⟩
  · rintro ⟨⟨fields, source, values, destinations, hfields, hsource,
      hmanaged, hvalues, hlo, hhi, hdestinations, rfl⟩, hnew⟩
    exact ⟨fields, hfields, source, hsource, (), hmanaged, (), hnew, values,
      ⟨hvalues, hlo, hhi⟩, destinations, hdestinations, rfl⟩

theorem normalizeAliases_eq_ok {aliases : Json} {r : List Alias} :
    normalizeAliases net managed aliases = .ok r ↔
      ∃ values entries, aliases = .arr values
        ∧ values.length ≤ maxMailboxes
        ∧ List.Forall₂ (AliasOf net managed) values entries
        ∧ (entries.map Alias.source).Nodup
        ∧ r = Text.sortOn Alias.source entries ∧ checkCycles r = .ok () := by
  unfold normalizeAliases
  simp only [Result.bind_eq_ok, demand_eq_ok, ensure_eq_ok,
    decide_eq_true_eq, arr?_eq_some,
    collect_nil_eq_ok (readAlias_eq_ok managed)]
  constructor
  · rintro ⟨values, rfl, _, hlength, entries, ⟨hentries, hnodup⟩, _, hcycles,
      h⟩
    obtain rfl := Except.ok.inj h
    exact ⟨values, entries, rfl, hlength, hentries, hnodup, rfl, hcycles⟩
  · rintro ⟨values, entries, rfl, hlength, hentries, hnodup, rfl, hcycles⟩
    exact ⟨values, rfl, (), hlength, entries, ⟨hentries, hnodup⟩, (),
      hcycles, rfl⟩

/-- What an alias is made of. -/
structure SoundAlias (net : Net) (managed : List String) (entry : Alias) :
    Prop where
  source : ∃ a, Normal net a ∧ a.address = entry.source ∧ a.domain ∈ managed
  nonempty : entry.destinations ≠ []
  destination : ∀ d ∈ entry.destinations, ∃ a, Normal net a ∧ a.address = d

theorem AliasOf.sound {entry : Alias} (h : AliasOf net managed value entry) :
    SoundAlias net managed entry := by
  obtain ⟨fields, source, values, destinations, -, hsource, hmanaged, -, hlo,
    -, hdestinations, rfl⟩ := h
  obtain ⟨addresses, haddresses, -, hall⟩ :=
    normalizeDestinations_spec hdestinations List.nodup_nil
  have hperm := Text.sort_perm destinations
  refine ⟨⟨source, normal_of_normalize hsource, rfl, hmanaged⟩, ?_, ?_⟩
  · intro hnil
    have hempty : destinations = [] := by
      rw [show Text.sort destinations = [] from hnil] at hperm
      exact hperm.nil_eq.symm
    have hlength := haddresses.length_eq
    cases addresses with
    | nil =>
        rw [List.length_nil] at hlength
        omega
    | cons a as =>
        have hmem := (hall a.address).mpr (.inr (by simp))
        rw [hempty] at hmem
        cases hmem
  · intro d hd
    rcases (hall d).mp (hperm.mem_iff.mp hd) with hmem | hmem
    · cases hmem
    · obtain ⟨a, ha, rfl⟩ := List.mem_map.mp hmem
      obtain ⟨value, -, hvalue⟩ := Result.exists_of_forall₂ haddresses ha
      exact ⟨a, normal_of_normalize hvalue, rfl⟩

end Yunpanel.Mail
