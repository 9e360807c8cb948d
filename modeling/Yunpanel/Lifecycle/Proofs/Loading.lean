/-
What the loader asks of zones and mail domains.

`Tracked` is what holds of the resources whatever is called: their fields
agree with each other and their identities are distinct. What the loader
asks besides is in `Loads`: a revision that is still a safe integer, and a
domain of the same name for each resource that names one.
`start_eq_ok` says that these two are all of it.
-/
import Yunpanel.Domains.Proofs.Storable
import Yunpanel.Lifecycle.Registry

namespace Yunpanel.Lifecycle

open Lib Lib.Result
open Domains (Net Platform Domain IsHostname)

variable {net : Net} {type : ResourceType}

-- ====== one record

/-- The fields of a resource agree with each other. -/
structure Coherent (net : Net) (type : ResourceType) (r : Resource) :
    Prop where
  mode : type.supports r.managementMode = true
  status : r.status ∈ r.managementMode.statuses
  positive : 1 ≤ r.revision
  observed : r.managementMode = .external →
    (r.status = .unverified ↔ r.lastObservedAt = none)
  unobserved : r.managementMode = .onHost → r.lastObservedAt = none
  name : IsHostname net r.name
  code : r.status = .degraded ↔ r.lastErrorCode.isSome = true

variable {name : String} {status : Status} {code : Option ErrorCode}
  {domains : List Domain} {rs : List Resource}

theorem canonicalName_eq_ok {value : String}
    (h : canonicalName net type value = .ok name) : IsHostname net name := by
  unfold canonicalName at h
  split at h
  · rename_i names hnames
    obtain rfl := Except.ok.inj h
    exact (Domains.isHostname_of_normalizeDomains net hnames).1
  · cases h

theorem canonicalName_of_isHostname (h : IsHostname net name) :
    canonicalName net type name = .ok name := by
  unfold canonicalName
  rw [Domains.normalizeDomains_of_isHostname net h]

/-- A code that passes its check is there exactly where the status is
`degraded`. -/
theorem errorCode_eq_ok {value : Json}
    (h : errorCode type status value = .ok code) :
    status = .degraded ↔ code.isSome = true := by
  unfold errorCode at h
  by_cases hstatus : status = .degraded
  · rw [if_pos hstatus] at h
    obtain ⟨found, -, rfl⟩ := map_eq_ok.mp h
    simp [hstatus]
  · rw [if_neg hstatus] at h
    split at h
    · obtain rfl := Except.ok.inj h
      simp [hstatus]
    · cases h

theorem errorCode_stored (h : status = .degraded ↔ code.isSome = true) :
    errorCode type status (Json.ofOption Matching.json code) = .ok code := by
  unfold errorCode
  cases code with
  | none =>
      have hstatus : status ≠ .degraded := by simpa using h
      rw [if_neg hstatus]
      exact if_pos rfl
  | some code =>
      have hstatus : status = .degraded := by simpa using h
      rw [if_pos hstatus]
      show some <$> demand _ (Matching.read? (Matching.json code)) = _
      rw [Matching.read?_json]
      rfl

/-- A record whose fields agree is taken as it is, while its revision is
safe. -/
theorem validatePersisted_eq_ok {r r' : Resource}
    (h : Coherent net type r) :
    validatePersisted net type r = .ok r' ↔
      r' = r ∧ r.revision ≤ maxSafeInteger := by
  have hobserved : (r.managementMode != .external
      || (r.status == .unverified) == r.lastObservedAt.isNone) = true := by
    cases hmode : r.managementMode with
    | onHost => rfl
    | external =>
        have hiff := h.observed hmode
        cases hat : r.lastObservedAt with
        | none => simp [hiff.mpr hat]
        | some at_ =>
            have hne : r.status ≠ .unverified := by
              intro he
              rw [hiff.mp he] at hat
              cases hat
            simp [hne]
  have hunobserved : (r.managementMode != .onHost
      || r.lastObservedAt.isNone) = true := by
    cases hmode : r.managementMode with
    | external => rfl
    | onHost => simp [h.unobserved hmode]
  unfold validatePersisted
  simp only [bind_eq_ok, exists_unit, ensure_eq_ok, h.mode, hobserved,
    hunobserved, canonicalName_of_isHostname h.name,
    errorCode_stored h.code, pure_eq, Except.ok.injEq, true_and,
    exists_eq_left', Bool.and_eq_true, List.contains_eq_mem,
    decide_eq_true_eq, h.status, h.positive]
  constructor
  · rintro ⟨hmax, hr⟩
    exact ⟨hr.symm, hmax⟩
  · rintro ⟨hr, hmax⟩
    exact ⟨hmax, hr.symm⟩

-- ====== references

/-- The primary name of a domain, where it is there. -/
def primaryName (domains : List Domain) (id : String) : Option String :=
  (domains.find? fun d => d.id == id).map Domain.primaryDomain

/-- The domain a resource names bears its name. -/
def Refers (domains : List Domain) (r : Resource) : Prop :=
  ∀ id, r.webDomainId = some id → primaryName domains id.text = some r.name

theorem getDomain_eq (h : Domains.Sound net domains) (id : String) :
    Domains.getDomain net id domains
      = .ok ((domains.find? fun d => d.id == id).map
          Domains.publicDomain) := by
  unfold Domains.getDomain
  cases hfound : domains.find? fun d => d.id == id with
  | none => rfl
  | some d =>
      have hd := h.storable d (List.mem_of_find?_eq_some hfound)
      have hcheck := Domains.checkDomain_of_storable hd
      show (some ∘ Domains.publicDomain) <$> Domains.hydrateDomain net 4 d = _
      rw [Domains.hydrateDomain_iff.mpr ⟨rfl, hcheck⟩]
      rfl

theorem validateReference_eq_ok (h : Domains.Sound net domains)
    {persisted : Bool} {reference : Option WebDomainId} :
    validateReference net type domains name persisted reference = .ok () ↔
      ∀ id, reference = some id → primaryName domains id.text = some name := by
  cases reference with
  | none => simp [validateReference]
  | some id =>
      simp only [validateReference, getDomain_eq h, Option.some.injEq,
        forall_eq', primaryName]
      cases domains.find? fun d => d.id == id.text with
      | none => simp
      | some d => simp [Domains.publicDomain]

-- ====== loading

/-- The identities of the resources are distinct, and the fields of each
agree. -/
structure Tracked (net : Net) (type : ResourceType) (rs : List Resource) :
    Prop where
  coherent : ∀ r ∈ rs, Coherent net type r
  ids : (rs.map Resource.id).Nodup
  names : (rs.map Resource.name).Nodup
  references : (rs.filterMap Resource.webDomainId).Nodup

/-- What the loader asks of a resource besides. -/
structure Loads (domains : List Domain) (r : Resource) : Prop where
  safe : r.revision ≤ maxSafeInteger
  refers : Refers domains r

/-- What the loop of `init` asks, of resources met after others. -/
theorem initFrom_eq_ok (h : Domains.Sound net domains) {ids : List Uuid}
    {names : List String} {references : List WebDomainId} :
    initFrom net type domains ids names references rs = .ok () ↔
      (∀ r ∈ rs, Refers domains r)
        ∧ ((rs.map Resource.id).Nodup ∧ ∀ r ∈ rs, r.id ∉ ids)
        ∧ ((rs.map Resource.name).Nodup ∧ ∀ r ∈ rs, r.name ∉ names)
        ∧ (rs.filterMap Resource.webDomainId).Nodup
        ∧ ∀ id ∈ rs.filterMap Resource.webDomainId, id ∉ references := by
  induction rs generalizing ids names references with
  | nil => simp [initFrom]
  | cons r rest ih =>
      have hrefers : validateReference net type domains r.name true
          r.webDomainId = .ok () ↔ Refers domains r :=
        validateReference_eq_ok h
      simp only [initFrom, bind_eq_ok, exists_unit, ensure_eq_ok, hrefers, ih,
        Bool.and_eq_true, Bool.not_eq_true', List.contains_eq_mem,
        decide_eq_false_iff_not, List.map_cons, List.nodup_cons]
      rw [List.forall_mem_cons, List.forall_mem_cons, List.forall_mem_cons]
      simp only [List.mem_cons, not_or, List.mem_map, not_exists, not_and,
        forall_and]
      cases hid : r.webDomainId with
      | none =>
          rw [List.filterMap_cons_none hid]
          simp only [Option.any_none, Option.toList_none, List.nil_append]
          tauto
      | some id =>
          rw [List.filterMap_cons_some hid, List.nodup_cons,
            List.forall_mem_cons]
          simp only [Option.any_some, Option.toList_some, List.cons_append,
            List.nil_append, List.mem_cons, not_or, forall_and,
            List.contains_eq_mem, decide_eq_false_iff_not]
          have hswap : (∀ x ∈ rest.filterMap Resource.webDomainId, x ≠ id)
              ↔ id ∉ rest.filterMap Resource.webDomainId :=
            ⟨fun hall hmem => hall id hmem rfl,
              fun hnot x hx he => hnot (he ▸ hx)⟩
          rw [hswap]
          tauto

theorem init_eq_ok (h : Domains.Sound net domains) {rs' : List Resource}
    (hrs : Tracked net type rs) :
    init net type domains rs = .ok rs' ↔
      rs' = rs ∧ ∀ r ∈ rs, Loads domains r := by
  have hvalid : ∀ as, rs.mapM (validatePersisted net type) = .ok as ↔
      as = rs ∧ ∀ r ∈ rs, r.revision ≤ maxSafeInteger := by
    intro as
    rw [mapM_eq_ok_of_mem fun r hr r' hok =>
      ((validatePersisted_eq_ok (hrs.coherent r hr)).mp hok).1]
    refine and_congr_right fun _ => forall₂_congr fun r hr => ?_
    rw [validatePersisted_eq_ok (hrs.coherent r hr)]
    simp
  unfold init
  simp only [bind_eq_ok, exists_unit, hvalid, initFrom_eq_ok h, pure_eq,
    Except.ok.injEq, List.not_mem_nil, not_false_eq_true, implies_true,
    and_true]
  constructor
  · rintro ⟨as, ⟨rfl, hsafe⟩, ⟨hrefers, -⟩, rfl⟩
    exact ⟨rfl, fun r hr => ⟨hsafe r hr, hrefers r hr⟩⟩
  · rintro ⟨rfl, hloads⟩
    exact ⟨rs', ⟨rfl, fun r hr => (hloads r hr).safe⟩,
      ⟨fun r hr => (hloads r hr).refers, hrs.ids, hrs.names,
        hrs.references⟩, rfl⟩

-- ====== control

/-- What holds of the three registries whatever is called. -/
structure Kept (net : Net) (s : Control) : Prop where
  domains : Domains.Sound net s.domains
  tracked : ∀ type, Tracked net type (s.resources type)

/-- And what the loaders ask besides. -/
def Startable (s : Control) : Prop :=
  ∀ type, ∀ r ∈ s.resources type, Loads s.domains r

theorem start_eq_ok {platform : Platform} {s : Control}
    (h : Kept platform.toNet s) :
    s.start platform = .ok () ↔ Startable s := by
  have hzones : ∀ rs, init platform.toNet .dnsZone s.domains s.dnsZones
      = .ok rs ↔ rs = s.dnsZones ∧ ∀ r ∈ s.dnsZones, Loads s.domains r :=
    fun rs => init_eq_ok h.domains (h.tracked .dnsZone)
  have hmails : ∀ rs, init platform.toNet .mailDomain s.domains s.mailDomains
      = .ok rs ↔
        rs = s.mailDomains ∧ ∀ r ∈ s.mailDomains, Loads s.domains r :=
    fun rs => init_eq_ok h.domains (h.tracked .mailDomain)
  unfold Control.start
  simp only [bind_eq_ok, hzones, hmails, pure_eq]
  constructor
  · rintro ⟨-, ⟨-, hzones⟩, -, ⟨-, hmails⟩, -⟩ type
    cases type with
    | dnsZone => exact hzones
    | mailDomain => exact hmails
  · intro hall
    exact ⟨_, ⟨rfl, hall .dnsZone⟩, _, ⟨rfl, hall .mailDomain⟩, trivial⟩

end Yunpanel.Lifecycle
