/-
What each call of the registry can do to the domains.

# One record

`Touch d d'` lists the ways a call turns one record into another while its
place in the hierarchy and its names stay: each with what the call has
checked by then. One inversion per call shows that its record is touched.

# The list

`Change` adds what goes beyond that: an update of the routing, a new
parent, a new domain, a removal. `change_of_written` reads off every call
which of these it makes; the invariants are proved from `Change` alone.
-/
import Yunpanel.Domains.Proofs.Hierarchy
import Yunpanel.Domains.Proofs.Names
import Yunpanel.Domains.Registry

namespace Yunpanel.Domains

open Lib

-- ====== one record

/-- A record-level change and what was checked before it. -/
inductive Touch (d : Domain) : Domain → Prop where
  | staged {checksum configName now} (hstate : d.state ≠ .suspended)
      (hsum : isSha256 checksum = true) :
      Touch d (d.staged checksum configName now)
  | applied {now} (hstate : d.state ≠ .suspended)
      (hstaged : d.stagedRevision = d.desiredRevision) :
      Touch d (d.applied now)
  | failed {code now} (hstate : d.state ≠ .suspended)
      (hcode : isErrorCode code = true) : Touch d (d.failed code now)
  | suspended {evidence now} (hstate : d.state = .active)
      (hsum : isSha256 evidence.checksum = true)
      (hid : isOperationId evidence.operationId = true)
      (hserves : d.servesExactly evidence.expectedRevision
        evidence.checksum = true) :
      Touch d (d.suspended evidence now)
  | resumed {evidence now} (hid : isOperationId evidence.operationId = true)
      (hstate : d.suspendedOn evidence = true) :
      Touch d (d.resumed evidence now)
  | bound {id now} (hnew : d.websiteId = none)
      (hid : assertUuid id = some id) : Touch d (d.bound (some id) now)
  | unbound {now} (hold : d.websiteId ≠ none) : Touch d (d.bound none now)
  | decertified {now} (hold : d.certificateId ≠ none) :
      Touch d (d.certified none now)
  | recertified {id now} (hstate : d.state ≠ .suspended)
      (hnew : d.certificateId ≠ some id) :
      Touch d ((d.certified (some id) now).redrafted
        (d.desiredRevision + 1) now)
  | activated {checksum configName now} (hsum : isSha256 checksum = true)
      (hpristine : d.pristine = true) :
      Touch d (d.activated checksum configName now)
  | reset {revision checksum configName now}
      (hrevision : d.desiredRevision = revision)
      (hactive : d.activeOn revision checksum configName = true) :
      Touch d (d.reset now)

theorem isErrorCode_fallback (code : String) :
    isErrorCode (if isErrorCode code then code else "apply_failed")
      = true := by
  split
  · assumption
  · decide

/-- Websites are told apart by normalized ids. -/
theorem normalizeWebsiteId_eq_some {value : Option String} {id : String}
    (h : normalizeWebsiteId value = .ok (some id)) :
    assertUuid id = some id := by
  unfold normalizeWebsiteId at h
  split at h
  · cases h
  · rename_i text
    split at h
    · rename_i found hfound
      obtain rfl := Option.some.inj (Except.ok.inj h)
      exact assertUuid_stable hfound
    · cases h

theorem requireWebsiteBinding_eq_some {env : Env} {value : Option String}
    {serverId id : String}
    (h : requireWebsiteBinding env value serverId = .ok (some id)) :
    assertUuid id = some id := by
  obtain ⟨normalized, hnormal, h⟩ := Result.bind_eq_ok.mp h
  cases normalized with
  | none => cases h
  | some found =>
      dsimp only at h
      split at h
      · cases h
      · split at h
        · cases h
        · split at h
          · cases h
          · obtain rfl := Option.some.inj (Except.ok.inj h)
            exact normalizeWebsiteId_eq_some hnormal

variable {net : Net} {domains : List Domain}
  {r : List Domain → Except Failure Reply} {platform : Platform}
  {domainId digest confirmation : String}

/-- At the current version the loader takes a record as it is. -/
theorem hydrateDomain_eq_ok {d d' : Domain}
    (h : hydrateDomain net 4 d = .ok d') :
    d' = d ∧ checkDomain net d = .ok () := by
  obtain ⟨u, hu, h⟩ := Result.bind_eq_ok.mp h
  obtain ⟨⟨⟩, hcheck, h⟩ := Result.bind_eq_ok.mp h
  obtain rfl : d = u := Except.ok.inj hu
  exact ⟨(Except.ok.inj h).symm, hcheck⟩

theorem next_of_change {d next : Domain} {reply : Domain → Reply}
    (h : change d = .ok (.changed next reply)) : next = d := by
  cases h
  rfl

/-- What a staging has checked, and what it makes of the record. -/
theorem markStaged_spec {checksum configName : String} {now : Instant}
    {d next : Domain} {reply : Domain → Reply}
    (h : markStaged checksum configName now d
      = .ok (.changed next reply)) :
    d.state ≠ .suspended ∧ isSha256 checksum = true
      ∧ next = d.staged checksum configName now := by
  rw [markStaged, Result.guard_eq_ok, Result.guard_eq_ok,
    Result.guard_eq_ok] at h
  obtain ⟨hstate, hsum, -, h⟩ := h
  exact ⟨hstate, by simpa using hsum, next_of_change h⟩

theorem markStaged_touch {checksum configName : String} {now : Instant}
    {d next : Domain} {reply : Domain → Reply}
    (h : markStaged checksum configName now d
      = .ok (.changed next reply)) : Touch d next := by
  obtain ⟨hstate, hsum, rfl⟩ := markStaged_spec h
  exact .staged hstate hsum

theorem markApplied_spec {checksum : String} {now : Instant}
    {d next : Domain} {reply : Domain → Reply}
    (h : markApplied checksum now d = .ok (.changed next reply)) :
    d.state ≠ .suspended ∧ d.stagedRevision = d.desiredRevision
      ∧ d.stagedChecksum = some checksum ∧ next = d.applied now := by
  rw [markApplied, Result.guard_eq_ok, Result.guard_eq_ok,
    Result.guard_eq_ok] at h
  obtain ⟨hstate, hstaged, hsum, h⟩ := h
  rw [not_or, not_not] at hstaged
  exact ⟨hstate, hstaged.1, (not_not.mp hsum).symm, next_of_change h⟩

theorem markApplied_touch {checksum : String} {now : Instant}
    {d next : Domain} {reply : Domain → Reply}
    (h : markApplied checksum now d = .ok (.changed next reply)) :
    Touch d next := by
  obtain ⟨hstate, hstaged, -, rfl⟩ := markApplied_spec h
  exact .applied hstate hstaged

theorem markFailed_spec {code : String} {now : Instant}
    {d next : Domain} {reply : Domain → Reply}
    (h : markFailed code now d = .ok (.changed next reply)) :
    d.state ≠ .suspended ∧ next
      = d.failed (if isErrorCode code then code else "apply_failed") now := by
  rw [markFailed, Result.guard_eq_ok] at h
  exact ⟨h.1, next_of_change h.2⟩

theorem markFailed_touch {code : String} {now : Instant}
    {d next : Domain} {reply : Domain → Reply}
    (h : markFailed code now d = .ok (.changed next reply)) :
    Touch d next := by
  obtain ⟨hstate, rfl⟩ := markFailed_spec h
  exact .failed hstate (isErrorCode_fallback code)

variable {value : String} {websiteId : Option String}
  {turn : Domain → Except Failure Verdict} {rule : ProvisionRule}
  {targets : List ProvisionTarget} {preview : UpdatePreview} {e : Failure}
  {c : Call}

theorem suspensionChecksum_eq_ok {checksum : String}
    (h : suspensionChecksum value = .ok checksum) :
    checksum = value ∧ isSha256 value = true := by
  unfold suspensionChecksum at h
  split at h
  · rename_i hsum
    exact ⟨(Except.ok.inj h).symm, hsum⟩
  · cases h

theorem suspensionOperationId_eq_ok {id : String}
    (h : suspensionOperationId value = .ok id) :
    id = value ∧ isOperationId value = true := by
  unfold suspensionOperationId at h
  split at h
  · rename_i hid
    exact ⟨(Except.ok.inj h).symm, hid⟩
  · cases h

theorem markSuspended_turn {evidence : Evidence} {now : Instant}
    {d next : Domain} {reply : Domain → Reply}
    (h : markSuspended evidence now d = .ok (.changed next reply)) :
    Touch d next ∧ next ≠ d := by
  unfold markSuspended at h
  obtain ⟨checksum, hsum, h⟩ := Result.bind_eq_ok.mp h
  obtain ⟨operationId, hid, h⟩ := Result.bind_eq_ok.mp h
  split at h
  · split at h <;> cases h
  · split at h
    · cases h
    · rename_i hactive
      obtain ⟨⟨⟩, hassert, h⟩ := Result.bind_eq_ok.mp h
      obtain rfl := next_of_change h
      rw [assertSuspendable, Result.guard_eq_ok] at hassert
      have hserves := hassert.1
      simp only [Bool.or_eq_true, Bool.not_eq_true', not_or,
        Bool.not_eq_false] at hserves
      have hstate := not_not.mp hactive
      refine ⟨.suspended hstate (suspensionChecksum_eq_ok hsum).2
        (suspensionOperationId_eq_ok hid).2 hserves.2, ?_⟩
      apply ne_of_apply_ne Domain.state
      rw [hstate]
      show DomainState.suspended ≠ .active
      decide

theorem suspendedOn_state {d : Domain} {evidence : Evidence}
    (h : d.suspendedOn evidence = true) : d.state = .suspended := by
  simp only [Domain.suspendedOn, Bool.and_eq_true, beq_iff_eq] at h
  exact h.1.1.1

theorem markResumed_turn {evidence : Evidence} {now : Instant}
    {d next : Domain} {reply : Domain → Reply}
    (h : markResumed evidence now d = .ok (.changed next reply)) :
    Touch d next ∧ next ≠ d := by
  unfold markResumed at h
  obtain ⟨checksum, -, h⟩ := Result.bind_eq_ok.mp h
  obtain ⟨operationId, hid, h⟩ := Result.bind_eq_ok.mp h
  split at h
  · cases h
  · split at h
    · cases h
    · rename_i hsuspended
      obtain rfl := next_of_change h
      have hsuspended' : d.suspendedOn evidence = true := by
        simpa using hsuspended
      refine ⟨.resumed (suspensionOperationId_eq_ok hid).2 hsuspended', ?_⟩
      apply ne_of_apply_ne Domain.state
      rw [suspendedOn_state hsuspended']
      show DomainState.active ≠ .suspended
      decide

theorem bindWebsite_turn {env : Env} {d next : Domain}
    {reply : Domain → Reply}
    (h : bindWebsite net env websiteId d = .ok (.changed next reply)) :
    Touch d next ∧ next ≠ d := by
  unfold bindWebsite at h
  rw [Result.bind_eq_ok] at h
  obtain ⟨d', hd, h⟩ := h
  obtain ⟨rfl, -⟩ := hydrateDomain_eq_ok hd
  obtain ⟨found, hfound, h⟩ := Result.bind_eq_ok.mp h
  cases found with
  | none => cases h
  | some id =>
      dsimp only at h
      split at h
      · cases h
      · split at h
        · cases h
        · rename_i hnone
          obtain rfl := next_of_change h
          have hnew := not_not.mp hnone
          refine ⟨.bound hnew (requireWebsiteBinding_eq_some hfound), ?_⟩
          apply ne_of_apply_ne Domain.websiteId
          rw [hnew]
          exact Option.some_ne_none id

theorem turn_unbound {d : Domain} {now : Instant}
    (hold : d.websiteId ≠ none) :
    Touch d (d.bound none now) ∧ d.bound none now ≠ d :=
  ⟨.unbound hold, ne_of_apply_ne Domain.websiteId hold.symm⟩

theorem rollbackWebsiteBinding_turn {now : Instant} {d next : Domain}
    {reply : Domain → Reply} (h : rollbackWebsiteBinding net now websiteId d
      = .ok (.changed next reply)) : Touch d next ∧ next ≠ d := by
  unfold rollbackWebsiteBinding at h
  rw [Result.bind_eq_ok] at h
  obtain ⟨d', hd, h⟩ := h
  obtain ⟨rfl, -⟩ := hydrateDomain_eq_ok hd
  obtain ⟨found, -, h⟩ := Result.bind_eq_ok.mp h
  cases found with
  | none => cases h
  | some id =>
      dsimp only at h
      split at h
      · cases h
      · rename_i bound hbound
        split at h
        · cases h
        · obtain rfl := next_of_change h
          exact turn_unbound (by simp [hbound])

theorem detachWebsiteForRemoval_turn {expected : Option String}
    {evidence : Evidence} {now : Instant} {d next : Domain}
    {reply : Domain → Reply}
    (h : detachWebsiteForRemoval expected evidence now d
      = .ok (.changed next reply)) : Touch d next ∧ next ≠ d := by
  unfold detachWebsiteForRemoval at h
  obtain ⟨suspension, -, h⟩ := Result.bind_eq_ok.mp h
  obtain ⟨found, -, h⟩ := Result.bind_eq_ok.mp h
  cases found with
  | none => cases h
  | some id =>
      dsimp only at h
      split at h
      · cases h
      · rename_i bound hbound
        split at h
        · cases h
        · cases h
          exact turn_unbound (by simp [hbound])

theorem detachCertificateForRemoval_turn {expected : String}
    {evidence : Evidence} {now : Instant} {d next : Domain}
    {reply : Domain → Reply}
    (h : detachCertificateForRemoval expected evidence now d
      = .ok (.changed next reply)) : Touch d next ∧ next ≠ d := by
  unfold detachCertificateForRemoval at h
  obtain ⟨suspension, -, h⟩ := Result.bind_eq_ok.mp h
  dsimp only at h
  split at h
  · cases h
  · split at h
    · cases h
    · rename_i bound hbound
      split at h
      · cases h
      · cases h
        have hold : d.certificateId ≠ none := by simp [hbound]
        exact ⟨.decertified hold,
          ne_of_apply_ne Domain.certificateId hold.symm⟩

theorem attachCertificate_turn {id : String} {names : Option (List String)}
    {now : Instant} {d next : Domain} {reply : Domain → Reply}
    (h : attachCertificate net id names now d
      = .ok (.changed next reply)) : Touch d next ∧ next ≠ d := by
  unfold attachCertificate at h
  dsimp only at h
  split at h
  · cases h
  rename_i hstate
  split at h
  · cases h
  split at h
  · cases h
  have htail : (if d.certificateId = some id then answer d
      else change ((d.certified (some id) now).redrafted
        (d.desiredRevision + 1) now)) = .ok (.changed next reply) := by
    cases names with
    | none => exact h
    | some names =>
        obtain ⟨⟨⟩, -, h⟩ := Result.bind_eq_ok.mp h
        exact h
  split at htail
  · cases htail
  · rename_i hnew
    obtain rfl := next_of_change htail
    exact ⟨.recertified hstate hnew,
      ne_of_apply_ne Domain.certificateId (Ne.symm hnew)⟩

-- ====== the list

/-- Every record is as it was or touched. -/
def Touched (domains next : List Domain) : Prop :=
  List.Forall₂ (fun d d' => d' = d ∨ Touch d d') domains next

theorem Touched.refl (domains : List Domain) : Touched domains domains :=
  List.forall₂_same.mpr fun _ _ => .inl rfl

theorem Touched.set {i : Nat} {d d' : Domain} (hi : domains[i]? = some d)
    (h : Touch d d') :
    Touched domains (domains.set i d') := by
  induction domains generalizing i with
  | nil => cases hi
  | cons head rest ih =>
      cases i with
      | zero =>
          obtain rfl : head = d := by simpa using hi
          exact .cons (.inr h) (Touched.refl rest)
      | succ i => exact .cons (.inl rfl) (ih (by simpa using hi))

/-- What a call makes of the domains. -/
inductive Change (net : Net) (domains : List Domain) :
    List Domain → Prop where
  | touched {next} (h : Touched domains next) : Change net domains next
  | updated {i d changes routing now} (hi : domains[i]? = some d)
      (hstate : d.state ≠ .suspended)
      (hrouting : normalizedUpdate net d changes = .ok routing)
      (hrename : routing.hostnameChanged d = true →
        checkRename domains d routing = .ok ()) :
      Change net domains (domains.set i
        ((d.rerouted routing).redrafted (d.desiredRevision + 1) now))
  | reparented {i d parentDomainId now} (hi : domains[i]? = some d)
      (hparent : validateDomainParent domains
        { d.place with parentDomainId } = .ok ())
      (hnew : d.parentDomainId ≠ parentDomainId) :
      Change net domains (domains.set i (d.reparented parentDomainId now))
  | created {env req d} (hd : newDomain net env domains req = .ok d)
      (hnew : ∀ c ∈ domains, c.id ≠ d.id) :
      Change net domains (domains ++ [d])
  | removed {d} (hd : d ∈ domains)
      (hchildless : ∀ c ∈ domains, c.parentDomainId = some d.id →
        c.id = d.id) :
      Change net domains (domains.filter fun c => c.id != d.id)

theorem set_eq_self {i : Nat} {d d' : Domain} (hi : domains[i]? = some d) :
    domains.set i d' = domains ↔ d' = d := by
  constructor
  · intro h
    obtain ⟨hlt, -⟩ := List.getElem?_eq_some_iff.mp hi
    have hget : (domains.set i d')[i]? = some d' :=
      List.getElem?_set_self hlt
    rw [h, hi] at hget
    exact (Option.some.inj hget).symm
  · rintro rfl
    exact set_of_getElem? hi

theorem getElem?_of_requireDomain {id : String} {i : Nat} {d : Domain}
    (h : requireDomain domains id = .ok (i, d)) :
    domains[i]? = some d ∧ d.id = id := by
  unfold requireDomain at h
  split at h
  · rename_i found hfound
    obtain rfl := Except.ok.inj h
    have haccepted := accepted_of_locate hfound
    exact ⟨getElem?_of_locate hfound, beq_iff_eq.mp haccepted⟩
  · cases h

/-- The turn of one record: what was written is its change. -/
theorem onDomain_written {id : String} {next : List Domain}
    (h : onDomain id turn domains = .written next r) :
    ∃ i d d' reply, domains[i]? = some d ∧ d.id = id
      ∧ turn d = .ok (.changed d' reply) ∧ next = domains.set i d' := by
  unfold onDomain at h
  split at h
  · cases h
  · rename_i i d hfound
    obtain ⟨hi, hid⟩ := getElem?_of_requireDomain hfound
    split at h
    · cases h
    · cases h
    · rename_i d' reply hturn
      cases h
      exact ⟨i, d, d', reply, hi, hid, hturn, rfl⟩

theorem touched_of_onDomain {id : String}
    (hturn : ∀ {d d' reply}, turn d = .ok (.changed d' reply) → Touch d d')
    {next : List Domain} (h : onDomain id turn domains = .written next r) :
    Touched domains next := by
  obtain ⟨i, d, d', reply, hi, -, hd, rfl⟩ := onDomain_written h
  exact Touched.set hi (hturn hd)

/-- The same where the record is known to change. -/
theorem touched_of_turn {id : String}
    (hturn : ∀ {d d' reply}, turn d = .ok (.changed d' reply) →
      Touch d d' ∧ d' ≠ d) {next : List Domain}
    (h : onDomain id turn domains = .written next r) :
    Touched domains next :=
  touched_of_onDomain (fun hd => (hturn hd).1) h

-- ====== provisioning

/-- Where a target of a provisioning stands, and why it may be changed. -/
structure Ready (rule : ProvisionRule) (domains : List Domain)
    (t : ProvisionTarget) : Prop where
  at_index : domains[t.index]? = some t.domain
  ready : t.settled = false → ∃ entry : ProvisionedDomain,
    t.domain.desiredRevision = entry.expectedRevision
      ∧ rule.ready entry t.domain = true

theorem ready_of_provisionTargets {websiteId : String}
    {expected : List ProvisionedDomain}
    (h : provisionTargets rule websiteId domains expected = .ok targets) :
    ∀ t ∈ targets, Ready rule domains t := by
  induction expected generalizing targets with
  | nil =>
      obtain rfl := Except.ok.inj h
      intro t ht
      cases ht
  | cons entry rest ih =>
      obtain ⟨⟨i, d⟩, hfound, h⟩ := Result.bind_eq_ok.mp h
      dsimp only at h
      split at h
      · cases h
      rename_i hidentity
      split at h
      · cases h
      rename_i hstate
      obtain ⟨others, hothers, h⟩ := Result.bind_eq_ok.mp h
      obtain rfl := Except.ok.inj h
      intro t ht
      rcases List.mem_cons.mp ht with rfl | ht
      · refine ⟨(getElem?_of_requireDomain hfound).1, fun hsettled => ?_⟩
        have hsettled' : rule.settled entry d = false := hsettled
        rw [not_or, not_not, not_not] at hidentity
        refine ⟨entry, hidentity.2, ?_⟩
        simpa [hsettled'] using hstate
      · exact ih hothers t ht

/-- A record after a provisioning is the one before it, or a change of
it. -/
theorem touched_provision {now : Instant}
    (hready : ∀ t ∈ targets, Ready rule domains t)
    (hrule : ∀ (entry : ProvisionedDomain) d,
      d.desiredRevision = entry.expectedRevision →
      rule.ready entry d = true → Touch d (rule.changed now d))
    {so_far : List Domain} (hsofar : Touched domains so_far) :
    Touched domains (provision rule now targets so_far) := by
  induction targets generalizing so_far with
  | nil => exact hsofar
  | cons t rest ih =>
      obtain ⟨ht, hrest⟩ := List.forall_mem_cons.mp hready
      apply ih hrest
      cases hsettled : t.settled with
      | true => exact hsofar
      | false =>
          obtain ⟨entry, hrevision, hchange⟩ := ht.ready hsettled
          have htouch := hrule entry t.domain hrevision hchange
          have hat := ht.at_index
          revert hat
          generalize t.index = i
          -- the record stands in the old list; the new one is written over
          -- whatever became of it so far
          clear hready ih hrest hsettled ht
          intro hat
          induction hsofar generalizing i with
          | nil => cases hat
          | cons hhead htail ihtail =>
              cases i with
              | zero =>
                  obtain rfl := Option.some.inj hat
                  exact .cons (.inr htouch) htail
              | succ i => exact .cons hhead (ihtail i hat)

theorem provisionDomains_written {req : Provisioning} {now : Instant}
    {next : List Domain}
    (h : provisionDomains platform rule req now domains = .written next r) :
    isSha256 req.checksum = true ∧ ∃ targets,
      (∀ t ∈ targets, Ready rule domains t)
        ∧ targets.all ProvisionTarget.settled = false
        ∧ next = provision rule now targets domains := by
  unfold provisionDomains at h
  split at h
  · cases h
  · rename_i websiteId expected hcheck
    split at h
    · cases h
    · rename_i targets htargets
      dsimp only at h
      split at h
      · cases h
      · rename_i hsettled
        cases h
        refine ⟨?_, targets, ready_of_provisionTargets htargets,
          Bool.eq_false_iff.mpr hsettled, rfl⟩
        obtain ⟨found, -, hcheck⟩ := Result.bind_eq_ok.mp hcheck
        cases found with
        | none => cases hcheck
        | some id =>
            obtain ⟨sorted, -, hcheck⟩ := Result.bind_eq_ok.mp hcheck
            dsimp only at hcheck
            split at hcheck
            · cases hcheck
            · rename_i hsum
              simpa using hsum

theorem touched_of_activate {req : Provisioning} {now : Instant}
    {next : List Domain}
    (h : activateProvisionedDomains platform req now domains
      = .written next r) : Touched domains next := by
  obtain ⟨hsum, targets, hready, -, rfl⟩ := provisionDomains_written h
  apply touched_provision hready _ (Touched.refl domains)
  intro entry d _ hpristine
  exact .activated hsum hpristine

theorem touched_of_reset {req : Provisioning} {now : Instant}
    {next : List Domain}
    (h : resetProvisionedDomains platform req now domains
      = .written next r) : Touched domains next := by
  obtain ⟨-, targets, hready, -, rfl⟩ := provisionDomains_written h
  apply touched_provision hready _ (Touched.refl domains)
  intro entry d hrevision hactive
  have hactive' : (d.certificateId.isNone && d.activeOn
      entry.expectedRevision req.checksum req.configName) = true := hactive
  rw [Bool.and_eq_true] at hactive'
  exact .reset hrevision hactive'.2

-- ====== beyond one record

/-- What a reparenting has checked. -/
theorem buildReparentPreview_spec {id : String} {parent : Option String}
    {i : Nat} {d : Domain} {preview : ReparentPreview}
    (h : buildReparentPreview platform domains id parent
      = .ok (i, d, preview)) :
    domains[i]? = some d
      ∧ d.parentDomainId ≠ preview.nextParentDomainId
      ∧ validateDomainParent domains
        { d.place with parentDomainId := preview.nextParentDomainId }
        = .ok () := by
  unfold buildReparentPreview at h
  obtain ⟨id', -, h⟩ := Result.bind_eq_ok.mp h
  obtain ⟨parent', -, h⟩ := Result.bind_eq_ok.mp h
  obtain ⟨⟨j, e⟩, hfound, h⟩ := Result.bind_eq_ok.mp h
  dsimp only at h
  split at h
  · cases h
  · rename_i hnew
    obtain ⟨⟨⟩, hparent, h⟩ := Result.bind_eq_ok.mp h
    cases h
    exact ⟨(getElem?_of_requireDomain hfound).1, hnew, hparent⟩

/-- What a new parent makes of the domain it is for. -/
theorem reparentDomain_set {parentDomainId : Option String} {now : Instant}
    {next : List Domain}
    (h : reparentDomain platform domainId parentDomainId digest now domains
      = .written next r) :
    ∃ i d parent, domains[i]? = some d
      ∧ next = domains.set i (d.reparented parent now) := by
  unfold reparentDomain at h
  split at h
  · cases h
  · split at h
    · cases h
    · rename_i i d preview hpreview
      dsimp only at h
      split at h
      · cases h
      · cases h
        exact ⟨i, d, _, (buildReparentPreview_spec hpreview).1, rfl⟩

theorem reparentDomain_written {parentDomainId : Option String}
    {now : Instant} {next : List Domain}
    (h : reparentDomain platform domainId parentDomainId digest now domains
      = .written next r) :
    Change platform.toNet domains next ∧ next ≠ domains := by
  unfold reparentDomain at h
  split at h
  · cases h
  · split at h
    · cases h
    · rename_i i d preview hpreview
      dsimp only at h
      split at h
      · cases h
      · cases h
        obtain ⟨hi, hnew, hparent⟩ := buildReparentPreview_spec hpreview
        refine ⟨.reparented hi hparent hnew, fun hsame => ?_⟩
        have hd := (set_eq_self hi).mp hsame
        exact hnew (congrArg Domain.parentDomainId hd).symm

/-- What an update has checked. -/
theorem buildDomainUpdatePreview_spec {id : String} {changes : Json}
    {i : Nat} {d : Domain}
    (h : buildDomainUpdatePreview platform domains id changes
      = .ok (i, d, preview)) :
    domains[i]? = some d ∧ d.state ≠ .suspended
      ∧ normalizedUpdate platform.toNet d changes = .ok preview.next
      ∧ preview.nextRevision = d.desiredRevision + 1
      ∧ (preview.next.hostnameChanged d = true →
        checkRename domains d preview.next = .ok ()) := by
  unfold buildDomainUpdatePreview at h
  obtain ⟨id', -, h⟩ := Result.bind_eq_ok.mp h
  obtain ⟨⟨j, e⟩, hfound, h⟩ := Result.bind_eq_ok.mp h
  dsimp only at h
  split at h
  · cases h
  rename_i hstate
  obtain ⟨routing, hrouting, h⟩ := Result.bind_eq_ok.mp h
  split at h
  · cases h
  have hi := (getElem?_of_requireDomain hfound).1
  split at h
  · obtain ⟨⟨⟩, hcheck, h⟩ := Result.bind_eq_ok.mp h
    cases h
    exact ⟨hi, hstate, hrouting, rfl, fun _ => hcheck⟩
  · rename_i hsame
    cases h
    exact ⟨hi, hstate, hrouting, rfl, fun hren => absurd hren hsame⟩

theorem normalizeReparentId_eq_ok {code field id : String}
    (h : normalizeReparentId code field value = .ok id) : id = value := by
  unfold normalizeReparentId at h
  split at h
  · exact (Except.ok.inj h).symm
  · cases h

/-- The domain of a preview is the one named. -/
theorem buildDomainUpdatePreview_id {id : String} {changes : Json} {i : Nat}
    {d : Domain} (h : buildDomainUpdatePreview platform domains id changes
      = .ok (i, d, preview)) : d.id = id := by
  unfold buildDomainUpdatePreview at h
  obtain ⟨id', hid, h⟩ := Result.bind_eq_ok.mp h
  obtain ⟨⟨j, e⟩, hfound, h⟩ := Result.bind_eq_ok.mp h
  have hsame : e.id = id :=
    (getElem?_of_requireDomain hfound).2.trans (normalizeReparentId_eq_ok hid)
  dsimp only at h
  split at h
  · cases h
  obtain ⟨routing, -, h⟩ := Result.bind_eq_ok.mp h
  split at h
  · cases h
  split at h
  · obtain ⟨⟨⟩, -, h⟩ := Result.bind_eq_ok.mp h
    cases h
    exact hsame
  · cases h
    exact hsame

/-- What an update makes of the domain it names. -/
theorem updateDomain_set {changes : Json} {now : Instant}
    {next : List Domain}
    (h : updateDomain platform domainId changes digest now domains
      = .written next r) :
    ∃ i d routing, domains[i]? = some d ∧ d.id = domainId
      ∧ normalizedUpdate platform.toNet d changes = .ok routing
      ∧ next = domains.set i
        ((d.rerouted routing).redrafted (d.desiredRevision + 1) now) := by
  unfold updateDomain at h
  split at h
  · cases h
  · split at h
    · cases h
    · rename_i i d preview hpreview
      dsimp only at h
      split at h
      · cases h
      · cases h
        obtain ⟨hi, -, hrouting, hrevision, -⟩ :=
          buildDomainUpdatePreview_spec hpreview
        rw [hrevision]
        exact ⟨i, d, preview.next, hi, buildDomainUpdatePreview_id hpreview,
          hrouting, rfl⟩

theorem updateDomain_written {changes : Json} {now : Instant}
    {next : List Domain}
    (h : updateDomain platform domainId changes digest now domains
      = .written next r) :
    Change platform.toNet domains next ∧ next ≠ domains := by
  unfold updateDomain at h
  split at h
  · cases h
  · split at h
    · cases h
    · rename_i i d preview hpreview
      dsimp only at h
      split at h
      · cases h
      · cases h
        obtain ⟨hi, hstate, hrouting, hrevision, hrename⟩ :=
          buildDomainUpdatePreview_spec hpreview
        rw [hrevision]
        refine ⟨.updated hi hstate hrouting hrename, fun hsame => ?_⟩
        have hd := (set_eq_self hi).mp hsame
        have hdesired : d.desiredRevision + 1 = d.desiredRevision :=
          congrArg Domain.desiredRevision hd
        omega

theorem createDomain_written {env : Env} {req : NewDomain}
    {next : List Domain}
    (h : createDomain net env req domains = .written next r) :
    Change net domains next ∧ next ≠ domains := by
  unfold createDomain at h
  split at h
  · cases h
  · rename_i d hd
    split at h
    · split at h <;> cases h
    · rename_i hnone
      cases h
      refine ⟨.created hd ?_, fun hsame => ?_⟩
      · intro c hc hid
        have hno := List.find?_eq_none.mp hnone c hc
        rw [hid, beq_self_eq_true] at hno
        exact hno rfl
      · have hlen := congrArg List.length hsame
        rw [List.length_append, List.length_singleton] at hlen
        omega

theorem createDomain_append {env : Env} {req : NewDomain}
    {next : List Domain}
    (h : createDomain net env req domains = .written next r) :
    ∃ d, next = domains ++ [d] := by
  unfold createDomain at h
  split at h
  · cases h
  · rename_i d hd
    split at h
    · split at h <;> cases h
    · cases h
      exact ⟨d, rfl⟩

theorem removableDomain_eq_ok {evidence : Evidence} {d : Domain}
    (h : removableDomain platform domains domainId evidence confirmation
      = .ok d) :
    d ∈ domains ∧ descendantsOf platform domains d.id = [] := by
  unfold removableDomain at h
  obtain ⟨id, -, h⟩ := Result.bind_eq_ok.mp h
  obtain ⟨⟨i, e⟩, hfound, h⟩ := Result.bind_eq_ok.mp h
  obtain ⟨operationId, -, h⟩ := Result.bind_eq_ok.mp h
  obtain ⟨checksum, -, h⟩ := Result.bind_eq_ok.mp h
  dsimp only at h
  split at h
  · cases h
  split at h
  · cases h
  split at h
  · cases h
  rename_i hchildless
  split at h
  · cases h
  split at h
  · cases h
  split at h
  · cases h
  obtain rfl := Except.ok.inj h
  exact ⟨List.mem_of_getElem? (getElem?_of_requireDomain hfound).1,
    not_not.mp hchildless⟩

/-- The domain a removal takes away is the one named. -/
theorem removableDomain_id {evidence : Evidence} {d : Domain}
    (h : removableDomain platform domains domainId evidence confirmation
      = .ok d) : d.id = domainId := by
  unfold removableDomain at h
  obtain ⟨id, hid, h⟩ := Result.bind_eq_ok.mp h
  obtain ⟨⟨i, e⟩, hfound, h⟩ := Result.bind_eq_ok.mp h
  obtain ⟨operationId, -, h⟩ := Result.bind_eq_ok.mp h
  obtain ⟨checksum, -, h⟩ := Result.bind_eq_ok.mp h
  have hsame : e.id = domainId :=
    (getElem?_of_requireDomain hfound).2.trans (normalizeReparentId_eq_ok hid)
  dsimp only at h
  iterate 6
    split at h
    · cases h
  exact (Except.ok.inj h) ▸ hsame

/-- What a removal leaves, whether or not the check after it throws. -/
theorem finalizeDomainRemoval_after {evidence : Evidence}
    {next : List Domain}
    (h : finalizeDomainRemoval platform domainId evidence confirmation
        domains = .written next r
      ∨ (finalizeDomainRemoval platform domainId evidence confirmation
          domains = .spoiled next e
        ∧ validateDomainHierarchy next = .error e)) :
    Change platform.toNet domains next ∧ next ≠ domains := by
  unfold finalizeDomainRemoval at h
  split at h
  · rcases h with h | ⟨h, -⟩ <;> cases h
  · rename_i d hd
    obtain ⟨hmem, hnone⟩ := removableDomain_eq_ok hd
    have hchange : Change platform.toNet domains
          (domains.filter fun c => c.id != d.id)
        ∧ (domains.filter fun c => c.id != d.id) ≠ domains := by
      refine ⟨.removed hmem (childless_of_descendantsOf hnone),
        fun hsame => ?_⟩
      rw [← hsame] at hmem
      have hkept := (List.mem_filter.mp hmem).2
      simp at hkept
    dsimp only at h
    split at h
    · rcases h with h | ⟨h, -⟩
      · cases h
      · cases h
        exact hchange
    · rcases h with h | ⟨h, -⟩
      · cases h
        exact hchange
      · cases h

/-- What a removal that is written leaves. -/
theorem finalizeDomainRemoval_filter {evidence : Evidence}
    {next : List Domain}
    (h : finalizeDomainRemoval platform domainId evidence confirmation
        domains = .written next r) :
    next = domains.filter fun c => c.id != domainId := by
  unfold finalizeDomainRemoval at h
  split at h
  · cases h
  · rename_i d hd
    dsimp only at h
    split at h
    · cases h
    · cases h
      rw [removableDomain_id hd]

/-- Changing a record that is no longer listed writes the list as it
is. -/
theorem bindRemoved_written {env : Env} {removed : Domain}
    {next : List Domain}
    (h : bindRemoved net env websiteId removed domains = .written next r) :
    next = domains := by
  unfold bindRemoved at h
  split at h <;> cases h
  rfl

-- ====== calls

theorem written_of_ofResult {x : Except Failure Reply} {next : List Domain}
    (h : (Effect.ofResult x : DomainEffect) = .written next r) : False := by
  cases x <;> cases h

/-- What a call has left for writing is a change of the domains it
found. -/
theorem change_of_written {env : Env} {next : List Domain}
    (h : c.effect platform env domains = .written next r) :
    Change platform.toNet domains next := by
  cases c with
  | listDomains => exact (written_of_ofResult h).elim
  | getDomain domainId => exact (written_of_ofResult h).elim
  | previewDomainReparent domainId parent =>
      exact (written_of_ofResult h).elim
  | previewDomainUpdate domainId changes =>
      exact (written_of_ofResult h).elim
  | reparentDomain domainId parent digest => exact (reparentDomain_written h).1
  | updateDomain domainId changes digest => exact (updateDomain_written h).1
  | createDomain req => exact (createDomain_written h).1
  | bindWebsite domainId websiteId removed =>
      cases removed with
      | none => exact .touched (touched_of_turn bindWebsite_turn h)
      | some removed =>
          rw [bindRemoved_written h]
          exact .touched (Touched.refl domains)
  | rollbackWebsiteBinding domainId websiteId =>
      exact .touched (touched_of_turn rollbackWebsiteBinding_turn h)
  | detachWebsiteForRemoval domainId expected evidence =>
      exact .touched (touched_of_turn detachWebsiteForRemoval_turn h)
  | detachCertificateForRemoval domainId expected evidence =>
      exact .touched
        (touched_of_turn detachCertificateForRemoval_turn h)
  | attachCertificate domainId certificateId names =>
      exact .touched (touched_of_turn attachCertificate_turn h)
  | activateProvisionedDomains req => exact .touched (touched_of_activate h)
  | resetProvisionedDomains req => exact .touched (touched_of_reset h)
  | markStaged domainId checksum configName =>
      exact .touched (touched_of_onDomain markStaged_touch h)
  | markApplied domainId checksum =>
      exact .touched (touched_of_onDomain markApplied_touch h)
  | markSuspended domainId evidence =>
      exact .touched (touched_of_turn markSuspended_turn h)
  | markResumed domainId evidence =>
      exact .touched (touched_of_turn markResumed_turn h)
  | finalizeDomainRemoval domainId evidence confirmation =>
      exact (finalizeDomainRemoval_after (e := .store) (.inl h)).1
  | markFailed domainId code =>
      exact .touched (touched_of_onDomain markFailed_touch h)

theorem ofResult_clean (x : Except Failure Reply) :
    (Effect.ofResult x : DomainEffect).Clean := by
  cases x <;> trivial

theorem onDomain_clean (id : String)
    (turn : Domain → Except Failure Verdict) (domains : List Domain) :
    (onDomain id turn domains).Clean := by
  unfold onDomain
  split
  · trivial
  · split <;> trivial

theorem bindRemoved_clean (net : Net) (env : Env)
    (websiteId : Option String) (removed : Domain) (domains : List Domain) :
    (bindRemoved net env websiteId removed domains).Clean := by
  unfold bindRemoved
  split <;> trivial

theorem reparentDomain_clean (platform : Platform) (id : String)
    (parent : Option String) (digest : String) (now : Instant)
    (domains : List Domain) :
    (reparentDomain platform id parent digest now domains).Clean := by
  unfold reparentDomain
  split
  · trivial
  · split
    · trivial
    · dsimp only
      split <;> trivial

theorem updateDomain_clean (platform : Platform) (id : String)
    (changes : Json) (digest : String) (now : Instant)
    (domains : List Domain) :
    (updateDomain platform id changes digest now domains).Clean := by
  unfold updateDomain
  split
  · trivial
  · split
    · trivial
    · dsimp only
      split <;> trivial

theorem createDomain_clean (net : Net) (env : Env) (req : NewDomain)
    (domains : List Domain) : (createDomain net env req domains).Clean := by
  unfold createDomain
  split
  · trivial
  · split
    · split <;> trivial
    · trivial

theorem provisionDomains_clean (platform : Platform) (rule : ProvisionRule)
    (req : Provisioning) (now : Instant) (domains : List Domain) :
    (provisionDomains platform rule req now domains).Clean := by
  unfold provisionDomains
  split
  · trivial
  · split
    · trivial
    · dsimp only
      split <;> trivial

theorem validate_of_spoiled {id : String} {evidence : Evidence}
    {next : List Domain}
    (h : finalizeDomainRemoval platform id evidence confirmation domains
      = .spoiled next e) : validateDomainHierarchy next = .error e := by
  unfold finalizeDomainRemoval at h
  split at h
  · cases h
  · dsimp only at h
    split at h
    · rename_i hvalid
      cases h
      exact hvalid
    · cases h

/-- Only a removal can throw after it has changed memory, and then because
the domains it leaves are not well placed. -/
theorem removal_of_spoiled {env : Env} {next : List Domain}
    (h : c.effect platform env domains = .spoiled next e) :
    Change platform.toNet domains next
      ∧ validateDomainHierarchy next = .error e := by
  have hunclean : ¬ (c.effect platform env domains).Clean := by
    rw [h]
    exact id
  cases c with
  | finalizeDomainRemoval domainId evidence confirmation =>
      have herror := validate_of_spoiled h
      exact ⟨(finalizeDomainRemoval_after (r := fun _ => .error e)
        (.inr ⟨h, herror⟩)).1, herror⟩
  | bindWebsite domainId websiteId removed =>
      cases removed with
      | none => exact (hunclean (onDomain_clean _ _ _)).elim
      | some removed => exact (hunclean (bindRemoved_clean _ _ _ _ _)).elim
  | listDomains | getDomain | previewDomainReparent | previewDomainUpdate =>
      exact (hunclean (ofResult_clean _)).elim
  | reparentDomain => exact (hunclean (reparentDomain_clean _ _ _ _ _ _)).elim
  | updateDomain => exact (hunclean (updateDomain_clean _ _ _ _ _ _)).elim
  | createDomain => exact (hunclean (createDomain_clean _ _ _ _)).elim
  | activateProvisionedDomains | resetProvisionedDomains =>
      exact (hunclean (provisionDomains_clean _ _ _ _ _)).elim
  | rollbackWebsiteBinding | detachWebsiteForRemoval
  | detachCertificateForRemoval | attachCertificate | markStaged
  | markApplied | markSuspended | markResumed | markFailed =>
      exact (hunclean (onDomain_clean _ _ _)).elim

end Yunpanel.Domains
