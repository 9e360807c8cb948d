/-
What a call of the certificate registry may write.

A call appends one record, moves one along, or supersedes the others of a
domain (`Change`); `change_of_written` says that there is nothing else, and
with what its checks have established. A record moves between open states,
into retirement, or from there to being purged (`Moves`).
-/
import Yunpanel.Certificates.Registry
import Yunpanel.Certificates.Proofs.Hydration

namespace Yunpanel.Certificates

open Lib Json
open Domains (Net)

variable {net : Net} {roots : Roots} {env : Env} {a b : Certificate}
  {s t : List Certificate}

-- ====== moves

/-- Two records of one certificate: what no call changes. -/
structure Kept (a b : Certificate) : Prop where
  id : b.id = a.id
  domainId : b.domainId = a.domainId
  certName : b.certName = a.certName
  certificateNames : b.certificateNames = a.certificateNames
  challenge : b.challenge = a.challenge
  source : b.source = a.source
  purpose : b.purpose = a.purpose
  renewalMode : b.renewalMode = a.renewalMode
  staging : b.staging = a.staging
  provisioning : b.provisioningOperationId = a.provisioningOperationId

/-- How a call moves a record. -/
inductive Moves (roots : Roots) (c : Call) (a : Certificate) :
    Certificate → Prop where
  /-- Between states that are none of retirement. -/
  | opened (b : Certificate) (hkept : Kept a b) (hfrom : a.state ≠ .retired)
      (hto : b.state ≠ .retired)
      (hretirement : b.retirementOperationId = a.retirementOperationId
        ∧ b.retiredAt = a.retiredAt
        ∧ b.retiredFromState = a.retiredFromState
        ∧ b.retiredFromUpdatedAt = a.retiredFromUpdatedAt
        ∧ b.materialPurgedAt = a.materialPurgedAt)
      (hpaths : HasPaths roots a → HasPaths roots b)
      (hmaterial : b.state.isMaterial = true →
        a.state.isMaterial = true ∨ HasPaths roots b
          ∨ ∃ nextState, c = .setState a.id nextState
            ∧ nextState ≠ "issuing")
      (hserves : b.serves = true → a.serves = true ∨ c.activates a.id = true) :
      Moves roots c a b
  | retired (now : Instant) (operationId : String)
      (hsafe : isSafeOperationId operationId = true)
      (hfrom : a.state ≠ .retired) :
      Moves roots c a { a with
        retiredFromState := some a.state
        retiredFromUpdatedAt := some a.updatedAt
        state := .retired
        retirementOperationId := some operationId
        retiredAt := some now
        lastError := none
        updatedAt := now }
  | purged (purgedAt : Instant) (hfrom : a.state = .retired)
      (hnone : a.materialPurgedAt = none) :
      Moves roots c a { a with
        materialPurgedAt := some purgedAt
        updatedAt := purgedAt }

theorem materialState_of_open (h : a.state ≠ .retired) :
    a.materialState = a.state := if_neg h

/-- A record that is not retired has no evidence of a retirement. -/
theorem retirementAgrees_of_open (h : a.state ≠ .retired) :
    a.retirementAgrees = true ↔
      a.retirementOperationId = none ∧ a.retiredAt = none
        ∧ a.retiredFromState = none ∧ a.retiredFromUpdatedAt = none := by
  have hstate : (a.state == .retired) = false := beq_eq_false_iff_ne.mpr h
  unfold Certificate.retirementAgrees
  rw [hstate]
  simp only [Bool.false_or, Bool.and_eq_true, Option.isNone_iff_eq_none,
    and_assoc]
  constructor
  · exact fun h => h.2
  · rintro ⟨hoperation, hat, hfrom, hupdated⟩
    refine ⟨?_, hoperation, hat, hfrom, hupdated⟩
    rw [hoperation]
    rfl

/-- Soundness moves along, where a state that is set stands for material
that is there. -/
theorem Sound.moves {c : Call} (h : Sound net roots a)
    (hm : Moves roots c a b)
    (hset : ∀ nextState, c = .setState a.id nextState →
      nextState ≠ "issuing" → HasPaths roots a) : Sound net roots b := by
  cases hm with
  | opened b hkept hfrom hto hretirement hpaths hmaterial hserves =>
      obtain ⟨hoperation, hat, hstate, hupdated, hpurged⟩ := hretirement
      refine ⟨?_, ?_, ?_, ?_, ?_, ?_, ?_, ?_⟩
      · rw [hpurged]
        exact .inl (h.purge.resolve_right hfrom)
      · rw [hkept.provisioning]
        exact h.provisioning
      · rw [hkept.renewalMode, hkept.source]
        exact h.policy
      · rw [retirementAgrees_of_open hto, hoperation, hat, hstate, hupdated]
        exact (retirementAgrees_of_open hfrom).mp h.retirement
      · rw [hkept.source, hkept.id]
        exact h.identity
      · rw [hkept.challenge, hkept.source]
        exact h.challenge
      · rw [hkept.certificateNames, hkept.challenge]
        exact h.names
      · intro hmat
        rw [materialState_of_open hto] at hmat
        rcases hmaterial hmat with hold | hnew | ⟨nextState, hc, hne⟩
        · exact hpaths (h.material ((materialState_of_open hfrom).symm ▸ hold))
        · exact hnew
        · exact hpaths (hset nextState hc hne)
  | retired now operationId hsafe hfrom =>
      refine ⟨.inr rfl, h.provisioning, h.policy, ?_, h.identity,
        h.challenge, h.names, fun hmat => ?_⟩
      · unfold Certificate.retirementAgrees
        have hstate : (a.state != .retired) = true := bne_iff_ne.mpr hfrom
        simp [hsafe, hstate]
      · exact h.material ((materialState_of_open hfrom).symm ▸ hmat)
  | purged purgedAt hfrom hnone =>
      exact ⟨.inr hfrom, h.provisioning, h.policy, h.retirement, h.identity,
        h.challenge, h.names, h.material⟩

theorem Moves.kept {c : Call} (hm : Moves roots c a b) : Kept a b := by
  cases hm with
  | opened b hkept => exact hkept
  | retired now operationId hsafe hfrom =>
      exact ⟨rfl, rfl, rfl, rfl, rfl, rfl, rfl, rfl, rfl, rfl⟩
  | purged purgedAt hfrom hnone =>
      exact ⟨rfl, rfl, rfl, rfl, rfl, rfl, rfl, rfl, rfl, rfl⟩

/-- A record serves where it did or the call may make it. -/
theorem Moves.serves {c : Call} (hm : Moves roots c a b)
    (h : b.serves = true) : a.serves = true ∨ c.activates a.id = true := by
  cases hm with
  | opened b hkept hfrom hto hretirement hpaths hmaterial hserves =>
      exact hserves h
  | retired now operationId hsafe hfrom =>
      unfold Certificate.serves at h
      simp at h
  | purged purgedAt hfrom hnone => exact .inl h

theorem Moves.hasPaths {c : Call} (hm : Moves roots c a b)
    (h : HasPaths roots a) : HasPaths roots b := by
  cases hm with
  | opened b hkept hfrom hto hretirement hpaths => exact hpaths h
  | retired now operationId hsafe hfrom => exact h
  | purged purgedAt hfrom hnone => exact h

-- ====== calls

variable {c : Call} {reply : List Certificate → Except Failure Reply}

variable {certificateId nextState : String} {i : Nat} {now : Instant}

theorem onCertificate_written {f : Nat → Certificate → CertificateEffect}
    (h : onCertificate certificateId f s = .written t reply) :
    ∃ i a, s[i]? = some a ∧ a.id = certificateId
      ∧ f i a = .written t reply := by
  unfold onCertificate at h
  split at h
  · cases h
  · rename_i i a hlocate
    have hid := accepted_of_locate hlocate
    exact ⟨i, a, getElem?_of_locate hlocate, beq_iff_eq.mp hid, h⟩

theorem saved_written (h : saved s i b = .written t reply) : t = s.set i b :=
  (Effect.written.inj h).1.symm

theorem savedResult_written {x : Except Failure Certificate}
    (h : savedResult s i x = .written t reply) :
    ∃ b, x = .ok b ∧ t = s.set i b := by
  cases x with
  | error e => cases h
  | ok b => exact ⟨b, rfl, saved_written h⟩

theorem text_of_ofText?_active (h : State.ofText? nextState = some .active) :
    nextState = "active" := by
  unfold State.ofText? at h
  split at h <;> first | rfl | cases h

variable {state : State} {result : Option Result} {renewal : Bool}

theorem requestedState_eq_some (h : a.requestedState nextState = some state) :
    State.ofText? (if a.staging ∧ nextState = "issuing" then "validating"
        else nextState) = some state
      ∧ state ≠ .retired := by
  unfold Certificate.requestedState at h
  obtain ⟨h, hne⟩ := Option.filter_eq_some_iff.mp h
  exact ⟨h, bne_iff_ne.mp hne⟩

theorem not_material_of_issuing
    (h : a.requestedState "issuing" = some state) :
    state.isMaterial = false := by
  obtain ⟨h, -⟩ := requestedState_eq_some h
  by_cases hstaging : a.staging ∧ "issuing" = "issuing"
  · rw [if_pos hstaging] at h
    obtain rfl : State.validating = state := Option.some.inj h
    rfl
  · rw [if_neg hstaging] at h
    obtain rfl : State.issuing = state := Option.some.inj h
    rfl

theorem active_of_requestedState
    (h : a.requestedState nextState = some .active) :
    nextState = "active" := by
  obtain ⟨h, -⟩ := requestedState_eq_some h
  by_cases hstaging : a.staging ∧ nextState = "issuing"
  · rw [if_pos hstaging] at h
    cases h
  · rw [if_neg hstaging] at h
    exact text_of_ofText?_active h

theorem setState_written (hid : a.id = certificateId)
    (h : setState now nextState s i a = .written t reply) :
    ∃ b, t = s.set i b
      ∧ Moves roots (.setState certificateId nextState) a b := by
  unfold setState at h
  split at h
  · cases h
  · rename_i hopen
    split at h
    · cases h
    · rename_i state hstate
      refine ⟨_, saved_written h, ?_⟩
      have hto : state ≠ .retired := (requestedState_eq_some hstate).2
      refine .opened _ ⟨rfl, rfl, rfl, rfl, rfl, rfl, rfl, rfl, rfl, rfl⟩
        hopen hto ⟨rfl, rfl, rfl, rfl, rfl⟩ (fun h => h) (fun hmat => ?_)
        fun hserves => ?_
      · refine .inr (.inr ⟨nextState, by rw [hid], fun hissuing => ?_⟩)
        subst hissuing
        have hnone : state.isMaterial = false :=
          not_material_of_issuing hstate
        rw [show state.isMaterial = true from hmat] at hnone
        cases hnone
      · right
        have hactive : state = .active := by
          unfold Certificate.serves at hserves
          simp only [Bool.and_eq_true, beq_iff_eq] at hserves
          exact hserves.2
        subst hactive
        unfold Call.activates
        rw [active_of_requestedState hstate, hid]
        simp

theorem validated_moves (h : validated net now result a = .ok b) (c : Call) :
    Moves roots c a b := by
  unfold validated at h
  obtain ⟨_, hopen, h⟩ := Result.bind_eq_ok.mp h
  obtain ⟨_, hstaging, h⟩ := Result.bind_eq_ok.mp h
  obtain ⟨result', -, h⟩ := Result.bind_eq_ok.mp h
  obtain ⟨_, -, h⟩ := Result.bind_eq_ok.mp h
  obtain rfl := Except.ok.inj h
  rw [ensure_eq_ok] at hopen hstaging
  refine .opened _ ⟨rfl, rfl, rfl, rfl, rfl, rfl, rfl, rfl, rfl, rfl⟩
    (bne_iff_ne.mp hopen) (fun h => nomatch h) ⟨rfl, rfl, rfl, rfl, rfl⟩
    (fun h => h) (fun hmat => nomatch hmat) fun hserves => ?_
  unfold Certificate.serves at hserves
  rw [show a.staging = true from hstaging] at hserves
  simp at hserves

theorem activated_moves {result' : Option Result}
    (hopen : a.state ≠ .retired)
    (h : activated net roots now renewal result a = .ok b) :
    Moves roots (.markActive a.id result' renewal) a b := by
  unfold activated at h
  obtain ⟨_, -, h⟩ := Result.bind_eq_ok.mp h
  obtain ⟨found, -, h⟩ := Result.bind_eq_ok.mp h
  obtain ⟨validFrom, -, h⟩ := Result.bind_eq_ok.mp h
  obtain ⟨validTo, -, h⟩ := Result.bind_eq_ok.mp h
  obtain ⟨_, -, h⟩ := Result.bind_eq_ok.mp h
  obtain ⟨fingerprint, -, h⟩ := Result.bind_eq_ok.mp h
  obtain ⟨cert, hcert, h⟩ := Result.bind_eq_ok.mp h
  obtain ⟨chain, hchain, h⟩ := Result.bind_eq_ok.mp h
  obtain ⟨key, hkey, h⟩ := Result.bind_eq_ok.mp h
  obtain rfl := Except.ok.inj h
  obtain ⟨-, rfl⟩ := validateCertificatePath_eq_ok.mp hcert
  obtain ⟨-, rfl⟩ := validateCertificatePath_eq_ok.mp hchain
  obtain ⟨-, rfl⟩ := validateCertificatePath_eq_ok.mp hkey
  refine .opened _ ⟨rfl, rfl, rfl, rfl, rfl, rfl, rfl, rfl, rfl, rfl⟩ hopen
    (fun h => nomatch h) ⟨rfl, rfl, rfl, rfl, rfl⟩
    (fun _ => ⟨rfl, rfl, rfl⟩) (fun _ => .inr (.inl ⟨rfl, rfl, rfl⟩))
    fun _ => .inr ?_
  exact beq_iff_eq.mpr rfl

theorem markActive_written (hid : a.id = certificateId)
    (h : markActive net roots now renewal result s i a = .written t reply) :
    ∃ b, t = s.set i b
      ∧ Moves roots (.markActive certificateId result renewal) a b := by
  unfold markActive at h
  split at h
  · cases h
  · rename_i hopen
    split at h
    · obtain ⟨b, hb, ht⟩ := savedResult_written h
      exact ⟨b, ht, validated_moves hb _⟩
    · obtain ⟨b, hb, ht⟩ := savedResult_written h
      exact ⟨b, ht, hid ▸ activated_moves hopen hb⟩

theorem prepareSelection_written (hid : a.id = certificateId)
    (h : prepareSelection roots now s i a = .written t reply) :
    ∃ b, t = s.set i b
      ∧ Moves roots (.prepareSelection certificateId) a b := by
  unfold prepareSelection at h
  split at h
  · cases h
  · split at h
    · cases h
    · rename_i hpaths
      rw [validatePaths_eq_ok] at hpaths
      split at h
      · rename_i hstate
        refine ⟨_, saved_written h, ?_⟩
        refine .opened _ ⟨rfl, rfl, rfl, rfl, rfl, rfl, rfl, rfl, rfl, rfl⟩
          (by rw [hstate]; decide) (fun h => nomatch h)
          ⟨rfl, rfl, rfl, rfl, rfl⟩ (fun h => h)
          (fun _ => .inr (.inl hpaths)) fun _ => .inr ?_
        exact beq_iff_eq.mpr hid.symm
      · cases h

theorem markFailed_written {errorCode : Json}
    (h : markFailed now errorCode s i a = .written t reply) (c : Call) :
    ∃ b, t = s.set i b ∧ Moves roots c a b := by
  unfold markFailed at h
  split at h
  · cases h
  · rename_i hopen
    refine ⟨_, saved_written h, ?_⟩
    refine .opened _ ⟨rfl, rfl, rfl, rfl, rfl, rfl, rfl, rfl, rfl, rfl⟩ hopen
      (fun h => nomatch h) ⟨rfl, rfl, rfl, rfl, rfl⟩ (fun h => h)
      (fun hmat => nomatch hmat) fun hserves => ?_
    unfold Certificate.serves at hserves
    simp at hserves

theorem retire_written {r : Retirement}
    (h : retireForDomainRemoval now r s i a = .written t reply) (c : Call) :
    ∃ b, t = s.set i b ∧ Moves roots c a b := by
  unfold retireForDomainRemoval at h
  split at h
  · cases h
  · rename_i hsafe
    split at h
    · split at h <;> cases h
    · rename_i hopen
      split at h
      · obtain ⟨rfl, -⟩ := Effect.written.inj h
        refine ⟨_, rfl, .retired now r.operationId ?_ hopen⟩
        simpa using hsafe
      · cases h

theorem markMaterialPurged_written {purgedAt : Option Instant}
    (h : markMaterialPurged purgedAt s i a = .written t reply) (c : Call) :
    ∃ b, t = s.set i b ∧ Moves roots c a b := by
  unfold markMaterialPurged at h
  split at h
  · cases h
  · rename_i hretired
    split at h
    · cases h
    · rename_i purgedAt' _
      split at h
      · cases h
      · rename_i hnone
        obtain ⟨rfl, -⟩ := Effect.written.inj h
        refine ⟨_, rfl, .purged purgedAt' (not_not.mp hretired) ?_⟩
        simpa using hnone

-- ====== new records

theorem newCertificate_sound {input : NewCertificate}
    (h : newCertificate net env input s = .ok b) :
    Sound net roots b ∧ b.id = env.randomUUID.text
      ∧ b.state = .pending := by
  unfold newCertificate at h
  obtain ⟨_, -, h⟩ := Result.bind_eq_ok.mp h
  obtain ⟨_, -, h⟩ := Result.bind_eq_ok.mp h
  obtain ⟨domains, -, h⟩ := Result.bind_eq_ok.mp h
  obtain ⟨purpose, -, h⟩ := Result.bind_eq_ok.mp h
  obtain ⟨challenge, -, h⟩ := Result.bind_eq_ok.mp h
  obtain ⟨names, hnames, h⟩ := Result.bind_eq_ok.mp h
  obtain ⟨replace, -, h⟩ := Result.bind_eq_ok.mp h
  obtain ⟨operationId, hoperation, h⟩ := Result.bind_eq_ok.mp h
  obtain ⟨_, -, h⟩ := Result.bind_eq_ok.mp h
  obtain ⟨email, -, h⟩ := Result.bind_eq_ok.mp h
  obtain rfl := Except.ok.inj h
  have hsafe : operationId.all isSafeOperationId = true := by
    rw [demand_eq_ok] at hoperation
    unfold readOperationId at hoperation
    split at hoperation
    · obtain rfl := Option.some.inj hoperation
      rfl
    · split at hoperation
      · rename_i hpattern
        obtain rfl := Option.some.inj hoperation
        exact hpattern
      · cases hoperation
    · cases hoperation
  refine ⟨⟨.inl rfl, hsafe, rfl, rfl, (fun h => nomatch h), ?_,
    normalizeCertificateNames_stable hnames, (fun h => nomatch h)⟩, rfl, rfl⟩
  exact ⟨fun _ => rfl, fun _ => rfl⟩

theorem customCertificate_sound {input : CustomCertificate}
    (h : customCertificate net roots now input s = .ok b) :
    Sound net roots b ∧ HasPaths roots b ∧ (∀ a ∈ s, a.id ≠ b.id)
      ∧ (Call.registerCustom input).takesBack = some b.id
      ∧ b.domainId = input.domainId ∧ b.state = .active := by
  unfold customCertificate at h
  obtain ⟨id, hid, h⟩ := Result.bind_eq_ok.mp h
  obtain ⟨_, hnew, h⟩ := Result.bind_eq_ok.mp h
  obtain ⟨_, -, h⟩ := Result.bind_eq_ok.mp h
  obtain ⟨_, -, h⟩ := Result.bind_eq_ok.mp h
  obtain ⟨domains, hdomains, h⟩ := Result.bind_eq_ok.mp h
  obtain ⟨purpose, -, h⟩ := Result.bind_eq_ok.mp h
  obtain ⟨validFrom, -, h⟩ := Result.bind_eq_ok.mp h
  obtain ⟨validTo, -, h⟩ := Result.bind_eq_ok.mp h
  obtain ⟨fingerprint, -, h⟩ := Result.bind_eq_ok.mp h
  obtain ⟨digest, -, h⟩ := Result.bind_eq_ok.mp h
  obtain ⟨_, -, h⟩ := Result.bind_eq_ok.mp h
  obtain ⟨cert, hcert, h⟩ := Result.bind_eq_ok.mp h
  obtain ⟨chain, hchain, h⟩ := Result.bind_eq_ok.mp h
  obtain ⟨key, hkey, h⟩ := Result.bind_eq_ok.mp h
  obtain rfl := Except.ok.inj h
  obtain ⟨-, rfl⟩ := validateCertificatePath_eq_ok.mp hcert
  obtain ⟨-, rfl⟩ := validateCertificatePath_eq_ok.mp hchain
  obtain ⟨-, rfl⟩ := validateCertificatePath_eq_ok.mp hkey
  rw [demand_eq_ok] at hid
  refine ⟨⟨.inl rfl, rfl, rfl, rfl, fun _ => ?_, ?_,
    normalizeCertificateNames_of_domains hdomains _,
    fun _ => ⟨rfl, rfl, rfl⟩⟩, ⟨rfl, rfl, rfl⟩, ?_, ?_, rfl, rfl⟩
  · exact congrArg Option.isSome (Uuid.ofText?_text id)
  · exact ⟨(fun h => nomatch h), (fun h => nomatch h)⟩
  · intro a ha he
    rw [ensure_eq_ok, Bool.not_eq_true', ← Bool.not_eq_true,
      List.any_eq_true] at hnew
    exact hnew ⟨a, ha, beq_iff_eq.mpr he⟩
  · exact congrArg (Option.map Uuid.text) hid

-- ====== changes

/-- Every way a call changes the store. -/
inductive Change (net : Net) (roots : Roots) (env : Env)
    (s : List Certificate) : Call → List Certificate → Prop where
  | created (input : NewCertificate) (b : Certificate)
      (hsound : Sound net roots b) (hid : b.id = env.randomUUID.text)
      (hstate : b.state = .pending) :
      Change net roots env s (.createForDomain input) (s ++ [b])
  | imported (input : CustomCertificate) (b : Certificate)
      (hsound : Sound net roots b) (hpaths : HasPaths roots b)
      (hnew : ∀ a ∈ s, a.id ≠ b.id)
      (htakes : (Call.registerCustom input).takesBack = some b.id)
      (hdomain : b.domainId = input.domainId) (hstate : b.state = .active) :
      Change net roots env s (.registerCustom input) (s ++ [b])
  | moved (c : Call) (i : Nat) (a b : Certificate) (hi : s[i]? = some a)
      (hm : Moves roots c a b) (htakes : c.takesBack = none) :
      Change net roots env s c (s.set i b)
  | selected (certificateId : String) (now : Instant)
      (selected : Certificate) (hserves : selected.serves = true) :
      Change net roots env s (.commitSelection certificateId)
        (s.map (Certificate.superseded now selected))

theorem change_of_written
    (h : c.effect net roots env s = .written t reply) :
    Change net roots env s c t := by
  cases c with
  | createForDomain input =>
      have hcreate : createForDomain net env input s = .written t reply := h
      unfold createForDomain at hcreate
      split at hcreate
      · cases hcreate
      · rename_i b hb
        obtain ⟨rfl, -⟩ := Effect.written.inj hcreate
        obtain ⟨hsound, hid, hstate⟩ := newCertificate_sound hb
        exact .created input b hsound hid hstate
  | registerCustom input =>
      have hregister : registerCustom net roots env.now input s
          = .written t reply := h
      unfold registerCustom at hregister
      split at hregister
      · cases hregister
      · rename_i b hb
        obtain ⟨rfl, -⟩ := Effect.written.inj hregister
        obtain ⟨hsound, hpaths, hnew, htakes, hdomain, hstate⟩ :=
          customCertificate_sound hb
        exact .imported input b hsound hpaths hnew htakes hdomain hstate
  | setState certificateId nextState =>
      obtain ⟨i, a, hi, hid, hw⟩ := onCertificate_written h
      obtain ⟨b, rfl, hm⟩ := setState_written hid hw
      exact .moved _ i a b hi hm rfl
  | markValidated certificateId result =>
      obtain ⟨i, a, hi, -, hw⟩ := onCertificate_written h
      obtain ⟨b, hb, rfl⟩ := savedResult_written hw
      exact .moved _ i a b hi (validated_moves hb _) rfl
  | markActive certificateId result renewal =>
      obtain ⟨i, a, hi, hid, hw⟩ := onCertificate_written h
      obtain ⟨b, rfl, hm⟩ := markActive_written hid hw
      exact .moved _ i a b hi hm rfl
  | prepareSelection certificateId =>
      obtain ⟨i, a, hi, hid, hw⟩ := onCertificate_written h
      obtain ⟨b, rfl, hm⟩ := prepareSelection_written hid hw
      exact .moved _ i a b hi hm rfl
  | markFailed certificateId errorCode =>
      obtain ⟨i, a, hi, -, hw⟩ := onCertificate_written h
      obtain ⟨b, rfl, hm⟩ := markFailed_written hw
        (.markFailed certificateId errorCode)
      exact .moved _ i a b hi hm rfl
  | retireForDomainRemoval certificateId r =>
      obtain ⟨i, a, hi, -, hw⟩ := onCertificate_written h
      obtain ⟨b, rfl, hm⟩ := retire_written hw
        (.retireForDomainRemoval certificateId r)
      exact .moved _ i a b hi hm rfl
  | markMaterialPurged certificateId purgedAt =>
      obtain ⟨i, a, hi, -, hw⟩ := onCertificate_written h
      obtain ⟨b, rfl, hm⟩ := markMaterialPurged_written hw
        (.markMaterialPurged certificateId purgedAt)
      exact .moved _ i a b hi hm rfl
  | commitSelection certificateId =>
      obtain ⟨i, a, hi, -, hw⟩ := onCertificate_written h
      unfold commitSelection at hw
      split at hw
      · cases hw
      · rename_i hserves
        split at hw
        · obtain ⟨rfl, -⟩ := Effect.written.inj hw
          refine .selected certificateId env.now a ?_
          simpa using hserves
        · cases hw
  | getCertificate | getForDomain | listCertificates => cases h

/-- A selection moves a record that serves, or leaves it. -/
theorem superseded_moves (c : Call) (now : Instant)
    (selected a : Certificate) :
    Certificate.superseded now selected a = a
      ∨ Moves roots c a (Certificate.superseded now selected a)
        ∧ (Certificate.superseded now selected a).serves = false := by
  unfold Certificate.superseded
  split
  · rename_i hothers
    obtain ⟨-, -, hserves⟩ := hothers
    unfold Certificate.serves at hserves
    simp only [Bool.and_eq_true, beq_iff_eq] at hserves
    have hactive : a.state = .active := hserves.2
    have hnone : Certificate.serves
        { a with state := .superseded, updatedAt := now } = false := by
      unfold Certificate.serves
      simp
    refine .inr ⟨?_, hnone⟩
    refine .opened _ ⟨rfl, rfl, rfl, rfl, rfl, rfl, rfl, rfl, rfl, rfl⟩
      (by rw [hactive]; decide) (fun h => nomatch h)
      ⟨rfl, rfl, rfl, rfl, rfl⟩ (fun h => h)
      (fun _ => .inl (by rw [hactive]; rfl)) fun h => ?_
    rw [hnone] at h
    cases h
  · exact .inl rfl

end Yunpanel.Certificates
