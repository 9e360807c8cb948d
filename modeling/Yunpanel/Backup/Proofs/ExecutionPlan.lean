/-
A plan that was made is a plan that can be stored: what
`createBackupExecutionPlan` returns is what `normalizeBackupExecutionPlan`
reads, and it reads it as it is.

# Where the two could drift

- The order. The maker sorts the identities by UTF-16 units, the reader
  wants each greater than the one before by `localeCompare`. The
  identities of resources are of one of four kinds, a label of small
  letters, a colon, and a body of small letters, digits and dashes; on
  those the two orders agree (`weights_lt_of_utf16_lt`), although on
  identifiers at large they do not.
- The fields. Each input the maker writes is the JSON of a typed input
  (`exists_step_of_coreOf`): what the reader tests is what the resource
  was tested for, or what the maker tests itself.
- The digests, which are taken of the same values on both sides.

A plan that is held is read back from its JSON, one lemma for each kind of
input, from the fields outwards: the tests of a field pass on what the
field writes, and the tests between fields are what the types carry.

Two steps of one digest would be refused by the reader, so that the digest
tells the sealed values of one plan apart is a hypothesis.
-/
import Yunpanel.Backup.ExecutionPlan
import Yunpanel.Backup.ExecutionState

namespace Yunpanel.Backup

open Json Lib.Result

variable {host : Host}

-- ====== inputs

@[simp] theorem normalizeEnvironment_json (e : Environment) :
    normalizeEnvironment e.json = .ok e := by
  simp [normalizeEnvironment, Environment.json, exactObject, e.bounded,
    e.complete]

@[simp] theorem normalizeApplicationInput_json (i : ApplicationInput) :
    normalizeApplicationInput i.json = .ok i := by
  simp [normalizeApplicationInput, ApplicationInput.json, exactObject,
    i.desired, i.bounded, i.released]

@[simp] theorem normalizeDatabaseInput_json (i : DatabaseInput) :
    normalizeDatabaseInput host (i.json host) = .ok i := by
  simp [normalizeDatabaseInput, DatabaseInput.json, exactObject]

@[simp] theorem normalizeStorage_json (s : Storage) :
    normalizeStorage s.json = .ok s := by
  show (if h : _ then _ else _) = _
  rw [dif_pos s.keyed, dif_pos s.ok]

@[simp] theorem normalizeDockerInput_json (i : DockerInput) :
    normalizeDockerInput i.json = .ok i := by
  simp [normalizeDockerInput, DockerInput.json, exactObject, i.revised]

@[simp] theorem normalizeMailInput_json (i : MailInput) :
    normalizeMailInput i.json = .ok i := by
  simp [normalizeMailInput, MailInput.json, exactObject, i.revised]

theorem normalizeInput_json (i : Input) :
    normalizeInput host i.resourceType (i.json host) = .ok i := by
  cases i <;> simp [normalizeInput, Input.resourceType, Input.json,
    Except.map]

-- ====== steps

theorem executorKindOf_resourceType (i : Input) :
    executorKindOf i.resourceType = some i.executorKind := by
  cases i <;> rfl

theorem normalizeStep_json (scope : Scope) (step : Step) :
    normalizeStep host scope (step.json host scope) = .ok step := by
  have hinput : normalizeInput host step.input.resourceType
      (step.input.json host) = .ok step.input :=
    normalizeInput_json step.input
  have hkind := executorKindOf_resourceType step.input
  simp [normalizeStep, Step.json, Step.core, exactObject, hinput, hkind]

theorem normalizeSteps_json (scope : Scope) (steps : List Step) :
    (steps.map (Step.json host scope)).mapM (normalizeStep host scope)
      = .ok steps := by
  induction steps with
  | nil => rfl
  | cons step steps ih =>
      rw [List.map_cons, List.mapM_cons, normalizeStep_json, ih]
      rfl

-- ====== plans

/-- A plan that is held is read back from what is stored of it. -/
theorem normalizeBackupExecutionPlan_json (plan : Plan host) :
    normalizeBackupExecutionPlan host plan.json = .ok plan := by
  have hsteps : (plan.steps.map (Step.json host plan.toScope)).mapM
      (normalizeStep host plan.toScope) = .ok plan.steps :=
    normalizeSteps_json plan.toScope plan.steps
  have hsized := plan.sized
  have hok := plan.ok
  simp [normalizeBackupExecutionPlan, Plan.json, Plan.identity, exactObject,
    hsteps, hsized, hok]

-- ====== the order

/-- What an identity begins with. -/
def Resource.label : Resource → List Char
  | .dockerStorage _ =>
      ['d', 'o', 'c', 'k', 'e', 'r', '-', 's', 't', 'o', 'r', 'a', 'g', 'e']
  | .application _ =>
      ['a', 'p', 'p', 'l', 'i', 'c', 'a', 't', 'i', 'o', 'n']
  | .database _ => ['d', 'a', 't', 'a', 'b', 'a', 's', 'e']
  | .mailData _ => ['m', 'a', 'i', 'l', '-', 'd', 'a', 't', 'a']

variable {c : Char} {cores : List Fields} {steps : List Step}
  {plan : BackupPlan} {scope : Scope}

theorem isPlain_of_isHex (h : Text.isHex c = true) :
    Text.isPlain c = true := by
  simp only [Text.isHex, Text.isPlain, Text.isLower, Bool.or_eq_true,
    Bool.and_eq_true, decide_eq_true_eq] at h ⊢
  rcases h with h | ⟨ha, hf⟩
  · exact .inl (.inl h)
  · have hfz : 'f' ≤ 'z' := by decide
    exact .inl (.inr ⟨ha, Char.le_trans hf hfz⟩)

variable {value : Json} {r s : Resource} {current : CurrentPlan}
  {selected : List String}

theorem isPlain_of_mem_digest (h : c ∈ (host.digest value).toList) :
    Text.isPlain c = true := by
  have hhex := host.digest_hex value
  simp only [Text.isSha256, Text.inClass, Bool.and_eq_true] at hhex
  exact isPlain_of_isHex (List.all_eq_true.mp hhex.1.1 c h)

/-- An identity is its label, a colon, and a plain body. -/
theorem exists_body (r : Resource) :
    ∃ body, (r.identity host).toList = r.label ++ ':' :: body
      ∧ ∀ c ∈ body, Text.isPlain c = true := by
  cases r with
  | dockerStorage r =>
      refine ⟨_, String.toList_append .., ?_⟩
      exact fun c hc => isPlain_of_mem_digest hc
  | database r =>
      refine ⟨_, String.toList_append .., ?_⟩
      exact fun c hc => isPlain_of_mem_digest hc
  | mailData r =>
      refine ⟨_, String.toList_append .., ?_⟩
      exact fun c hc => isPlain_of_mem_digest hc
  | application r =>
      refine ⟨_, String.toList_append .., fun c hc => ?_⟩
      rcases r.applicationId.mem_text hc with h | rfl
      · exact isPlain_of_isHex h
      · rfl

theorem append_lt_append_iff (p x y : List Nat) :
    p ++ x < p ++ y ↔ x < y := by
  induction p with
  | nil => rfl
  | cons n p ih => simp [ih]

/-- Two identities of one kind are compared by their bodies. -/
theorem weights_lt_iff_of_label (h : r.label = s.label) :
    Text.weights (r.identity host) < Text.weights (s.identity host)
      ↔ Text.utf16 (r.identity host) < Text.utf16 (s.identity host) := by
  obtain ⟨a, ha, hplain⟩ := @exists_body host r
  obtain ⟨b, hb, hplain'⟩ := @exists_body host s
  unfold Text.weights Text.utf16
  rw [ha, hb, h]
  rw [List.map_append, List.map_append, List.map_cons, List.map_cons,
    List.flatMap_append, List.flatMap_append, List.flatMap_cons,
    List.flatMap_cons, append_lt_append_iff, append_lt_append_iff,
    append_lt_append_iff, List.cons_lt_cons_iff]
  simp [Text.weights_lt_iff hplain hplain']

/-- Two texts are compared by the first letters they differ in. -/
theorem weights_lt_iff_of_diverge (p : List Char) {d : Char}
    (hc : Text.isPlain c = true) (hd : Text.isPlain d = true) (h : c ≠ d)
    (cs ds : List Char) :
    (p ++ c :: cs).map Text.weight < (p ++ d :: ds).map Text.weight
      ↔ (p ++ c :: cs).flatMap Text.unitsOf
        < (p ++ d :: ds).flatMap Text.unitsOf := by
  have hcode : c.toNat ≠ d.toNat := fun he => h (Char.toNat_inj.mp he)
  have hweight : Text.weight c ≠ Text.weight d :=
    fun he => hcode ((Text.weight_eq_iff hc hd).mp he)
  rw [List.map_append, List.map_append, List.map_cons, List.map_cons,
    List.flatMap_append, List.flatMap_append, List.flatMap_cons,
    List.flatMap_cons, append_lt_append_iff, append_lt_append_iff,
    Text.unitsOf_of_isPlain hc, Text.unitsOf_of_isPlain hd,
    List.singleton_append, List.singleton_append, List.cons_lt_cons_iff,
    List.cons_lt_cons_iff, Text.weight_lt_iff hc hd]
  simp [hcode, hweight]

/-- Two identities of different kinds are compared by their labels. -/
theorem weights_lt_iff_of_ne (h : r.label ≠ s.label) :
    Text.weights (r.identity host) < Text.weights (s.identity host)
      ↔ Text.utf16 (r.identity host) < Text.utf16 (s.identity host) := by
  obtain ⟨a, ha, -⟩ := @exists_body host r
  obtain ⟨b, hb, -⟩ := @exists_body host s
  unfold Text.weights Text.utf16
  rw [ha, hb]
  cases r with
  | dockerStorage _ =>
      cases s with
      | dockerStorage _ => exact absurd rfl h
      | application _ =>
          exact weights_lt_iff_of_diverge [] rfl rfl (by decide) _ _
      | database _ =>
          exact weights_lt_iff_of_diverge ['d'] rfl rfl (by decide) _ _
      | mailData _ =>
          exact weights_lt_iff_of_diverge [] rfl rfl (by decide) _ _
  | application _ =>
      cases s with
      | application _ => exact absurd rfl h
      | dockerStorage _ | database _ | mailData _ =>
          exact weights_lt_iff_of_diverge [] rfl rfl (by decide) _ _
  | database _ =>
      cases s with
      | database _ => exact absurd rfl h
      | dockerStorage _ =>
          exact weights_lt_iff_of_diverge ['d'] rfl rfl (by decide) _ _
      | application _ | mailData _ =>
          exact weights_lt_iff_of_diverge [] rfl rfl (by decide) _ _
  | mailData _ =>
      cases s with
      | mailData _ => exact absurd rfl h
      | dockerStorage _ | application _ | database _ =>
          exact weights_lt_iff_of_diverge [] rfl rfl (by decide) _ _

theorem weights_lt_of_utf16_lt
    (h : Text.utf16 (r.identity host) < Text.utf16 (s.identity host)) :
    Text.weights (r.identity host) < Text.weights (s.identity host) := by
  by_cases hlabel : r.label = s.label
  · exact (weights_lt_iff_of_label hlabel).mpr h
  · exact (weights_lt_iff_of_ne hlabel).mpr h

/-- Different identities come in one strict order. -/
theorem weights_lt_of_le
    (hle : Text.utf16 (r.identity host) ≤ Text.utf16 (s.identity host))
    (hne : r.identity host ≠ s.identity host) :
    Text.weights (r.identity host) < Text.weights (s.identity host) :=
  weights_lt_of_utf16_lt
    (lt_of_le_of_ne hle fun he => hne (Text.utf16_injective he))

-- ====== the steps

/-- The storage of a step is one that is read. -/
theorem exists_storage {mount : StorageMount}
    (h : executionStorage mount = .ok value) :
    ∃ storage : Storage, storage.json = value := by
  unfold executionStorage at h
  split at h
  · rename_i kind source sourceScope target readOnly _ _ _ _ _
    split at h
    · rename_i hfields
      split at h
      · cases h
      · rename_i hnamed
        split at h
        · cases h
        · rename_i hbind
          simp only [Bool.and_eq_true] at hfields
          obtain ⟨⟨⟨hkind, hsource⟩, -⟩, htarget⟩ := hfields
          have hproject : sourceScope = "project" := by
            have hkinds : kind = "named_volume" ∨ kind = "bind" := by
              simpa [isOneOf] using hkind
            rcases hkinds with he | he
            · exact not_not.mp fun hne => hnamed ⟨he, hne⟩
            · exact not_not.mp fun hne => hbind ⟨he, hne⟩
          have hok : storageOk [("kind", .str kind),
              ("source", .str source), ("sourceScope", .str sourceScope),
              ("target", .str target), ("readOnly", .bool readOnly)]
              = true := by
            simp [storageOk, hkind, hsource, hproject, htarget]
          rw [← Except.ok.inj h]
          exact ⟨⟨_, rfl, hok⟩, rfl⟩
    · cases h
  · cases h

/-- The input of a step is one that is read. -/
theorem exists_input (h : executionInput host r = .ok value) :
    ∃ input : Input, input.json host = value
      ∧ input.resourceType = r.type
      ∧ input.executorKind = executorKind r := by
  cases r with
  | application r =>
      rw [← Except.ok.inj h]
      exact ⟨.application ⟨r.applicationId, r.applicationType,
        r.desiredRevision, r.appliedRevision, r.currentReleaseId,
        r.currentCommitSha, r.environment, r.desired, r.bounded,
        r.released⟩, rfl, rfl, rfl⟩
  | database r =>
      rw [← Except.ok.inj h]
      exact ⟨.database ⟨r.databaseName, r.engine, r.databaseVersion,
        r.sizeBytes, r.inventoryJobId, r.inventoryRefreshedAt⟩,
        rfl, rfl, rfl⟩
  | dockerStorage r =>
      have hdocker : dockerInput r = .ok value := h
      unfold dockerInput at hdocker
      split at hdocker
      · cases hdocker
      · rename_i hbounds
        split at hdocker
        · cases hdocker
        · rename_i projectId _
          obtain ⟨storage, hstorage, hvalue⟩ := bind_eq_ok.mp hdocker
          obtain ⟨s, hs⟩ := exists_storage hstorage
          have hle : r.projectRevision ≤ 9007199254740991 := by omega
          have hrevised : 1 ≤ r.projectRevision := by omega
          rw [← Except.ok.inj hvalue, ← hs]
          exact ⟨.dockerStorage ⟨projectId, ⟨r.projectRevision, hle⟩,
            r.serviceName, s, hrevised⟩, rfl, rfl, rfl⟩
  | mailData r =>
      have hmail : mailInput r = .ok value := h
      unfold mailInput at hmail
      split at hmail
      · cases hmail
      · rw [← Except.ok.inj hmail]
        exact ⟨.mailData ⟨r.mailDomainId, r.sourceIdentity, r.revision,
          r.snapshotSha256, r.bytes, r.revised⟩, rfl, rfl, rfl⟩

/-- The core of a step is that of a step that is read, and its identity
that of a resource. -/
theorem exists_step_of_coreOf {identity : String} {core : Fields}
    (h : coreOf host current identity = .ok core) :
    ∃ step : Step, step.core host = core
      ∧ step.resourceIdentity.text = identity
      ∧ ∃ r : Resource, r.identity host = identity := by
  unfold coreOf at h
  split at h
  · cases h
  · rename_i r hfind
    split at h
    · cases h
    · split at h
      · rename_i hid
        obtain ⟨value, hvalue, hcore⟩ := bind_eq_ok.mp h
        obtain ⟨input, hinput, htype, hkind⟩ := exists_input hvalue
        have hidentity : r.identity host = identity := by
          simpa using List.find?_some hfind
        refine ⟨⟨⟨identity, hid⟩, input⟩, ?_, rfl, r, hidentity⟩
        rw [← Except.ok.inj hcore]
        unfold Step.core stepCore
        rw [hinput, htype, hkind]
        rfl
      · cases h

/-- The steps of the cores of a selection. -/
theorem exists_steps (h : selected.mapM (coreOf host current) = .ok cores) :
    ∃ steps : List Step, steps.map (Step.core host) = cores
      ∧ steps.map (fun step => step.resourceIdentity.text) = selected
      ∧ ∀ identity ∈ selected, ∃ r : Resource,
          r.identity host = identity := by
  induction selected generalizing cores with
  | nil =>
      obtain rfl : [] = cores := Except.ok.inj h
      exact ⟨[], rfl, rfl, by simp⟩
  | cons identity selected ih =>
      rw [List.mapM_cons] at h
      obtain ⟨core, hcore, hrest⟩ := bind_eq_ok.mp h
      obtain ⟨cores', hcores, hcons⟩ := bind_eq_ok.mp hrest
      obtain ⟨step, hstep, htext, hr⟩ := exists_step_of_coreOf hcore
      obtain ⟨steps, hsteps, htexts, hrs⟩ := ih hcores
      refine ⟨step :: steps, ?_, ?_, List.forall_mem_cons.mpr ⟨hr, hrs⟩⟩
      · rw [List.map_cons, hstep, hsteps]
        exact Except.ok.inj hcons
      · rw [List.map_cons, htext, htexts]

theorem ordered_of_pairwise (h : steps.Pairwise fun a b =>
      Text.localeCompare b.resourceIdentity.text a.resourceIdentity.text
        = .gt) : ordered steps = true := by
  induction steps with
  | nil => rfl
  | cons a steps ih =>
      cases steps with
      | nil => rfl
      | cons b steps =>
          obtain ⟨ha, hrest⟩ := List.pairwise_cons.mp h
          rw [ordered, ha b (by simp), ih hrest]
          rfl

/-- A sorted selection of resources gives ordered steps. -/
theorem ordered_of_sorted
    (htexts : steps.map (fun step => step.resourceIdentity.text) = selected)
    (hsorted : selected.Pairwise fun a b => Text.utf16 a ≤ Text.utf16 b)
    (hnodup : selected.Nodup)
    (hresources : ∀ identity ∈ selected, ∃ r : Resource,
      r.identity host = identity) : ordered steps = true := by
  have hpair : selected.Pairwise fun a b =>
      Text.localeCompare b a = .gt := by
    refine (hsorted.and hnodup).imp_of_mem fun {a b} ha hb hab => ?_
    obtain ⟨r, rfl⟩ := hresources a ha
    obtain ⟨s, rfl⟩ := hresources b hb
    exact Text.localeCompare_eq_gt (weights_lt_of_le hab.1 hab.2)
  rw [← htexts, List.pairwise_map] at hpair
  exact ordered_of_pairwise hpair

-- ====== the plan

theorem selectionMode_of_selectResources {resources : List Resource}
    {requested : Option (List String)} {mode : String}
    (h : selectResources host resources requested = .ok (mode, selected)) :
    isOneOf ["all_managed", "explicit"] mode = true := by
  cases requested with
  | none =>
      obtain ⟨rfl, -⟩ := Prod.mk.inj (Except.ok.inj h)
      rfl
  | some requested =>
      obtain ⟨-, -, hrest⟩ := bind_eq_ok.mp h
      obtain ⟨rfl, -⟩ := Prod.mk.inj (Except.ok.inj hrest)
      rfl

theorem selectionMode_of_createBackupPlan {manifest databases mail graph
    selection : Json}
    (h : createBackupPlan host manifest databases mail graph selection
      = .ok plan) :
    isOneOf ["all_managed", "explicit"] plan.selectionMode = true := by
  obtain ⟨manifest', -, h⟩ := bind_eq_ok.mp h
  obtain ⟨databases', -, h⟩ := bind_eq_ok.mp h
  obtain ⟨mail', -, h⟩ := bind_eq_ok.mp h
  obtain ⟨-, -, h⟩ := bind_eq_ok.mp h
  obtain ⟨-, -, h⟩ := bind_eq_ok.mp h
  obtain ⟨dependencies, -, h⟩ := bind_eq_ok.mp h
  obtain ⟨requested, -, h⟩ := bind_eq_ok.mp h
  obtain ⟨⟨mode, selected⟩, hselect, h⟩ := bind_eq_ok.mp h
  obtain ⟨-, -, h⟩ := bind_eq_ok.mp h
  rw [← Except.ok.inj h]
  exact selectionMode_of_selectResources hselect

/-- What is checked of a preview before anything is made of it. -/
theorem exists_scope (h : normalizeCurrentPlan host plan = .ok current) :
    (∃ scope : Scope, current.serverId = scope.serverId.text
        ∧ current.previewDigest = scope.previewDigest.text)
      ∧ current.selectionMode = plan.selectionMode
      ∧ current.selected.Nodup
      ∧ (current.selected.Pairwise fun a b => Text.utf16 a ≤ Text.utf16 b)
      ∧ current.selected.length ≤ 8192 := by
  unfold normalizeCurrentPlan at h
  dsimp only at h
  split at h
  case isFalse => cases h
  rename_i hshape
  split at h
  case isFalse => cases h
  rename_i hnodup
  have hserver : Text.shape uuidShape
      (String.ofList (Text.lower plan.serverId.toList)).toList = true := by
    rw [String.toList_ofList]
    exact hshape.1
  have hperm := Text.sort_perm plan.selectedResourceIdentities
  rw [← Except.ok.inj h]
  refine ⟨⟨⟨⟨_, hserver⟩, ⟨_, hshape.2.1⟩⟩, rfl, rfl⟩, rfl,
    hperm.nodup_iff.mpr hnodup.2, Text.pairwise_sort _, ?_⟩
  show (Text.sort plan.selectedResourceIdentities).length ≤ 8192
  rw [hperm.length_eq]
  exact hshape.2.2.2

/-- What is made of a preview is the plan of the cores of its
selection. -/
theorem exists_cores {expectedPreviewDigest
    confirmation : String}
    (h : createBackupExecutionPlan host plan expectedPreviewDigest
      confirmation = .ok value) :
    ∃ current cores, normalizeCurrentPlan host plan = .ok current
      ∧ current.selected.mapM (coreOf host current) = .ok cores
      ∧ cores.length ≠ 0
      ∧ executionPlanJson host current cores = value := by
  obtain ⟨current, hcurrent, h⟩ := bind_eq_ok.mp h
  split at h
  case isFalse => cases h
  split at h
  case isFalse => cases h
  split at h
  case isFalse => cases h
  obtain ⟨cores, hcores, h⟩ := bind_eq_ok.mp h
  split at h
  case isTrue => cases h
  rename_i hwork
  exact ⟨current, cores, hcurrent, hcores, fun h0 => hwork (.inl h0),
    Except.ok.inj h⟩

theorem filterMap_coreOf
    (h : selected.mapM (coreOf host current) = .ok cores) :
    (selected.filterMap fun identity =>
        match coreOf host current identity with
        | .error _ => none
        | .ok core => some (sealedStep current core))
      = cores.map (sealedStep current) := by
  induction selected generalizing cores with
  | nil =>
      obtain rfl : [] = cores := Except.ok.inj h
      rfl
  | cons identity selected ih =>
      rw [List.mapM_cons] at h
      obtain ⟨core, hcore, hrest⟩ := bind_eq_ok.mp h
      obtain ⟨cores', hcores, hcons⟩ := bind_eq_ok.mp hrest
      obtain rfl : core :: cores' = cores := Except.ok.inj hcons
      rw [List.filterMap_cons_some (b := sealedStep current core)
        (by rw [hcore]), ih hcores]
      rfl

/-- Where the digest tells the seals of the steps apart, so it does their
ids. -/
theorem nodup_stepIds (hserver : current.serverId = scope.serverId.text)
    (hpreview : current.previewDigest = scope.previewDigest.text)
    (hids : (steps.map fun step => step.resourceIdentity.text).Nodup)
    (hdigest : host.Distinguishes
      ((steps.map (Step.core host)).map (sealedStep current))) :
    (steps.map (Step.stepId host scope)).Nodup := by
  rw [List.Nodup, List.pairwise_map] at hids ⊢
  refine hids.imp_of_mem fun {a b} ha hb hne hsame => hne ?_
  have hseal : ∀ step : Step, step.stepDigest host scope
      = host.digest (sealedStep current (step.core host)) := by
    intro step
    unfold Step.stepDigest sealedStep
    rw [hserver, hpreview]
    rfl
  have hmem : ∀ step ∈ steps, sealedStep current (step.core host)
      ∈ (steps.map (Step.core host)).map (sealedStep current) :=
    fun step hstep => List.mem_map_of_mem (List.mem_map_of_mem hstep)
  have hdig : host.digest (sealedStep current (a.core host))
      = host.digest (sealedStep current (b.core host)) := by
    rw [← hseal, ← hseal]
    exact (String.append_right_inj _).mp hsame
  have hcore := hdigest _ (hmem a ha) _ (hmem b hb) hdig
  have hfields : a.core host = b.core host := by
    simpa [sealedStep] using hcore
  simpa [Step.core, Matching.json] using congrArg List.head? hfields

/-- The plan of the cores of a selection is one that is read. -/
theorem exists_stored (hserver : current.serverId = scope.serverId.text)
    (hpreview : current.previewDigest = scope.previewDigest.text)
    (hmode : isOneOf ["all_managed", "explicit"] current.selectionMode
      = true) (hnodup : current.selected.Nodup)
    (hsorted : current.selected.Pairwise
      fun a b => Text.utf16 a ≤ Text.utf16 b)
    (hlength : current.selected.length ≤ 8192)
    (hcores : current.selected.mapM (coreOf host current) = .ok cores)
    (hwork : cores.length ≠ 0)
    (hdigest : host.Distinguishes (cores.map (sealedStep current))) :
    ∃ stored : Plan host,
      stored.json = executionPlanJson host current cores := by
  obtain ⟨steps, rfl, htexts, hresources⟩ := exists_steps hcores
  have hids : (steps.map fun step => step.resourceIdentity.text).Nodup :=
    htexts ▸ hnodup
  have hidentities : (steps.map Step.resourceIdentity).Nodup := by
    have hmap : (steps.map Step.resourceIdentity).map Matching.text
        = steps.map fun step => step.resourceIdentity.text := by
      rw [List.map_map]
      rfl
    exact List.Nodup.of_map Matching.text (hmap ▸ hids)
  have hok : stepsOk host scope steps = true := by
    have hstepIds := nodup_stepIds hserver hpreview hids hdigest
    have hordered := ordered_of_sorted htexts hsorted hnodup hresources
    simp [stepsOk, hstepIds, hidentities, hordered]
  have hsized : 1 ≤ steps.length ∧ steps.length ≤ 8192 := by
    rw [← htexts, List.length_map] at hlength
    rw [List.length_map] at hwork
    omega
  refine ⟨{ scope with
    selectionMode := ⟨current.selectionMode, hmode⟩, steps := steps
    sized := hsized, ok := hok }, ?_⟩
  have hsteps : (steps.map (Step.core host)).map (sealStep host current)
      = steps.map (Step.json host scope) := by
    rw [List.map_map]
    refine List.map_congr_left fun step _ => ?_
    show sealStep host current (step.core host) = _
    unfold sealStep sealedStep
    rw [hserver, hpreview]
    rfl
  unfold executionPlanJson
  rw [hsteps, hserver, hpreview]
  rfl

/-- For every manifest, resources, graph and selection of which a preview
was made: the execution plan made of the preview is read back from its
JSON, and as it is. -/
theorem created_plan_is_fixed (host : Host) (manifest databases mail graph
    selection : Json) (plan : BackupPlan)
    (expectedPreviewDigest confirmation : String) (value : Json)
    (hplan : createBackupPlan host manifest databases mail graph selection
      = .ok plan)
    (hvalue : createBackupExecutionPlan host plan expectedPreviewDigest
      confirmation = .ok value)
    (hdigest : host.Distinguishes (sealedSteps host plan)) :
    ∃ stored : Plan host,
      normalizeBackupExecutionPlan host value = .ok stored
        ∧ stored.json = value := by
  obtain ⟨current, cores, hcurrent, hcores, hwork, rfl⟩ :=
    exists_cores hvalue
  obtain ⟨⟨scope, hserver, hpreview⟩, hsame, hnodup, hsorted, hlength⟩ :=
    exists_scope hcurrent
  have hmode : isOneOf ["all_managed", "explicit"] current.selectionMode
      = true := hsame ▸ selectionMode_of_createBackupPlan hplan
  have hseals : sealedSteps host plan
      = cores.map (sealedStep current) := by
    unfold sealedSteps
    rw [hcurrent]
    exact filterMap_coreOf hcores
  obtain ⟨stored, hstored⟩ := exists_stored hserver hpreview hmode hnodup
    hsorted hlength hcores hwork (hseals ▸ hdigest)
  exact ⟨stored, hstored ▸ normalizeBackupExecutionPlan_json stored,
    hstored⟩

-- ====== an instance

/-- The SHA-256 of the four values sealed below. -/
def exampleDigest (value : Json) : String :=
  let fields : Fields := (value.object?).getD []
  if fields.get "manifestVersion" = .num 1 then
    "9cb4cbbe7d6c0caf8556ab15580ee4f0b78d3df8e8d8021d99ee019037de61bf"
  else if fields.get "resourceIdentity"
      = .str "application:1dff50cb-0840-413c-a9d1-d069f8e87743" then
    "cfcb6a19a65845c2eb5fb7b21cb31963885b999bb1bf6ba013be3abb8bc8530b"
  else if fields.get "resourceIdentity"
      = .str "application:84e0ccf3-13b7-4abe-b8aa-68fc22d6f2c8" then
    "3d3cf853b78326863cfce9d5390b24c2b89e3d7b01bd4a77435beaa046a1e948"
  else "98a3e3af0f8a6c098b28ee0c5ba27c2f4d64d0e4036805e9a654ee2bc046f0e2"

def exampleTime : Instant := ⟨1789329600000⟩

/-- The text of one instant; every other one counts its milliseconds. -/
def exampleIso (t : Instant) : String :=
  if t = exampleTime then "2026-09-13T20:00:00.000Z"
  else
    match t.ms with
    | .ofNat n => String.ofList ('+' :: List.replicate n '.')
    | .negSucc n => String.ofList ('-' :: List.replicate n '.')

def exampleParse (s : String) : Option Instant :=
  match s.toList with
  | '+' :: cs => some ⟨.ofNat cs.length⟩
  | '-' :: cs => some ⟨.negSucc cs.length⟩
  | _ => if s = "2026-09-13T20:00:00.000Z" then some exampleTime else none

theorem exampleParse_iso (t : Instant) :
    exampleParse (exampleIso t) = some t := by
  unfold exampleIso
  split
  · rename_i h
    rw [h]
    rfl
  · obtain ⟨ms⟩ := t
    cases ms <;> simp [exampleParse]

def exampleHost : Host where
  digest := exampleDigest
  digest_hex value := by
    unfold exampleDigest
    dsimp only
    split
    · decide
    · split
      · decide
      · split <;> decide
  parseDate := exampleParse
  isoDate := exampleIso
  parse_iso := exampleParse_iso

/-- An application that was never released. -/
def exampleApplication (applicationId name : String) : Json :=
  .obj [("identity", .str ("application:" ++ applicationId)),
    ("type", .str "application"),
    ("serverId", .str "6f2cc8d7-995f-4c20-b9a8-e2ce07b760d7"),
    ("applicationId", .str applicationId), ("name", .str name),
    ("applicationType", .str "static"),
    ("snapshot", .obj [("desiredRevision", .num 1),
      ("appliedRevision", .num 0), ("currentReleaseId", .null),
      ("currentCommitSha", .null), ("environment", .null)]),
    ("policy", .obj [("disposition", .str "include"),
      ("reason", .str "managed_application")])]

/-- The manifest of a server with two of them. -/
def exampleManifest : Json :=
  .obj [("version", .num 1), ("createdAt", .str "2026-09-13T20:00:00.000Z"),
    ("serverId", .str "6f2cc8d7-995f-4c20-b9a8-e2ce07b760d7"),
    ("resources", .arr [
      exampleApplication "84e0ccf3-13b7-4abe-b8aa-68fc22d6f2c8"
        "Storefront",
      exampleApplication "1dff50cb-0840-413c-a9d1-d069f8e87743" "Blog"]),
    ("counts", .obj [("total", .num 2), ("included", .num 2),
      ("excluded", .num 0), ("rejected", .num 0)])]

def examplePreviewDigest : String :=
  "9cb4cbbe7d6c0caf8556ab15580ee4f0b78d3df8e8d8021d99ee019037de61bf"

def examplePreview : Except PlanError BackupPlan :=
  createBackupPlan exampleHost exampleManifest (.arr []) (.arr []) .null
    .null

def exampleExecution (plan : BackupPlan) : Except ExecutionError Json :=
  createBackupExecutionPlan exampleHost plan examplePreviewDigest
    ("backup:6f2cc8d7-995f-4c20-b9a8-e2ce07b760d7:" ++ examplePreviewDigest)

/-- Whether a preview is made, and a plan of it, and its seals differ. -/
def exampleMade : Bool :=
  match examplePreview with
  | .error _ => false
  | .ok plan =>
      (match exampleExecution plan with
        | .error _ => false
        | .ok _ => true)
      && (sealedSteps exampleHost plan).all fun a =>
          (sealedSteps exampleHost plan).all fun b =>
            exampleHost.digest a != exampleHost.digest b || a == b

theorem created_plan_is_fixed_two : ∃ plan value,
    examplePreview = .ok plan ∧ exampleExecution plan = .ok value
      ∧ ∃ stored : Plan exampleHost,
        normalizeBackupExecutionPlan exampleHost value = .ok stored
          ∧ stored.json = value := by
  have hmade : exampleMade = true := by decide +kernel
  unfold exampleMade at hmade
  cases hplan : examplePreview with
  | error e =>
      rw [hplan] at hmade
      cases hmade
  | ok plan =>
      rw [hplan] at hmade
      cases hvalue : exampleExecution plan with
      | error e => simp [hvalue] at hmade
      | ok value =>
          simp only [hvalue, Bool.true_and, List.all_eq_true, Bool.or_eq_true,
            bne_iff_ne, beq_iff_eq] at hmade
          have hdigest : exampleHost.Distinguishes
              (sealedSteps exampleHost plan) := by
            intro a ha b hb hsame
            exact (hmade a ha b hb).resolve_left fun hne => hne hsame
          exact ⟨plan, value, rfl, hvalue,
            created_plan_is_fixed exampleHost exampleManifest (.arr [])
              (.arr []) .null .null plan examplePreviewDigest _ value hplan
              hvalue hdigest⟩

example : Text.isHex 'f' = true := by decide +kernel

end Yunpanel.Backup
