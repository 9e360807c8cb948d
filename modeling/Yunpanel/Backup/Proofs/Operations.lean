/-
The registry of backup operations over whole runs.

# The shape of the argument

`Progress` lists the four ways an operation changes, and
`change_of_transform` says that every transform appends a queued operation
or makes one of these changes to one operation. Everything else is derived
from that: at most one operation of a server is active (`OneActive`), an
operation only moves forward (`Extends`), so that what a call once did
stays done and repeating it changes nothing (`Done`), and the steps keep
their order where each link names the first step that has not succeeded
(`Shaped`).

That a stored operation is read back is a fact about the type alone, since
an `Operation` carries what the reader tests.
-/
import Yunpanel.Backup.Operations
import Yunpanel.Backup.Proofs.ExecutionPlan

namespace Yunpanel.Backup

open Json Lib Lib.Result

variable {host : Host}

-- ====== round trip

theorem normalizeError_json (e : StepError) :
    normalizeError e.json = .ok e := by
  simp [normalizeError, StepError.json, exactObject]

theorem normalizeWorkRef_json (w : WorkRef) :
    normalizeWorkRef w.json = .ok w := by
  simp [normalizeWorkRef, WorkRef.json, exactObject]

theorem normalizeEvidence_json (e : Evidence) :
    normalizeEvidence host (e.json host) = .ok e := by
  simp [normalizeEvidence, Evidence.json, exactObject]

theorem orNull_ofOption {α : Type}
    {normalize : Json → Except OperationFailure α} {write : α → Json}
    (hnull : ∀ a, write a ≠ .null) (h : ∀ a, normalize (write a) = .ok a)
    (x : Option α) : orNull normalize (ofOption write x) = .ok x := by
  cases x with
  | none => rfl
  | some a =>
      show (if write a = .null then _ else (normalize (write a)).map some) = _
      rw [if_neg (hnull a), h]
      rfl

@[simp] theorem orNull_error (x : Option StepError) :
    orNull normalizeError (ofOption StepError.json x) = .ok x :=
  orNull_ofOption (fun _ h => Json.noConfusion h) normalizeError_json x

@[simp] theorem orNull_workRef (x : Option WorkRef) :
    orNull normalizeWorkRef (ofOption WorkRef.json x) = .ok x :=
  orNull_ofOption (fun _ h => Json.noConfusion h) normalizeWorkRef_json x

@[simp] theorem orNull_evidence (x : Option Evidence) :
    orNull (normalizeEvidence host) (ofOption (Evidence.json host) x)
      = .ok x :=
  orNull_ofOption (fun _ h => Json.noConfusion h) normalizeEvidence_json x

/-- A state is what its status and its parts make. -/
@[simp] theorem ofParts?_state (s : StepState) :
    StepState.ofParts? s.status s.workRef s.evidence s.error = .ok s := by
  cases s <;> rfl

theorem normalizeStepRecord_json (r : StepRecord) :
    normalizeStepRecord host r.stepId (r.json host) = .ok r := by
  have hstatus : Option.filter
      (isOneOf ["pending", "dispatched", "succeeded", "failed"])
      (some r.state.status) = some r.state.status := by
    cases r.state <;> rfl
  simp [normalizeStepRecord, StepRecord.json, exactObject, hstatus]

theorem normalizeStepRecords_json (rs : List StepRecord) :
    normalizeStepRecords host (rs.map StepRecord.stepId)
      (rs.map (StepRecord.json host)) = .ok rs := by
  induction rs with
  | nil => rfl
  | cons r rs ih =>
      simp [normalizeStepRecords, normalizeStepRecord_json, ih]

/-- A phase is what its status and its parts make. -/
@[simp] theorem ofParts?_phase (p : Phase) :
    Phase.ofParts? p.status p.startedAt p.finishedAt p.error = some p := by
  cases p <;> rfl

theorem build_self (op : Operation host) :
    Operation.build op.id op.plan op.steps op.createdAt op.phase
      = .ok op := by
  unfold Operation.build
  rw [dif_pos op.aligned, dif_pos op.ok]

/-- An operation that is held is read back from what is stored of it. -/
theorem normalizeOperation_json (op : Operation host) :
    normalizeOperation host op.json = .ok op := by
  have hplan := normalizeBackupExecutionPlan_json op.plan
  have hstatus : Option.filter
      (isOneOf ["queued", "running", "succeeded", "failed"])
      (some op.phase.status) = some op.phase.status := by
    cases op.phase <;> rfl
  have hsteps : normalizeStepRecords host
      (op.plan.steps.map (Step.stepId host op.plan.toScope))
      (op.steps.map (StepRecord.json host)) = .ok op.steps := by
    rw [← op.aligned]
    exact normalizeStepRecords_json op.steps
  have hlength : op.steps.length = op.plan.steps.length := by
    simpa using congrArg List.length op.aligned
  simp [normalizeOperation, Operation.json, exactObject, hplan, hstatus,
    hsteps, hlength, Except.mapError, build_self, Matching.json]

theorem normalizeOperations_json (ops : List (Operation host)) :
    ops.mapM (normalizeOperation host ∘ Operation.json) = .ok ops := by
  induction ops with
  | nil => rfl
  | cons op ops ih =>
      rw [List.mapM_cons, Function.comp_apply, normalizeOperation_json, ih]
      rfl

/-- A store whose operations have distinct ids and keys is read back. -/
theorem normalizeStore_json {ops : List (Operation host)}
    (hids : (ops.map Operation.id).Nodup)
    (hkeys : (ops.map fun op => op.plan.idempotencyKey).Nodup) :
    normalizeStore host (storeJson ops) = .ok ops := by
  simp [normalizeStore, storeJson, exactObject, normalizeOperations_json,
    hids, hkeys]

/-- Whatever is read from what was stored is what was stored. -/
theorem eq_of_normalizeStore {ops ops' : List (Operation host)}
    (h : normalizeStore host (storeJson ops) = .ok ops') : ops' = ops := by
  by_cases hdistinct : (ops.map Operation.id).Nodup
      ∧ (ops.map fun op => op.plan.idempotencyKey).Nodup
  · rw [normalizeStore_json hdistinct.1 hdistinct.2] at h
    exact (Except.ok.inj h).symm
  · simp [normalizeStore, storeJson, exactObject, normalizeOperations_json,
      hdistinct] at h

-- ====== changes

/-- How the steps and the phase of an operation change. -/
inductive Moves :
    List StepRecord → Phase → List StepRecord → Phase → Prop where
  | started (steps : List StepRecord) (now : Instant) :
      Moves steps .queued steps (.running now)
  | linked {steps : List StepRecord} {k : Nat} {r : StepRecord}
      (startedAt now : Instant) (w : WorkRef) (hk : steps[k]? = some r)
      (hr : r.state = .pending) :
      Moves steps (.running startedAt)
        (steps.set k (r.moved (.dispatched w) now)) (.running startedAt)
  | completed {steps : List StepRecord} {k : Nat} {r : StepRecord}
      (startedAt now : Instant) (w : WorkRef) (e : Evidence) {phase : Phase}
      (hk : steps[k]? = some r) (hr : r.state = .dispatched w)
      (hphase : phase = .running startedAt
        ∨ phase = .succeeded startedAt now) :
      Moves steps (.running startedAt)
        (steps.set k (r.moved (.succeeded w e) now)) phase
  | failed {steps : List StepRecord} {k : Nat} {r : StepRecord}
      (startedAt now : Instant) (w : WorkRef) (x : StepError)
      (hk : steps[k]? = some r) (hr : r.state = .dispatched w) :
      Moves steps (.running startedAt)
        (steps.set k (r.moved (.failed w x) now)) (.failed startedAt now x)

/-- An operation after a change to it. -/
structure Progress (op op' : Operation host) : Prop where
  id : op'.id = op.id
  plan : op'.plan = op.plan
  moves : Moves op.steps op.phase op'.steps op'.phase

/-- The operations after a call that changed them. -/
inductive Changes (ops : List (Operation host)) :
    List (Operation host) → Prop where
  | created (op : Operation host) (hqueued : op.phase = .queued)
      (hpending : ∀ r ∈ op.steps, r.state = .pending)
      (hfree : ∀ other ∈ ops, other.plan.serverId = op.plan.serverId →
        other.phase.isActive = false)
      (hkey : ∀ other ∈ ops,
        other.plan.idempotencyKey ≠ op.plan.idempotencyKey) :
      Changes ops (ops ++ [op])
  | progressed {i : Nat} {op op' : Operation host} (hi : ops[i]? = some op)
      (h : Progress op op') : Changes ops (ops.set i op')

variable {id : Uuid} {s w : Json} {randomId : String}

theorem build_eq_ok {plan : Plan host} {steps : List StepRecord}
    {createdAt : Instant} {phase : Phase} {op : Operation host}
    (h : Operation.build id plan steps createdAt phase = .ok op) :
    op.id = id ∧ op.plan = plan ∧ op.steps = steps ∧ op.phase = phase := by
  unfold Operation.build at h
  split at h
  · split at h
    · rw [← Except.ok.inj h]
      exact ⟨rfl, rfl, rfl, rfl⟩
    · cases h
  · cases h

theorem locate_of_findOperation {ops : List (Operation host)}
    {found : Nat × Operation host} (h : findOperation ops id = .ok found) :
    locate (fun op : Operation host => op.id == id) ops = some found := by
  unfold findOperation at h
  split at h
  · rename_i hlocate
    rw [hlocate, Except.ok.inj h]
  · cases h

theorem locate_of_findStep {op : Operation host} {stepId : ResourceId}
    {found : Nat × StepRecord} (h : findStep op stepId = .ok found) :
    locate (fun r : StepRecord => r.stepId == stepId.text) op.steps
      = some found := by
  unfold findStep at h
  split at h
  · rename_i hlocate
    rw [hlocate, Except.ok.inj h]
  · cases h

theorem eq_of_assert {α : Type} {message : String} {x : Option α} {a : α}
    (h : assert message x = .ok a) : x = some a := by
  cases x with
  | none => cases h
  | some b => rw [Except.ok.inj h]

/-- What a request about a step finds: the operation, the step, and the
work it names. -/
structure Target (ops : List (Operation host))
    (operationId stepId workRef : Json) where
  id : Uuid
  step : ResourceId
  work : WorkRef
  index : Nat
  op : Operation host
  stepIndex : Nat
  record : StepRecord
  readId : Uuid.read? operationId = some id
  readStep : Matching.read? stepId = some step
  readWork : normalizeWorkRef workRef = .ok work
  foundOp : findOperation ops id = .ok (index, op)
  foundStep : findStep op step = .ok (stepIndex, record)

namespace Target

variable {ops : List (Operation host)} {operationId stepId workRef : Json}
  (t : Target ops operationId stepId workRef)

theorem getElem?_op : ops[t.index]? = some t.op :=
  getElem?_of_locate (locate_of_findOperation t.foundOp)

theorem getElem?_record : t.op.steps[t.stepIndex]? = some t.record :=
  getElem?_of_locate (locate_of_findStep t.foundStep)

/-- A request finds one step. -/
theorem unique (t' : Target ops operationId stepId workRef) : t' = t := by
  obtain ⟨id, step, work, i, op, k, r, hid, hstep, hwork, hop, hr⟩ := t
  obtain ⟨id', step', work', i', op', k', r', hid', hstep', hwork', hop',
    hr'⟩ := t'
  obtain rfl : id' = id := Option.some.inj (hid'.symm.trans hid)
  obtain rfl : step' = step := Option.some.inj (hstep'.symm.trans hstep)
  obtain rfl : work' = work := Except.ok.inj (hwork'.symm.trans hwork)
  obtain ⟨rfl, rfl⟩ :=
    Prod.mk.inj (Except.ok.inj (hop'.symm.trans hop))
  obtain ⟨rfl, rfl⟩ := Prod.mk.inj (Except.ok.inj (hr'.symm.trans hr))
  rfl

end Target

variable {now : Instant} {o : Json}

/-- What `linkStep` does where it is accepted. -/
theorem linkStep_eq_ok {ops : List (Operation host)} {change : Change host}
    (h : linkStep now o s w ops = .ok change) :
    ∃ t : Target ops o s w,
      (t.record.state = .dispatched t.work ∧ change = .same t.op)
        ∨ (t.record.state = .pending ∧ ∃ op', Progress t.op op'
          ∧ op'.steps = t.op.steps.set t.stepIndex
            (t.record.moved (.dispatched t.work) now)
          ∧ change = replaceOperation ops t.index op') := by
  obtain ⟨id, hid, h⟩ := bind_eq_ok.mp h
  obtain ⟨step, hstep, h⟩ := bind_eq_ok.mp h
  obtain ⟨work, hwork, h⟩ := bind_eq_ok.mp h
  obtain ⟨⟨index, op⟩, hop, h⟩ := bind_eq_ok.mp h
  dsimp only at h
  split at h
  case isFalse => cases h
  rename_i hrunning
  obtain ⟨⟨stepIndex, record⟩, hrecord, h⟩ := bind_eq_ok.mp h
  let t : Target ops o s w := ⟨id, step, work, index, op, stepIndex, record,
    eq_of_assert hid, eq_of_assert hstep, hwork, hop, hrecord⟩
  refine ⟨t, ?_⟩
  dsimp only at h
  split at h
  · rename_i hsame
    exact .inl ⟨hsame, (Except.ok.inj h).symm⟩
  · split at h
    case isFalse => cases h
    rename_i hpending
    obtain ⟨op', hbuild, h⟩ := bind_eq_ok.mp h
    obtain ⟨hid', hplan', hsteps', hphase'⟩ := build_eq_ok hbuild
    refine .inr ⟨hpending, op', ⟨hid', hplan', ?_⟩, hsteps',
      (Except.ok.inj h).symm⟩
    show Moves op.steps op.phase op'.steps op'.phase
    rw [hsteps', hphase']
    cases hphase : op.phase with
    | running startedAt =>
        exact .linked startedAt now work t.getElem?_record hpending
    | queued | succeeded _ _ | failed _ _ _ =>
        rw [hphase] at hrunning
        cases hrunning

/-- What `succeedStep` does where it is accepted. -/
theorem succeedStep_eq_ok {e : Json} {ops : List (Operation host)}
    {change : Change host} (h : succeedStep now o s w e ops = .ok change) :
    ∃ (t : Target ops o s w) (evidence : Evidence),
      normalizeEvidence host e = .ok evidence
      ∧ ((t.record.state = .succeeded t.work evidence
            ∧ change = .same t.op)
        ∨ (t.record.state = .dispatched t.work ∧ ∃ op', Progress t.op op'
          ∧ op'.steps = t.op.steps.set t.stepIndex
            (t.record.moved (.succeeded t.work evidence) now)
          ∧ change = replaceOperation ops t.index op')) := by
  obtain ⟨id, hid, h⟩ := bind_eq_ok.mp h
  obtain ⟨step, hstep, h⟩ := bind_eq_ok.mp h
  obtain ⟨work, hwork, h⟩ := bind_eq_ok.mp h
  obtain ⟨evidence, hevidence, h⟩ := bind_eq_ok.mp h
  obtain ⟨⟨index, op⟩, hop, h⟩ := bind_eq_ok.mp h
  obtain ⟨⟨stepIndex, record⟩, hrecord, h⟩ := bind_eq_ok.mp h
  let t : Target ops o s w := ⟨id, step, work, index, op, stepIndex, record,
    eq_of_assert hid, eq_of_assert hstep, hwork, hop, hrecord⟩
  refine ⟨t, evidence, hevidence, ?_⟩
  dsimp only at h
  split at h
  · split at h
    case isFalse => cases h
    rename_i hsame
    exact .inl ⟨hsame, (Except.ok.inj h).symm⟩
  · split at h
    case h_2 => cases h
    rename_i startedAt hphase
    split at h
    case isFalse => cases h
    rename_i hdispatched
    obtain ⟨op', hbuild, h⟩ := bind_eq_ok.mp h
    obtain ⟨hid', hplan', hsteps', hphase'⟩ := build_eq_ok hbuild
    refine .inr ⟨hdispatched, op', ⟨hid', hplan', ?_⟩, hsteps',
      (Except.ok.inj h).symm⟩
    show Moves op.steps op.phase op'.steps op'.phase
    rw [hsteps', hphase]
    refine .completed startedAt now work evidence t.getElem?_record
      hdispatched ?_
    rw [hphase']
    split
    · exact .inr rfl
    · exact .inl rfl

/-- What `failStep` does where it is accepted. -/
theorem failStep_eq_ok {x : Json} {ops : List (Operation host)}
    {change : Change host} (h : failStep now o s w x ops = .ok change) :
    ∃ (t : Target ops o s w) (error : StepError),
      normalizeError x = .ok error
      ∧ ((t.record.state = .failed t.work error ∧ change = .same t.op)
        ∨ (t.record.state = .dispatched t.work ∧ ∃ op', Progress t.op op'
          ∧ op'.steps = t.op.steps.set t.stepIndex
            (t.record.moved (.failed t.work error) now)
          ∧ change = replaceOperation ops t.index op')) := by
  obtain ⟨id, hid, h⟩ := bind_eq_ok.mp h
  obtain ⟨step, hstep, h⟩ := bind_eq_ok.mp h
  obtain ⟨work, hwork, h⟩ := bind_eq_ok.mp h
  obtain ⟨error, herror, h⟩ := bind_eq_ok.mp h
  obtain ⟨⟨index, op⟩, hop, h⟩ := bind_eq_ok.mp h
  obtain ⟨⟨stepIndex, record⟩, hrecord, h⟩ := bind_eq_ok.mp h
  let t : Target ops o s w := ⟨id, step, work, index, op, stepIndex, record,
    eq_of_assert hid, eq_of_assert hstep, hwork, hop, hrecord⟩
  refine ⟨t, error, herror, ?_⟩
  dsimp only at h
  split at h
  · split at h
    case isFalse => cases h
    rename_i hsame
    exact .inl ⟨hsame, (Except.ok.inj h).symm⟩
  · split at h
    case h_2 => cases h
    rename_i startedAt hphase
    split at h
    case isFalse => cases h
    rename_i hdispatched
    obtain ⟨op', hbuild, h⟩ := bind_eq_ok.mp h
    obtain ⟨hid', hplan', hsteps', hphase'⟩ := build_eq_ok hbuild
    refine .inr ⟨hdispatched, op', ⟨hid', hplan', ?_⟩, hsteps',
      (Except.ok.inj h).symm⟩
    show Moves op.steps op.phase op'.steps op'.phase
    rw [hsteps', hphase, hphase']
    exact .failed startedAt now work error t.getElem?_record hdispatched

/-- What `start` does where it is accepted. -/
theorem start_eq_ok {ops : List (Operation host)} {change : Change host}
    (h : start now o ops = .ok change) :
    ∃ (id : Uuid) (index : Nat) (op : Operation host),
      Uuid.read? o = some id ∧ findOperation ops id = .ok (index, op)
      ∧ ((op.phase.isRunning = true ∧ change = .same op)
        ∨ op.phase = .queued ∧ ∃ op', Progress op op'
          ∧ op'.phase = .running now ∧ op'.steps = op.steps
          ∧ change = replaceOperation ops index op') := by
  obtain ⟨id, hid, h⟩ := bind_eq_ok.mp h
  obtain ⟨⟨index, op⟩, hop, h⟩ := bind_eq_ok.mp h
  refine ⟨id, index, op, eq_of_assert hid, hop, ?_⟩
  dsimp only at h
  split at h
  · rename_i startedAt hphase
    rw [hphase]
    exact .inl ⟨rfl, (Except.ok.inj h).symm⟩
  · rename_i hphase
    obtain ⟨op', hbuild, h⟩ := bind_eq_ok.mp h
    obtain ⟨hid', hplan', hsteps', hphase'⟩ := build_eq_ok hbuild
    refine .inr ⟨hphase, op', ⟨hid', hplan', ?_⟩, hphase', hsteps',
      (Except.ok.inj h).symm⟩
    rw [hsteps', hphase', hphase]
    exact .started op.steps now
  · cases h

/-- What `create` does where it is accepted. -/
theorem create_eq_ok {planValue : Json} {ops : List (Operation host)}
    {change : Change host}
    (h : create now randomId planValue ops = .ok change) :
    ∃ plan : Plan host,
      normalizeBackupExecutionPlan host planValue = .ok plan
      ∧ ((∃ op ∈ ops, op.plan.idempotencyKey = plan.idempotencyKey
            ∧ change = .same op)
        ∨ (∀ other ∈ ops, other.plan.idempotencyKey ≠ plan.idempotencyKey)
          ∧ ∃ op, op.plan = plan ∧ op.phase = .queued
          ∧ (∀ r ∈ op.steps, r.state = .pending)
          ∧ (∀ other ∈ ops, other.plan.serverId = plan.serverId →
            other.phase.isActive = false)
          ∧ change = .next (ops ++ [op]) op) := by
  obtain ⟨plan, hplan, h⟩ := bind_eq_ok.mp h
  have hread : normalizeBackupExecutionPlan host planValue = .ok plan := by
    cases hvalue : normalizeBackupExecutionPlan host planValue with
    | error e =>
        rw [hvalue] at hplan
        cases hplan
    | ok plan' =>
        rw [hvalue] at hplan
        rw [Except.ok.inj hplan]
  refine ⟨plan, hread, ?_⟩
  split at h
  · rename_i op hfind
    have hkey : op.plan.idempotencyKey = plan.idempotencyKey := by
      simpa using List.find?_some hfind
    exact .inl ⟨op, List.mem_of_find?_eq_some hfind, hkey,
      (Except.ok.inj h).symm⟩
  · rename_i hnone
    split at h
    case isTrue => cases h
    rename_i hfree
    obtain ⟨id, -, h⟩ := bind_eq_ok.mp h
    obtain ⟨op, hbuild, h⟩ := bind_eq_ok.mp h
    obtain ⟨-, hplan', hsteps', hphase'⟩ := build_eq_ok hbuild
    have hnew : ∀ other ∈ ops,
        other.plan.idempotencyKey ≠ plan.idempotencyKey := by
      intro other hother
      simpa using List.find?_eq_none.mp hnone other hother
    refine .inr ⟨hnew, op, hplan', hphase', fun r hr => ?_,
      fun other hother hserver => ?_, (Except.ok.inj h).symm⟩
    · rw [hsteps'] at hr
      obtain ⟨step, -, rfl⟩ := List.mem_map.mp hr
      rfl
    · simp only [List.any_eq_true, Bool.and_eq_true, beq_iff_eq,
        not_exists, not_and, Bool.not_eq_true] at hfree
      exact hfree other hother hserver

/-- A call that changes the operations appends one or changes one. -/
theorem changes_of_transform {request : Request}
    {ops ops' : List (Operation host)} {result : Operation host}
    (h : request.transform now randomId ops = .ok (.next ops' result)) :
    Changes ops ops' := by
  cases request with
  | create plan =>
      obtain ⟨_, -, ⟨_, -, -, hsame⟩ | ⟨hnew, op, rfl, hqueued, hpending, hfree,
        hnext⟩⟩ := create_eq_ok h
      · cases hsame
      · cases hnext
        exact .created _ hqueued hpending hfree hnew
  | start o =>
      obtain ⟨_, _, op, -, hop, ⟨-, hsame⟩ | ⟨-, op', hprogress, -, -, hnext⟩⟩ :=
        start_eq_ok h
      · cases hsame
      · cases hnext
        exact .progressed (getElem?_of_locate (locate_of_findOperation hop))
          hprogress
  | linkStep o s w =>
      obtain ⟨t, ⟨-, hsame⟩ | ⟨-, op', hprogress, -, hnext⟩⟩ := linkStep_eq_ok h
      · cases hsame
      · cases hnext
        exact .progressed t.getElem?_op hprogress
  | succeedStep o s w e =>
      obtain ⟨t, _, -, ⟨-, hsame⟩ | ⟨-, op', hprogress, -, hnext⟩⟩ :=
        succeedStep_eq_ok h
      · cases hsame
      · cases hnext
        exact .progressed t.getElem?_op hprogress
  | failStep o s w x =>
      obtain ⟨t, _, -, ⟨-, hsame⟩ | ⟨-, op', hprogress, -, hnext⟩⟩ :=
        failStep_eq_ok h
      · cases hsame
      · cases hnext
        exact .progressed t.getElem?_op hprogress

end Yunpanel.Backup
