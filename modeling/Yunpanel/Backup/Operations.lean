/-
The registry of backup operations.

# What an operation is

An operation carries an execution plan, one record for each of its steps,
and where it stands. A step is pending, dispatched to a piece of work,
succeeded with evidence or failed with an error; an operation is queued,
running, succeeded or failed. What a status requires of the other fields
is in the types: a `StepState` has exactly the fields its status has, and
an `Operation` carries that its steps are those of its plan and agree with
its phase.

# How calls run

`mutate` runs one call after another: a call works on the state the one
before left, writes the whole store, and only then lets memory have it. So
a call is one step of the machine, with a write that succeeds or fails, or
a crash between the write and the answer. At a restart the store is read
from the file with `normalizeStore`; where it is refused the process does
not come up.
-/
import Yunpanel.Backup.ExecutionState
import Yunpanel.Lib.Machine
import Yunpanel.Lib.Table

namespace Yunpanel.Backup

open Json

-- ====== failures

/-- Why a call rejects: `BackupOperationRegistryError`, or the write. -/
inductive OperationFailure where
  | registry (code message : String) (status : Nat)
  | store
  deriving DecidableEq, Repr

def operationInvalid (message : String) : OperationFailure :=
  .registry "backup_operation_state_invalid" message 409

/-- A test that throws where it fails. -/
def assert {α : Type} (message : String) :
    Option α → Except OperationFailure α
  | some a => .ok a
  | none => .error (operationInvalid message)

@[simp] theorem assert_some {α : Type} (message : String) (a : α) :
    assert message (some a) = .ok a := rfl

-- ====== parts

/-- `ERROR_CODE_PATTERN` -/
def isErrorCode (s : String) : Bool :=
  Text.headed (fun c => Text.isDigit c || Text.isLower c)
    (fun c => isServiceChar c || c == ':') 119 s

/-- The message of an error: sized, and nothing unprintable in it. -/
def isErrorMessage (s : String) : Bool :=
  isSized 240 s && !s.toList.any Text.isControl

/-- The error of a step or of an operation. -/
structure StepError where
  code : Matching isErrorCode
  message : Matching isErrorMessage
  deriving DecidableEq

/-- The work a step was dispatched to. -/
structure WorkRef where
  kind : Matching (isOneOf ["job", "local"])
  id : ResourceId
  deriving DecidableEq

/-- What a step that succeeded left. -/
structure Evidence where
  artifactId : ResourceId
  contentSha256 : Sha256
  bytes : SafeNat
  createdAt : Instant
  deriving DecidableEq

def StepError.json (e : StepError) : Json :=
  .obj [("code", e.code.json), ("message", e.message.json)]

def WorkRef.json (w : WorkRef) : Json :=
  .obj [("kind", w.kind.json), ("id", w.id.json)]

def Evidence.json (host : Host) (e : Evidence) : Json :=
  .obj [("artifactId", e.artifactId.json),
    ("contentSha256", e.contentSha256.json), ("bytes", e.bytes.json),
    ("createdAt", host.timestamp e.createdAt)]

/-- `normalizeError` -/
def normalizeError (value : Json) : Except OperationFailure StepError := do
  let fields ← assert "Backup operation error is invalid"
    (exactObject ["code", "message"] value)
  let code ← assert "Backup operation error is invalid"
    (fields.read "code" Matching.read?)
  let message ← assert "Backup operation error is invalid"
    (fields.read "message" Matching.read?)
  .ok ⟨code, message⟩

/-- `normalizeWorkRef` -/
def normalizeWorkRef (value : Json) : Except OperationFailure WorkRef := do
  let fields ← assert "Backup step work reference is invalid"
    (exactObject ["kind", "id"] value)
  let kind ← assert "Backup step work kind is invalid"
    (fields.read "kind" Matching.read?)
  let id ← assert "Backup step work id is invalid"
    (fields.read "id" Matching.read?)
  .ok ⟨kind, id⟩

/-- `normalizeEvidence` -/
def normalizeEvidence (host : Host) (value : Json) :
    Except OperationFailure Evidence := do
  let fields ← assert "Backup step evidence is invalid"
    (exactObject ["artifactId", "contentSha256", "bytes", "createdAt"]
      value)
  let sha256 ← assert "Backup step evidence is invalid"
    (fields.read "contentSha256" Matching.read?)
  let bytes ← assert "Backup step evidence is invalid"
    (fields.read "bytes" SafeNat.read?)
  let id ← assert "Backup artifact id is invalid"
    (fields.read "artifactId" Matching.read?)
  let createdAt ← assert "Backup artifact timestamp is invalid"
    (fields.read "createdAt" host.timestamp?)
  .ok ⟨id, sha256, bytes, createdAt⟩

/-- A value that may be `null`, through a normalizer. -/
def orNull {α : Type} (normalize : Json → Except OperationFailure α)
    (value : Json) : Except OperationFailure (Option α) :=
  if value = .null then .ok none else (normalize value).map some

-- ====== steps

/-- The status of a step, with what it has in it. -/
inductive StepState where
  | pending
  | dispatched (workRef : WorkRef)
  | succeeded (workRef : WorkRef) (evidence : Evidence)
  | failed (workRef : WorkRef) (error : StepError)
  deriving DecidableEq

namespace StepState

/-- `status` -/
def status : StepState → String
  | pending => "pending"
  | dispatched _ => "dispatched"
  | succeeded _ _ => "succeeded"
  | failed _ _ => "failed"

def workRef : StepState → Option WorkRef
  | pending => none
  | dispatched w => some w
  | succeeded w _ => some w
  | failed w _ => some w

def evidence : StepState → Option Evidence
  | succeeded _ e => some e
  | _ => none

def error : StepState → Option StepError
  | failed _ e => some e
  | _ => none

def isPending : StepState → Bool
  | pending => true
  | _ => false

def isSucceeded : StepState → Bool
  | succeeded _ _ => true
  | _ => false

def isFailed : StepState → Bool
  | failed _ _ => true
  | _ => false

/-- The state with a status and these parts, where the status has just
these. -/
def ofParts? (status : String) : Option WorkRef → Option Evidence →
    Option StepError → Except OperationFailure StepState
  | none, none, none =>
      if status = "pending" then .ok pending
      else .error (operationInvalid (if status = "dispatched" then
          "Dispatched backup step state is inconsistent"
        else if status = "succeeded" then
          "Succeeded backup step state is inconsistent"
        else "Failed backup step state is inconsistent"))
  | w, e, x =>
      if status = "pending" then
        .error (operationInvalid ("Pending backup step contains "
          ++ "execution state"))
      else if status = "dispatched" then
        match w, e, x with
        | some w, none, none => .ok (dispatched w)
        | _, _, _ => .error (operationInvalid
            "Dispatched backup step state is inconsistent")
      else if status = "succeeded" then
        match w, e, x with
        | some w, some e, none => .ok (succeeded w e)
        | _, _, _ => .error (operationInvalid
            "Succeeded backup step state is inconsistent")
      else
        match w, e, x with
        | some w, none, some x => .ok (failed w x)
        | _, _, _ => .error (operationInvalid
            "Failed backup step state is inconsistent")

end StepState

structure StepRecord where
  stepId : String
  state : StepState
  updatedAt : Instant
  deriving DecidableEq

def StepRecord.json (host : Host) (r : StepRecord) : Json :=
  .obj [("stepId", .str r.stepId), ("status", .str r.state.status),
    ("workRef", ofOption WorkRef.json r.state.workRef),
    ("evidence", ofOption (Evidence.json host) r.state.evidence),
    ("error", ofOption StepError.json r.state.error),
    ("updatedAt", host.timestamp r.updatedAt)]

/-- `normalizeStep`, against the id of the step in the plan. -/
def normalizeStepRecord (host : Host) (planStepId : String)
    (value : Json) : Except OperationFailure StepRecord := do
  let fields ← assert "Backup operation step state is invalid"
    (exactObject ["stepId", "status", "workRef", "evidence", "error",
      "updatedAt"] value)
  let status ← assert "Backup operation step identity is invalid"
    ((fields.read "status" str?).filter
      (isOneOf ["pending", "dispatched", "succeeded", "failed"]))
  if fields.read "stepId" str? = some planStepId then
    let workRef ← orNull normalizeWorkRef (fields.get "workRef")
    let evidence ← orNull (normalizeEvidence host) (fields.get "evidence")
    let error ← orNull normalizeError (fields.get "error")
    let updatedAt ← assert "Backup step update timestamp is invalid"
      (fields.read "updatedAt" host.timestamp?)
    let state ← StepState.ofParts? status workRef evidence error
    .ok ⟨planStepId, state, updatedAt⟩
  else
    .error (operationInvalid "Backup operation step identity is invalid")

-- ====== operations

/-- The status of an operation, with what it has in it. -/
inductive Phase where
  | queued
  | running (startedAt : Instant)
  | succeeded (startedAt finishedAt : Instant)
  | failed (startedAt finishedAt : Instant) (error : StepError)
  deriving DecidableEq

namespace Phase

/-- `status` -/
def status : Phase → String
  | queued => "queued"
  | running _ => "running"
  | succeeded _ _ => "succeeded"
  | failed _ _ _ => "failed"

def startedAt : Phase → Option Instant
  | queued => none
  | running t => some t
  | succeeded t _ => some t
  | failed t _ _ => some t

def finishedAt : Phase → Option Instant
  | succeeded _ t => some t
  | failed _ t _ => some t
  | _ => none

def error : Phase → Option StepError
  | failed _ _ e => some e
  | _ => none

def isRunning : Phase → Bool
  | running _ => true
  | _ => false

/-- Queued or running. -/
def isActive : Phase → Bool
  | queued => true
  | running _ => true
  | _ => false

/-- The phase with a status and these parts, where the status has just
these. -/
def ofParts? (status : String) : Option Instant → Option Instant →
    Option StepError → Option Phase
  | none, none, none => if status = "queued" then some queued else none
  | some s, none, none =>
      if status = "running" then some (running s) else none
  | some s, some f, none =>
      if status = "succeeded" then some (succeeded s f) else none
  | some s, some f, some e =>
      if status = "failed" then some (failed s f e) else none
  | _, _, _ => none

end Phase

/-- What a phase requires of the steps. -/
def lifecycleOk (phase : Phase) (steps : List StepState) : Bool :=
  match phase with
  | .queued => steps.all StepState.isPending
  | .running _ =>
      !steps.any StepState.isFailed && !steps.all StepState.isSucceeded
  | .succeeded _ _ => steps.all StepState.isSucceeded
  | .failed _ _ _ => steps.any StepState.isFailed

/-- The message of a record whose phase and steps disagree. -/
def lifecycleMessage (status : String) : String :=
  if status = "queued" then
    "Queued backup operation lifecycle is inconsistent"
  else if status = "running" then
    "Running backup operation lifecycle is inconsistent"
  else if status = "succeeded" then
    "Succeeded backup operation lifecycle is inconsistent"
  else "Failed backup operation lifecycle is inconsistent"

structure Operation (host : Host) where
  id : Uuid
  plan : Plan host
  steps : List StepRecord
  createdAt : Instant
  phase : Phase
  aligned : steps.map StepRecord.stepId
    = plan.steps.map (Step.stepId host plan.toScope)
  ok : lifecycleOk phase (steps.map StepRecord.state) = true

namespace Operation

variable {host : Host}

def json (op : Operation host) : Json :=
  .obj [("id", op.id.json), ("serverId", op.plan.serverId.json),
    ("executionDigest", .str op.plan.executionDigest),
    ("idempotencyKey", .str op.plan.idempotencyKey),
    ("previewDigest", op.plan.previewDigest.json),
    ("status", .str op.phase.status), ("plan", op.plan.json),
    ("steps", .arr (op.steps.map (StepRecord.json host))),
    ("createdAt", host.timestamp op.createdAt),
    ("startedAt", ofOption host.timestamp op.phase.startedAt),
    ("finishedAt", ofOption host.timestamp op.phase.finishedAt),
    ("error", ofOption StepError.json op.phase.error)]

/-- `normalizeOperation` of a record with these fields: it is one where
its steps are those of the plan and agree with the phase. -/
def build (id : Uuid) (plan : Plan host) (steps : List StepRecord)
    (createdAt : Instant) (phase : Phase) :
    Except OperationFailure (Operation host) :=
  if haligned : steps.map StepRecord.stepId
      = plan.steps.map (Step.stepId host plan.toScope) then
    if hok : lifecycleOk phase (steps.map StepRecord.state) = true then
      .ok ⟨id, plan, steps, createdAt, phase, haligned, hok⟩
    else .error (operationInvalid (lifecycleMessage phase.status))
  else
    .error (operationInvalid "Backup operation step identity is invalid")

end Operation

/-- The records of the steps of a plan, in its order. -/
def normalizeStepRecords (host : Host) :
    List String → List Json → Except OperationFailure (List StepRecord)
  | planStepId :: planStepIds, value :: values => do
      let record ← normalizeStepRecord host planStepId value
      let records ← normalizeStepRecords host planStepIds values
      .ok (record :: records)
  | _, _ => .ok []

/-- `normalizeOperation` -/
def normalizeOperation (host : Host) (value : Json) :
    Except OperationFailure (Operation host) := do
  let fields ← assert "Backup operation state is invalid"
    (exactObject ["id", "serverId", "executionDigest", "idempotencyKey",
      "previewDigest", "status", "plan", "steps", "createdAt", "startedAt",
      "finishedAt", "error"] value)
  let plan ← (normalizeBackupExecutionPlan host
    (fields.get "plan")).mapError fun _ =>
      operationInvalid "Backup execution plan state is invalid"
  let id ← assert "Backup operation id is invalid"
    (fields.read "id" Uuid.read?)
  let serverId ← assert "Backup operation server id is invalid"
    (fields.read "serverId" Uuid.read?)
  let status ← assert
    "Backup operation metadata does not match its execution plan"
    ((fields.read "status" str?).filter
      (isOneOf ["queued", "running", "succeeded", "failed"]))
  let items ← assert
    "Backup operation metadata does not match its execution plan"
    (fields.read "steps" arr?)
  if serverId = plan.serverId
      ∧ fields.read "executionDigest" str? = some plan.executionDigest
      ∧ fields.read "idempotencyKey" str? = some plan.idempotencyKey
      ∧ fields.read "previewDigest" str? = some plan.previewDigest.text
      ∧ items.length = plan.steps.length then
    let steps ← normalizeStepRecords host
      (plan.steps.map (Step.stepId host plan.toScope)) items
    let createdAt ← assert "Backup operation creation timestamp is invalid"
      (fields.read "createdAt" host.timestamp?)
    let startedAt ← assert "Backup operation start timestamp is invalid"
      (fields.read "startedAt" (nullable? host.timestamp?))
    let finishedAt ← assert "Backup operation finish timestamp is invalid"
      (fields.read "finishedAt" (nullable? host.timestamp?))
    let error ← orNull normalizeError (fields.get "error")
    let phase ← assert (lifecycleMessage status)
      (Phase.ofParts? status startedAt finishedAt error)
    Operation.build id plan steps createdAt phase
  else
    .error (operationInvalid
      "Backup operation metadata does not match its execution plan")

-- ====== the store

/-- `{ version: STORE_VERSION, operations }` -/
def storeJson {host : Host} (operations : List (Operation host)) : Json :=
  .obj [("version", .num 1),
    ("operations", .arr (operations.map Operation.json))]

def storeInvalid (message : String) : OperationFailure :=
  .registry "backup_operation_store_invalid" message 409

/-- `normalizeStore` -/
def normalizeStore (host : Host) (value : Json) :
    Except OperationFailure (List (Operation host)) := do
  let fields ← assert "Backup operation store is invalid"
    (exactObject ["version", "operations"] value)
  match fields.get "version", fields.read "operations" arr? with
  | .num 1, some items =>
      match items.mapM (normalizeOperation host) with
      | .error _ =>
          .error (storeInvalid
            "Backup operation store contains invalid state")
      | .ok operations =>
          if (operations.map Operation.id).Nodup
              ∧ (operations.map fun op => op.plan.idempotencyKey).Nodup then
            .ok operations
          else
            .error (storeInvalid
              "Backup operation store contains duplicate identities")
  | _, _ => .error (storeInvalid "Backup operation store is invalid")

-- ====== calls

/-- What a caller asks for; nothing of it has been checked. -/
inductive Request where
  | create (plan : Json)
  | start (operationId : Json)
  | linkStep (operationId stepId workRef : Json)
  | succeedStep (operationId stepId workRef evidence : Json)
  | failStep (operationId stepId workRef error : Json)

/-- What a transform makes of the state: the state itself, or another
one. -/
inductive Change (host : Host) where
  | same (result : Operation host)
  | next (operations : List (Operation host)) (result : Operation host)

section Transforms

variable {host : Host}

def notFound : OperationFailure :=
  .registry "backup_operation_not_found" "Backup operation was not found"
    404

/-- `replaceOperation` -/
def replaceOperation (operations : List (Operation host)) (index : Nat)
    (op : Operation host) : Change host :=
  .next (operations.set index op) op

/-- The operation of an id, with its index. -/
def findOperation (operations : List (Operation host)) (id : Uuid) :
    Except OperationFailure (Nat × Operation host) :=
  match Lib.locate (fun op : Operation host => op.id == id) operations with
  | some found => .ok found
  | none => .error notFound

/-- The step of an id, with its index. -/
def findStep (op : Operation host) (stepId : ResourceId) :
    Except OperationFailure (Nat × StepRecord) :=
  match Lib.locate (fun r : StepRecord => r.stepId == stepId.text)
      op.steps with
  | some found => .ok found
  | none =>
      .error (.registry "backup_step_not_found"
        "Backup operation step was not found" 404)

/-- A step in a new state, at a new time. -/
def StepRecord.moved (r : StepRecord) (state : StepState) (now : Instant) :
    StepRecord :=
  { r with state := state, updatedAt := now }

/-- `create` -/
def create (now : Instant) (randomId : String) (planValue : Json)
    (operations : List (Operation host)) :
    Except OperationFailure (Change host) := do
  let plan ← (normalizeBackupExecutionPlan host planValue).mapError fun _ =>
    operationInvalid "Backup execution plan state is invalid"
  match operations.find? fun op =>
      op.plan.idempotencyKey == plan.idempotencyKey with
  | some existing => .ok (.same existing)
  | none =>
      if operations.any fun op =>
          op.plan.serverId == plan.serverId && op.phase.isActive then
        .error (.registry "backup_operation_conflict"
          "Another general backup is already active for this Server" 409)
      else do
        let id ← assert "Backup operation id is invalid"
          (Uuid.ofText? randomId)
        let op ← Operation.build id plan
          (plan.steps.map fun step =>
            ⟨step.stepId host plan.toScope, .pending, now⟩) now .queued
        .ok (.next (operations ++ [op]) op)

/-- `start` -/
def start (now : Instant) (operationId : Json)
    (operations : List (Operation host)) :
    Except OperationFailure (Change host) := do
  let id ← assert "Backup operation id is invalid"
    (Uuid.read? operationId)
  let (index, op) ← findOperation operations id
  match op.phase with
  | .running _ => .ok (.same op)
  | .queued => do
      let op' ← Operation.build op.id op.plan op.steps op.createdAt
        (.running now)
      .ok (replaceOperation operations index op')
  | _ =>
      .error (.registry "backup_operation_not_startable"
        "Backup operation cannot be started from its current state" 409)

/-- `linkStep` -/
def linkStep (now : Instant) (operationId stepId workRef : Json)
    (operations : List (Operation host)) :
    Except OperationFailure (Change host) := do
  let id ← assert "Backup operation id is invalid"
    (Uuid.read? operationId)
  let stepId ← assert "Backup step id is invalid"
    (Matching.read? (p := isResourceId) stepId)
  let workRef ← normalizeWorkRef workRef
  let (index, op) ← findOperation operations id
  if op.phase.isRunning then
    let (stepIndex, step) ← findStep op stepId
    if step.state = .dispatched workRef then .ok (.same op)
    else if step.state = .pending then
      let op' ← Operation.build op.id op.plan
        (op.steps.set stepIndex (step.moved (.dispatched workRef) now))
        op.createdAt op.phase
      .ok (replaceOperation operations index op')
    else
      .error (.registry "backup_step_already_dispatched"
        "Backup step already has durable execution state" 409)
  else
    .error (.registry "backup_operation_not_running"
      "Backup operation is not running" 409)

/-- A refusal to decide a step. -/
def completionConflict (message : String) : OperationFailure :=
  .registry "backup_step_completion_conflict" message 409

/-- `succeedStep` -/
def succeedStep (now : Instant) (operationId stepId workRef evidence : Json)
    (operations : List (Operation host)) :
    Except OperationFailure (Change host) := do
  let id ← assert "Backup operation id is invalid"
    (Uuid.read? operationId)
  let stepId ← assert "Backup step id is invalid"
    (Matching.read? (p := isResourceId) stepId)
  let workRef ← normalizeWorkRef workRef
  let evidence ← normalizeEvidence host evidence
  let (index, op) ← findOperation operations id
  let (stepIndex, step) ← findStep op stepId
  if step.state.isSucceeded then
    if step.state = .succeeded workRef evidence then .ok (.same op)
    else
      .error (completionConflict
        "Backup step already completed with different evidence")
  else
    match op.phase with
    | .running startedAt =>
        if step.state = .dispatched workRef then
          let steps := op.steps.set stepIndex
            (step.moved (.succeeded workRef evidence) now)
          let phase :=
            if steps.all fun r => r.state.isSucceeded then
              Phase.succeeded startedAt now
            else .running startedAt
          let op' ← Operation.build op.id op.plan steps op.createdAt phase
          .ok (replaceOperation operations index op')
        else
          .error (completionConflict
            "Backup step completion does not match dispatched work")
    | _ =>
        .error (completionConflict
          "Backup step completion does not match dispatched work")

/-- `failStep` -/
def failStep (now : Instant) (operationId stepId workRef error : Json)
    (operations : List (Operation host)) :
    Except OperationFailure (Change host) := do
  let id ← assert "Backup operation id is invalid"
    (Uuid.read? operationId)
  let stepId ← assert "Backup step id is invalid"
    (Matching.read? (p := isResourceId) stepId)
  let workRef ← normalizeWorkRef workRef
  let error ← normalizeError error
  let (index, op) ← findOperation operations id
  let (stepIndex, step) ← findStep op stepId
  if step.state.isFailed then
    if step.state = .failed workRef error then .ok (.same op)
    else
      .error (completionConflict
        "Backup step already failed with different evidence")
  else
    match op.phase with
    | .running startedAt =>
        if step.state = .dispatched workRef then
          let op' ← Operation.build op.id op.plan
            (op.steps.set stepIndex
              (step.moved (.failed workRef error) now))
            op.createdAt (.failed startedAt now error)
          .ok (replaceOperation operations index op')
        else
          .error (completionConflict
            "Backup step failure does not match dispatched work")
    | _ =>
        .error (completionConflict
          "Backup step failure does not match dispatched work")

/-- The transform of a request. -/
def Request.transform (now : Instant) (randomId : String) :
    Request → List (Operation host) →
      Except OperationFailure (Change host)
  | create plan => Backup.create now randomId plan
  | start operationId => Backup.start now operationId
  | linkStep operationId stepId workRef =>
      Backup.linkStep now operationId stepId workRef
  | succeedStep operationId stepId workRef evidence =>
      Backup.succeedStep now operationId stepId workRef evidence
  | failStep operationId stepId workRef error =>
      Backup.failStep now operationId stepId workRef error

end Transforms

-- ====== the registry

/-- The registry: what it holds, what is in its file, and whether the
process is up. -/
structure Registry (host : Host) where
  operations : List (Operation host)
  file : Option Json
  up : Bool

/-- What happens to it. -/
inductive Event where
  | call (request : Request) (now : Instant) (randomId : String)
      (written : Bool)
  | cut (request : Request) (now : Instant) (randomId : String)
  | restart

namespace Registry

variable {host : Host}

/-- The registry of a process that starts without a file. -/
def initial : Registry host := ⟨[], none, true⟩

/-- `init`, in a new process. -/
def reopen (r : Registry host) : Registry host :=
  match r.file with
  | none => { r with operations := [], up := true }
  | some value =>
      match normalizeStore host value with
      | .ok operations => { r with operations := operations, up := true }
      | .error _ => { r with up := false }

/-- `mutate`: a new state is written before memory has it. -/
def mutate (r : Registry host) (request : Request) (now : Instant)
    (randomId : String) (written : Bool) :
    Registry host × Except OperationFailure (Operation host) :=
  match request.transform now randomId r.operations with
  | .error e => (r, .error e)
  | .ok (.same result) => (r, .ok result)
  | .ok (.next operations result) =>
      if written then
        ({ r with operations := operations
                  file := some (storeJson operations) }, .ok result)
      else (r, .error .store)

/-- One event, and what its caller is told: nothing where the process
dies. -/
def step (r : Registry host) : Event →
    Registry host × Option (Except OperationFailure (Operation host))
  | .call request now randomId written =>
      if r.up then
        let (r', answer) := r.mutate request now randomId written
        (r', some answer)
      else (r, none)
  | .cut request now randomId =>
      if r.up then ((r.mutate request now randomId true).1.reopen, none)
      else (r, none)
  | .restart => (r.reopen, none)

end Registry

/-- The registry as a machine. -/
def registry (host : Host) :
    Lib.Machine (Registry host) Event
      (Option (Except OperationFailure (Operation host))) where
  step := Registry.step

end Yunpanel.Backup
