/-
The journal of website removals.

An operation is the list of its steps, made once from the plan. Every later
change is of one step: it is looked up, changed, stamped, and the status of
the operation is computed again from the statuses of its steps. What the
journal returns is a copy; the record itself is changed in place.
-/
import Yunpanel.Lib.Table
import Yunpanel.Websites.RemovalPlan

namespace Yunpanel.Websites

open Json Lib Lib.Result
open RemovalPlan (Preview)

-- ====== records

/-- `STEP_KINDS` -/
inductive StepKind where
  | domainRemoval | cronCleanup | sftpKeyCleanup | databaseBindingCleanup
  | runtimeCleanup | fileCleanup | unixIdentityCleanup
  | metadataFinalization
  deriving DecidableEq, Repr

def StepKind.text : StepKind → String
  | domainRemoval => "domain_removal"
  | cronCleanup => "cron_cleanup"
  | sftpKeyCleanup => "sftp_key_cleanup"
  | databaseBindingCleanup => "database_binding_cleanup"
  | runtimeCleanup => "runtime_cleanup"
  | fileCleanup => "file_cleanup"
  | unixIdentityCleanup => "unix_identity_cleanup"
  | metadataFinalization => "metadata_finalization"

/-- `STEP_STATUSES` -/
inductive StepStatus where
  | pending | running | succeeded | blocked | failed
  deriving DecidableEq, Repr

/-- `OPERATION_STATUSES` -/
inductive OperationStatus where
  | pending | running | blocked | failed | removed
  deriving DecidableEq, Repr

structure StepError where
  code : String
  message : String
  deriving DecidableEq, Repr

structure Step where
  id : String
  kind : StepKind
  resourceId : String
  status : StepStatus
  result : Json
  error : Option StepError
  createdAt : String
  updatedAt : String
  deriving DecidableEq

structure Operation where
  id : String
  websiteId : String
  serverId : String
  applicationId : Option String
  websiteRevision : Nat
  status : OperationStatus
  previewDigest : Sha256
  startConfirmation : Option String
  plan : RemovalPlan.Plan
  steps : List Step
  error : Option StepError
  createdAt : String
  updatedAt : String
  deriving DecidableEq

namespace Operation

/-- What the journal refuses a second operation for. -/
def unfinished (op : Operation) : Bool :=
  op.status != .removed && op.status != .failed

/-- The status that follows from those of the steps. -/
def settled (op : Operation) : OperationStatus :=
  if op.steps.any fun s => s.status == .failed then .failed
  else if op.steps.any fun s => s.status == .blocked then .blocked
  else if op.steps.all fun s => s.status == .succeeded then .removed
  else if op.steps.any fun s => s.status == .running then .running
  else op.status

end Operation

-- ====== steps

/-- `String(n).padStart(3, '0')` -/
def padded (n : Nat) : List Char :=
  let digits := Nat.toDigits 10 n
  List.replicate (3 - digits.length) '0' ++ digits

def stepId (n : Nat) (kind : StepKind) (resourceId : String) : String :=
  String.ofList (padded n ++ ':' :: kind.text.toList
    ++ ':' :: resourceId.toList)

/-- The steps of a plan, in the order they are taken. -/
def stepsOf (preview : Preview) : List (StepKind × String) :=
  let target := preview.website.applicationId.getD preview.website.id
  let additional := preview.plan.additional
  let only (ids : List String) (step : StepKind × String) :=
    if ids.isEmpty then [] else [step]
  preview.plan.domainIds.map (fun id => (.domainRemoval, id))
    ++ only additional.crons.ids (.cronCleanup, preview.website.id)
    ++ only additional.sftpKeys.ids (.sftpKeyCleanup, preview.website.id)
    ++ only additional.databases.ids
      (.databaseBindingCleanup, preview.website.id)
    ++ only additional.runtimeBindings.ids (.runtimeCleanup, target)
    ++ [(.fileCleanup, target)]
    ++ (match preview.website.systemUser with
      | none => []
      | some user => [(.unixIdentityCleanup, user)])
    ++ [(.metadataFinalization, preview.website.id)]

def createSteps (preview : Preview) (createdAt : String) : List Step :=
  (stepsOf preview).mapIdx fun i (kind, resourceId) => {
    id := stepId (i + 1) kind resourceId
    kind
    resourceId
    status := .pending
    result := .null
    error := none
    createdAt
    updatedAt := createdAt }

-- ====== journal

structure Journal where
  operations : List Operation
  initialized : Bool

namespace Journal

/-- `new Map(list.map((op) => [op.id, op]))` -/
def load (stored : List Operation) : List Operation :=
  stored.foldl
    (fun ops op => upsert (fun o => o.id == op.id) (fun _ => op) ops) []

def requireInit (j : Journal) : Except Failure Unit :=
  ensure (refuse "website_removal_registry_uninitialized"
    "Website removal registry must be initialized" 500) j.initialized

/-- `safeId(value, field)` -/
def identifier (field : String) (value : Json) : Except Failure String :=
  demand (refuse "invalid_identifier"
      (field ++ " must be a safe non-empty identifier"))
    (value.str?.filter isSafeId)

def get (j : Journal) (operationId : Json) :
    Except Failure (Option Operation) := do
  j.requireInit
  let id ← identifier "operationId" operationId
  return j.operations.find? fun op => op.id == id

/-- What `create` asks of the operations there are. -/
def requireNone (j : Journal) (websiteId : String) : Except Failure Unit :=
  ensure (refuse "website_removal_operation_in_progress"
      "A removal operation is already in progress for this Website" 409)
    (j.operations.all fun op =>
      op.websiteId != websiteId || !op.unfinished)

/-- `create` up to the write: the operation, and the journal with it. -/
def create (j : Journal) (timestamp : String) (randomUUID : Uuid)
    (preview : Preview) : Except Failure (Operation × Journal) := do
  j.requireInit
  ensure (refuse "website_removal_operation_not_ready"
      "Website removal preview is not ready to start" 409)
    preview.readyToStart
  j.requireNone preview.website.id
  let operation : Operation := {
    id := "ws-rem-" ++ randomUUID.text
    websiteId := preview.website.id
    serverId := preview.website.serverId
    applicationId := preview.website.applicationId
    websiteRevision := preview.website.desiredRevision
    status := .pending
    previewDigest := preview.previewDigest
    startConfirmation := preview.confirmation
    plan := preview.plan
    steps := createSteps preview timestamp
    error := none
    createdAt := timestamp
    updatedAt := timestamp }
  return (operation, { j with
    operations := upsert (fun op => op.id == operation.id)
      (fun _ => operation) j.operations })

/-- What an update does to a step, and to the operation around it. -/
abbrev Updater := Operation → Step → Except Failure (Operation × Step)

/-- `updateStep` up to the write. -/
def updateStep (j : Journal) (now operationId stepId : String)
    (updater : Updater) : Except Failure Journal := do
  j.requireInit
  let operationId ← identifier "operationId" (.str operationId)
  let stepId ← identifier "stepId" (.str stepId)
  let (i, op) ← demand (refuse "operation_not_found"
    "Operation not found" 404)
    (locate (fun op => op.id == operationId) j.operations)
  let (k, step) ← demand (refuse "step_not_found" "Step not found" 404)
    (locate (fun step => step.id == stepId) op.steps)
  let (op, step) ← updater op step
  let op := { op with
    steps := op.steps.set k { step with updatedAt := now }
    updatedAt := now }
  return { j with
    operations := j.operations.set i { op with status := op.settled } }

def running : Updater := fun op step =>
  if step.status = .succeeded then
    .error (refuse "step_already_succeeded" "Step has already succeeded" 409)
  else .ok ({ op with status := .running }, { step with status := .running })

def succeeded (result : Json) : Updater := fun op step =>
  .ok (op, { step with status := .succeeded, result, error := none })

def blocked (error : StepError) : Updater := fun op step =>
  .ok ({ op with status := .blocked, error := some error },
    { step with status := .blocked, error := some error })

def failed (error : StepError) : Updater := fun op step =>
  .ok ({ op with status := .failed, error := some error },
    { step with status := .failed, error := some error })

def markStepRunning (j : Journal) (now operationId stepId : String) :
    Except Failure Journal :=
  j.updateStep now operationId stepId running

def succeedStep (j : Journal) (now operationId stepId : String)
    (result : Json) : Except Failure Journal :=
  j.updateStep now operationId stepId (succeeded result)

def blockStep (j : Journal) (now operationId stepId : String)
    (error : StepError) : Except Failure Journal :=
  j.updateStep now operationId stepId (blocked error)

def failStep (j : Journal) (now operationId stepId : String)
    (error : StepError) : Except Failure Journal :=
  j.updateStep now operationId stepId (failed error)

end Journal

end Yunpanel.Websites
