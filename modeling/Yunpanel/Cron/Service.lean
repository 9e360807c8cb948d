/-
The cron service: tasks that are saved, and the jobs that apply them.

# A call

A call changes the task in its registry and then enqueues a job for the
revision it has saved; to delete a task only a job is enqueued, which
deletes the task when it runs. A job is keyed by operation, task, revision
and file, and the job registry answers a repeated key with the job it has.

# The machine

Calls come one after another. In between jobs are claimed, completed and
cancelled, and a removal that runs deletes its task.
-/
import Yunpanel.Jobs.Registry
import Yunpanel.Cron.Task

namespace Yunpanel.Cron

open Json Lib Lib.Result
open Jobs (EnqueueRequest PublicJob Job)

-- ====== protocol

/-- `assertUuid(value, field) === value` -/
def isCanonicalUuid (value : Json) : Bool :=
  match Uuid.read? value with
  | some id => value == id.json
  | none => false

/-- `validateCronMutation(payload, operation, errors)` -/
def validateCronMutation (operation : Jobs.Operation)
    (payload : Json.Fields) : List String :=
  let allowed := ["taskId", "websiteId", "applicationId", "unixUser",
    "expectedRevision", "desiredStateSha256"]
  let required (condition : Bool) (text : String) : List String :=
    if condition then [] else [operation.text ++ text]
  required (payload.length == allowed.length
      && payload.all fun field => allowed.contains field.1)
    " contains unsupported arguments"
  ++ required (isCanonicalUuid (payload.get "taskId")
      && isCanonicalUuid (payload.get "websiteId")
      && isCanonicalUuid (payload.get "applicationId"))
    " identities are invalid"
  ++ required ((payload.get "unixUser").str?.any Databases.isSiteUser)
    " unixUser is invalid"
  ++ required ((Ranged.read? (payload.get "expectedRevision")
      : Option Revision)).isSome
    " expectedRevision is invalid"
  ++ required ((payload.get "desiredStateSha256").str?.any Text.isSha256)
    " desiredStateSha256 is invalid"

/-- What `createOperationEnvelope` throws for a cron operation. -/
def cronEnvelopeError (operation : Jobs.Operation) (payload : Json) :
    Option String :=
  let errors :=
    match payload with
    | .obj fields => validateCronMutation operation fields
    | _ => ["payload must be an object"]
  if errors.isEmpty then none else some ("; ".intercalate errors)

/-- The protocol, which checks cron operations as above. -/
def withCron (proto : Jobs.Protocol) : Jobs.Protocol :=
  { proto with
    envelopeError := fun id operation payload =>
      match operation with
      | .cronApply | .cronRemove => cronEnvelopeError operation payload
      | _ => proto.envelopeError id operation payload }

-- ====== requests

/-- `sha256` and the protocol. -/
structure Context where
  sha256 : String → Sha256
  proto : Jobs.Protocol

/-- The two operations of the service. -/
inductive Kind where
  | apply | remove
  deriving DecidableEq

def Kind.operation : Kind → Jobs.Operation
  | apply => .cronApply
  | remove => .cronRemove

/-- `calculateDesiredStateDigest(task)` -/
def Context.desiredStateSha256 (c : Context) (task : Task) : Sha256 :=
  c.sha256 (renderCronTaskFile task)

def Context.payload (c : Context) (task : Task) : Json :=
  .obj [("taskId", task.id.json), ("websiteId", task.websiteId.json),
    ("applicationId", task.applicationId.json),
    ("unixUser", task.unixUser.json),
    ("expectedRevision", task.revision.json),
    ("desiredStateSha256", (c.desiredStateSha256 task).json)]

/-- `cron.apply:${task.id}:${task.revision}:${desiredStateSha256}`, or the
same of `cron.remove`. -/
def Context.key (c : Context) (kind : Kind) (task : Task) : String :=
  String.ofList (kind.operation.text.toList ++ ':' :: (task.id.text.toList
    ++ ':' :: (Nat.toDigits 10 task.revision.val.toNat
      ++ ':' :: (c.desiredStateSha256 task).text.toList)))

def Context.request (c : Context) (kind : Kind) (task : Task) :
    EnqueueRequest where
  serverId := task.serverId.text
  type := kind.operation.text
  operation := kind.operation.text
  payload := c.payload task
  resourceType := "website_cron"
  resourceId := task.id.text
  idempotencyKey := some (c.key kind task)

-- ====== calls

abbrev JobStore := Store (List Job) Jobs.Failure Jobs.Reply

/-- The tasks and the jobs of the panel. -/
structure Panel where
  tasks : List Task
  jobs : JobStore

/-- What a call of the service is answered. -/
inductive Answer where
  | returned (task : Task) (job : PublicJob)
  | rejected (e : Failure)
  | done

/-- `jobRegistry.enqueue(…)` for a task, and the end of the call. -/
def Panel.enqueue (c : Context) (env : Env) (kind : Kind) (task : Task)
    (s : Panel) : Panel × Answer :=
  let (jobs, outcome) := s.jobs.perform .store env.jobStored
    (Jobs.enqueue (withCron c.proto) (c.request kind task) env.jobId
      env.jobNow)
  ({ s with jobs },
    match outcome with
    | .resolved (.enqueued job _) => .returned task job
    | .rejected e => .rejected (.job e)
    | _ => .done)

/-- The runtimes whose websites the service takes. -/
def servedRuntimeTypes : List String := ["static", "node", "php"]

def assertHostedWebsite : Lookup → Except Failure Unit
  | .unavailable => .error (refuse "website_unavailable"
      "Website could not be verified" 503)
  | .found none => .error (refuse "website_not_found"
      "Website was not found" 404)
  | .found (some site) =>
      ensure (refuse "website_cron_unsupported_runtime"
        ("Cron tasks are only supported for hosted websites (static, node, "
          ++ "php)") 409)
        (servedRuntimeTypes.contains site.runtimeType)

def getCron (env : Env) (taskId : Json) (tasks : List Task) :
    Except Failure Task := do
  let task ← getTask taskId tasks
  let task ← demand taskNotFound task
  assertHostedWebsite env.hosted
  return task

/-- The write of the task store. -/
def persist (env : Env) : Except Failure Unit :=
  ensure .store env.stored

/-- `createCron` up to the job: the task, and the tasks stored with it. -/
def createSaved (env : Env) (input : CreateInput) (tasks : List Task) :
    Except Failure (Task × List Task) := do
  assertHostedWebsite env.hosted
  let saved ← createTask env input tasks
  persist env
  return saved

/-- `updateCron` up to the job. -/
def updateSaved (env : Env) (taskId : Json) (input : UpdateInput)
    (tasks : List Task) : Except Failure (Task × List Task) := do
  let _ ← getCron env taskId tasks
  let saved ← updateTask env taskId input tasks
  persist env
  return saved

/-- `deleteCron` up to the job. -/
def deleteChecked (env : Env) (taskId expectedRevision : Json)
    (tasks : List Task) : Except Failure Task := do
  let task ← getCron env taskId tasks
  let expected ← positiveInteger expectedRevision
  ensure (refuse "cron_revision_conflict"
    "Cron task changed after it was read" 409) (task.revision == expected)
  return task

/-- A call that saves a task and enqueues the job that applies it. -/
def Panel.save (c : Context) (env : Env) (s : Panel) :
    Except Failure (Task × List Task) → Panel × Answer
  | .error e => (s, .rejected e)
  | .ok (task, tasks) => Panel.enqueue c env .apply task { s with tasks }

def createCron (c : Context) (env : Env) (input : CreateInput)
    (s : Panel) : Panel × Answer :=
  s.save c env (createSaved env input s.tasks)

def updateCron (c : Context) (env : Env) (taskId : Json)
    (input : UpdateInput) (s : Panel) : Panel × Answer :=
  s.save c env (updateSaved env taskId input s.tasks)

def deleteCron (c : Context) (env : Env) (taskId expectedRevision : Json)
    (s : Panel) : Panel × Answer :=
  match deleteChecked env taskId expectedRevision s.tasks with
  | .error e => (s, .rejected e)
  | .ok task => s.enqueue c env .remove task

-- ====== machine

/-- How jobs come along. -/
inductive Progress where
  | claimNext (serverId : String) (now : Instant)
  | complete (completion : Jobs.Completion) (now : Instant)
  | cancel (jobId : String) (now : Instant)

def Progress.call : Progress → Jobs.Call
  | claimNext serverId now => .claimNext serverId now
  | complete completion now => .complete completion now
  | cancel jobId now => .cancel jobId now

inductive Move where
  | createCron (env : Env) (input : CreateInput)
  | updateCron (env : Env) (taskId : Json) (input : UpdateInput)
  | deleteCron (env : Env) (taskId expectedRevision : Json)
  | job (p : Progress) (ok : Bool)
  | removed (env : Env) (taskId expectedRevision : Json)

def Panel.step (c : Context) (s : Panel) : Move → Panel × Answer
  | .createCron env input => Cron.createCron c env input s
  | .updateCron env taskId input => Cron.updateCron c env taskId input s
  | .deleteCron env taskId expectedRevision =>
      Cron.deleteCron c env taskId expectedRevision s
  | .job p ok =>
      ({ s with
          jobs := (s.jobs.perform .store ok
            (p.call.effect (withCron c.proto))).1 }, .done)
  | .removed env taskId expectedRevision =>
      match deleteTask env taskId expectedRevision s.tasks with
      | .error _ => (s, .done)
      | .ok tasks => if env.stored then ({ s with tasks }, .done) else (s, .done)

def machine (c : Context) : Machine Panel Move Answer where
  step := Panel.step c

/-- A panel with no task and no job yet. -/
def fresh : Panel := { tasks := [], jobs := Store.opened [] }

end Yunpanel.Cron
