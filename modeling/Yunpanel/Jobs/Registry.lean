/-
The job registry: its four mutations, its reads, and the machine they
make.

# How a call is split

A call runs its synchronous part to the end before any other call can:
`enqueue`, `claimNext`, `complete` and `cancel` below are those parts, as
effects on the job list. What follows is only the wait for the write, so an
arbitrary interleaving of calls is an arbitrary order of synchronous parts
and settling writes, which is what `machine` runs.

`claimNext` alone waits before it starts: it is chained behind the claim
before it. A claim that arrives while another is unsettled has done
nothing yet, so it is the same claim arriving later; `machine` answers it
`waiting`.
-/
import Yunpanel.Lib.Machine
import Yunpanel.Lib.Result
import Yunpanel.Lib.Table
import Yunpanel.Lib.WriteChain
import Yunpanel.Jobs.Job

namespace Yunpanel.Jobs

open Lib

-- ====== requests

/-- The argument of `enqueue`. -/
structure EnqueueRequest extends Work where
  idempotencyKey : Option String

/-- The argument of `complete`. -/
structure Completion where
  serverId : String
  jobId : String
  status : String
  result : Json
  error : Json

/-- What a call of the registry resolves to. -/
inductive Reply where
  | enqueued (job : PublicJob) (created : Bool)
  | claim (job : PublicJob) (envelope : Envelope)
  | job (job : PublicJob)
  | nothing

/-- What a synchronous part does to the job list. -/
abbrev JobEffect := Effect (List Job) Failure Reply

/-- `new JobRegistryError(code, message, status)` -/
def refuse (code message : String) (status : Nat := 400) : Failure :=
  .registry code message status

/-- `IDEMPOTENCY_KEY_PATTERN` -/
def validIdempotencyKey (key : String) : Bool :=
  Text.inClass Text.isKeyChar 16 200 key

def jobIdempotencyConflict : Failure :=
  refuse "job_idempotency_conflict"
    "Job idempotency key was already used for different work" 409

def jobNotFound : Failure := refuse "job_not_found" "Job not found" 404

-- ====== lookups

/-- The job that holds an idempotency key. -/
def Job.hasKey (key : String) (job : Job) : Bool :=
  job.idempotencyKey == some key

/-- A queued or running job of one resource. -/
def Job.occupies (resourceType : ResourceType) (resourceId : String)
    (job : Job) : Bool :=
  job.resourceType == resourceType && job.resourceId == resourceId
    && job.status.active

/-- The next job `claimNext` takes for a server. -/
def Job.claimable (serverId : String) (job : Job) : Bool :=
  job.serverId == serverId && job.status == .queued

/-- `getJob`, before the public view is taken. -/
def findJob (jobs : List Job) (jobId : String) : Option Job :=
  jobs.find? fun job => job.id.text == jobId

-- ====== enqueue

/-- The checks `enqueue` makes of its argument alone, in their order. -/
def checkRequest (req : EnqueueRequest) :
    Except Failure (Operation × ResourceType) := do
  if req.serverId = "" then
    throw (refuse "invalid_server" "serverId is required")
  if Text.length req.type < 1 ∨ 80 < Text.length req.type then
    throw (refuse "invalid_job_type" "Job type is invalid")
  let some operation := Operation.ofText? req.operation
    | throw (refuse "invalid_operation"
        "Agent operation is not supported by the async queue")
  if !req.payload.isObject then
    throw (refuse "invalid_payload" "Job payload must be an object")
  let some resourceType := ResourceType.ofText? req.resourceType
    | throw (refuse "invalid_resource_type" "Job resource type is invalid")
  if req.resourceId = "" then
    throw (refuse "invalid_resource_id" "Job resource id is required")
  if !(req.idempotencyKey.all validIdempotencyKey) then
    throw (refuse "invalid_idempotency_key"
      "Job idempotency key is invalid")
  return (operation, resourceType)

/-- The digest kept with a keyed job. -/
def requestDigest (proto : Protocol) (req : EnqueueRequest) :
    Option String :=
  req.idempotencyKey.map fun _ => proto.idempotencyDigest req.toWork

/-- A deployment is given its job's id. -/
def effectivePayload (operation : Operation) (payload : Json) (id : Uuid) :
    Json :=
  if operation.deploys then payload.spread "deploymentId" (.str id.text)
  else payload

/-- The job a request becomes. -/
def newJob (proto : Protocol) (req : EnqueueRequest) (id : Uuid)
    (now : Instant) (operation : Operation) (resourceType : ResourceType) :
    Job :=
  { id
    serverId := req.serverId
    type := req.type
    operation
    payload := effectivePayload operation req.payload id
    resourceType
    resourceId := req.resourceId
    status := .queued
    createdAt := now
    startedAt := none
    finishedAt := none
    attempts := 0
    result := none
    error := none
    idempotencyKey := req.idempotencyKey
    idempotencyDigest := requestDigest proto req }

/-- `enqueueResult`, of the entry at a position once the write is done. -/
def enqueueResult (i : Nat) (job : Job) (jobs : List Job) :
    Except Failure Reply :=
  .ok (.enqueued (publicJob (jobs[i]?.getD job)) true)

/-- `enqueue` once its argument has passed: `id` is what `randomUUID`
returns and `now` what the clock reads. -/
def enqueueChecked (proto : Protocol) (req : EnqueueRequest) (id : Uuid)
    (now : Instant) (operation : Operation) (resourceType : ResourceType)
    (jobs : List Job) : JobEffect :=
  match req.idempotencyKey.bind fun key => locate (Job.hasKey key) jobs with
  | some (_, existing) =>
      if existing.idempotencyDigest ≠ requestDigest proto req then
        .refused jobIdempotencyConflict
      else .replied (.enqueued (publicJob existing) false)
  | none =>
      if jobs.any (Job.occupies resourceType req.resourceId) then
        .refused (refuse (resourceType.text ++ "_job_conflict")
          ("A " ++ resourceType.text
            ++ " operation is already queued or running") 409)
      else
        let job := newJob proto req id now operation resourceType
        match proto.createOperationEnvelope id operation job.payload with
        | .error message =>
            .refused (refuse "invalid_operation_payload" message)
        | .ok _ =>
            .written (jobs ++ [job]) (enqueueResult jobs.length job)

def enqueue (proto : Protocol) (req : EnqueueRequest) (id : Uuid)
    (now : Instant) (jobs : List Job) : JobEffect :=
  match checkRequest req with
  | .error e => .refused e
  | .ok (operation, resourceType) =>
      enqueueChecked proto req id now operation resourceType jobs

def findIdempotentJob (proto : Protocol) (req : EnqueueRequest)
    (jobs : List Job) : Except Failure Reply :=
  match req.idempotencyKey.filter validIdempotencyKey with
  | none =>
      .error (refuse "invalid_idempotency_key"
        "Job idempotency key is invalid")
  | some key =>
      match locate (Job.hasKey key) jobs with
      | none => .ok .nothing
      | some (_, existing) =>
          if existing.idempotencyDigest
              ≠ some (proto.idempotencyDigest req.toWork) then
            .error jobIdempotencyConflict
          else .ok (.job (publicJob existing))

-- ====== claimNext

def Job.claimed (now : Instant) (job : Job) : Job :=
  { job with
    status := .running
    startedAt := some now
    attempts := job.attempts + 1 }

/-- What a claim resolves to once its write is done. The envelope is made
only then: a payload the protocol no longer takes rejects the claim with
the job already running. -/
def claimResult (proto : Protocol) (i : Nat) (job : Job)
    (jobs : List Job) : Except Failure Reply :=
  let current := jobs[i]?.getD job
  match proto.createOperationEnvelope current.id current.operation
      current.payload with
  | .error message => .error (.protocol message)
  | .ok envelope => .ok (.claim (publicJob current) envelope)

def claimNext (proto : Protocol) (serverId : String) (now : Instant)
    (jobs : List Job) : JobEffect :=
  match locate (Job.claimable serverId) jobs with
  | none => .replied .nothing
  | some (i, job) =>
      .written (jobs.set i (job.claimed now))
        (claimResult proto i (job.claimed now))

-- ====== complete

/-- `['succeeded', 'failed'].includes(status)` -/
def completionStatus? (status : String) : Option Status :=
  if status = "succeeded" then some .succeeded
  else if status = "failed" then some .failed
  else none

/-- `publicJob` of the entry at a position once the write is done. -/
def jobResult (i : Nat) (job : Job) (jobs : List Job) :
    Except Failure Reply :=
  .ok (.job (publicJob (jobs[i]?.getD job)))

/-- The outcome a completion records, before the status is set. -/
def Job.withOutcome (proto : Protocol) (job : Job) (status : Status)
    (c : Completion) : Except Failure Job :=
  match status with
  | .succeeded =>
      (proto.sanitizeResult job c.result).map fun result =>
        { job with result := some result, error := none }
  | _ =>
      .ok { job with
        result := none
        error := some (proto.safeLocalOperationError c.error) }

def Job.completed (status : Status) (now : Instant) (job : Job) : Job :=
  { job with status := status, finishedAt := some now }

def complete (proto : Protocol) (c : Completion) (now : Instant)
    (jobs : List Job) : JobEffect :=
  match completionStatus? c.status with
  | none =>
      .refused (refuse "invalid_completion_status"
        "Agent completion status must be succeeded or failed")
  | some status =>
      match locate (fun job => job.id.text == c.jobId
          && job.serverId == c.serverId) jobs with
      | none => .refused jobNotFound
      | some (i, job) =>
          if job.status.terminal then
            if job.status = status then .replied (.job (publicJob job))
            else .refused (refuse "job_already_completed"
              "Job is already completed with a different status" 409)
          else if job.status ≠ .running then
            .refused (refuse "job_not_running"
              "Only running jobs may be completed" 409)
          else
            match job.withOutcome proto status c with
            | .error e => .refused e
            | .ok done =>
                .written (jobs.set i (done.completed status now))
                  (jobResult i (done.completed status now))

-- ====== cancel

def cancel (jobId : String) (now : Instant) (jobs : List Job) :
    JobEffect :=
  match locate (fun job => job.id.text == jobId) jobs with
  | none => .refused jobNotFound
  | some (i, job) =>
      if job.status ≠ .queued then
        .refused (refuse "job_not_cancellable"
          "Only queued jobs may be cancelled" 409)
      else
        .written (jobs.set i (job.completed .cancelled now))
          (jobResult i (job.completed .cancelled now))

-- ====== machine

/-- A call of the registry, with what the clock and `randomUUID` answer
it. -/
inductive Call where
  | enqueue (req : EnqueueRequest) (id : Uuid) (now : Instant)
  | findIdempotentJob (req : EnqueueRequest)
  | claimNext (serverId : String) (now : Instant)
  | complete (c : Completion) (now : Instant)
  | cancel (jobId : String) (now : Instant)

def Call.effect (proto : Protocol) : Call → List Job → JobEffect
  | enqueue req id now => Jobs.enqueue proto req id now
  | findIdempotentJob req => fun jobs =>
      .ofResult (Jobs.findIdempotentJob proto req jobs)
  | claimNext serverId now => Jobs.claimNext proto serverId now
  | complete c now => Jobs.complete proto c now
  | cancel jobId now => Jobs.cancel jobId now

def Call.isClaim : Call → Bool
  | claimNext _ _ => true
  | _ => false

/-- A registry in memory: the job list with its write chain, and, while a
claim is unsettled, how many writes stand before its own. -/
structure Registry where
  store : Store (List Job) Failure Reply
  claiming : Option Nat

/-- A registry just initialised from its file. -/
def Registry.opened (jobs : List Job) : Registry :=
  { store := Store.opened jobs, claiming := none }

def Registry.jobs (r : Registry) : List Job := r.store.mem

/-- What happens next: a call, or the write at the head of the chain
settling. -/
inductive Event where
  | call (c : Call)
  | settle (ok : Bool)

/-- Where a claim's own write stands in the chain it has joined. -/
def claimTicket (c : Call) (r : Registry)
    (outcome : Outcome Failure Reply) : Option Nat :=
  match c.isClaim, outcome with
  | true, .waiting => some r.store.queue.length
  | _, _ => r.claiming

def Registry.step (proto : Protocol) (r : Registry) :
    Event → Registry × Outcome Failure Reply
  | .call c =>
      if c.isClaim && r.claiming.isSome then (r, .waiting)
      else
        let (store, outcome) := r.store.call (c.effect proto)
        ({ store, claiming := claimTicket c r outcome }, outcome)
  | .settle ok =>
      let (store, outcome) := r.store.settle .store ok
      ({ store
         claiming := r.claiming.bind fun n =>
           if n = 0 then none else some (n - 1) }, outcome)

def machine (proto : Protocol) :
    Machine Registry Event (Outcome Failure Reply) where
  step := Registry.step proto

end Yunpanel.Jobs
