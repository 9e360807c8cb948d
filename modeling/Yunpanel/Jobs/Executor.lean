/-
The local job executor: one worker of the API process over the job registry.

# What runs

`runOnce` starts a run of `work`, or joins the one on its way; the timer of
`start` does the same. A run awaits one call after another: the queue's
listing, the claim, the host operation, the evidence, the journal's entry,
the completion, the reconciliation and its acknowledgement. `Work` is the
call a run awaits, and `advance` its next turn: the environment says how the
call goes (`Answer`). Between two turns anything may happen to the registry
and to the executor.

# The registry

A call of the registry runs its synchronous part in the turn that makes it;
where that queued a write, the run waits for it in the chain of all writes,
its own and others' (`ahead` of them first).

The `log` is nobody's variable: it is what a bystander sees of the executor,
the newest first.
-/
import Yunpanel.Jobs.Registry

namespace Yunpanel.Jobs.Executor

open Lib

-- ====== faults

/-- The keys of `FAULTS`. -/
inductive Phase where
  | claim | execute | complete | reconcile
  deriving DecidableEq, Repr

def Phase.code : Phase → String
  | claim => "local_claim_unconfirmed"
  | execute => "local_claim_invalid"
  | complete => "local_completion_unconfirmed"
  | reconcile => "local_reconciliation_failed"

def Phase.message : Phase → String
  | claim =>
      "Local job claim could not be confirmed. Inspect stored job state "
        ++ "before recovery."
  | execute =>
      "Local job identity is inconsistent. Host execution was not started."
  | complete =>
      "Host execution ended but its saved result could not be confirmed. "
        ++ "Do not repeat the host operation."
  | reconcile =>
      "The job result is saved but resource reconciliation is incomplete. "
        ++ "Inspect state before recovery."

structure Fault where
  phase : Phase
  jobId : Option Uuid
  deriving DecidableEq

-- ====== configuration

/-- What the executor is made with. -/
structure Config where
  serverId : String
  /-- where it is supplied; it may throw, which is no answer -/
  supportsOperation : Option (Operation → Option Bool)
  journalReconciliation : Bool
  /-- whether `recordExecutionEvidence` is supplied -/
  recordsEvidence : Bool

/-- What a claim resolves to. -/
structure Claim where
  job : PublicJob
  envelope : Envelope

def validId (id : Uuid) : Bool :=
  decide (8 ≤ Text.length id.text) && decide (Text.length id.text ≤ 128)

def validClaim (serverId : String) (claim : Claim) : Bool :=
  validId claim.job.id && claim.job.serverId == serverId
    && claim.job.status == .running
    && claim.envelope.id == claim.job.id
    && claim.envelope.operation == claim.job.operation
    && claim.envelope.payload.isObject

def validQueuedJob (serverId : String) (job : PublicJob) : Bool :=
  validId job.id && job.serverId == serverId && job.status == .queued

-- ====== runs

/-- The call a run of `work` awaits. -/
inductive Work where
  /-- `listJobs` -/
  | listing
  /-- `claimNext`, not begun yet -/
  | claiming (expected : Option Uuid)
  /-- `claimNext`, its write with so many before it -/
  | savingClaim (expected : Option Uuid) (ahead : Nat)
  /-- `executeOperation` -/
  | executing (claim : Claim)
  /-- `recordExecutionEvidence` -/
  | recording (claim : Claim) (result : Json)
  /-- `beginReconciliation` -/
  | beginning (done : Completion) (jobId : Uuid)
  /-- `complete`, not begun yet -/
  | completing (done : Completion) (jobId : Uuid)
  /-- `complete`, its write with so many before it -/
  | savingResult (done : Completion) (jobId : Uuid) (ahead : Nat)
  /-- `reconcileCompletedJob` -/
  | reconciling (terminal : PublicJob)
  /-- `acknowledgeReconciliation` -/
  | acknowledging (terminal : PublicJob)

/-- How the call a run awaits goes: whether it is answered as it should be,
the clock it reads and the value it returns or throws. -/
structure Answer where
  ok : Bool
  now : Instant
  value : Json

/-- What a bystander sees. -/
inductive Note where
  /-- the head of the queue, as listed -/
  | selected (id : Option Uuid)
  /-- a claim took a job -/
  | claimed (id : Uuid)
  /-- the host operation was started -/
  | started (id : Uuid)
  | returned (id : Uuid)
  | threw (id : Uuid)
  | halted
  deriving DecidableEq

/-- Where a turn leaves a run. -/
inductive Turn where
  | awaits (w : Work)
  /-- it returned -/
  | done (claimed : Bool)
  /-- it threw, with the executor as it was -/
  | unsupported (jobId : Uuid)
  /-- it halted the executor, and threw -/
  | halts (fault : Fault)

/-- A turn, with what is seen of it. -/
structure Move where
  store : Store (List Job) Failure Reply
  turn : Turn
  seen : List Note

def haltsIn (phase : Phase) (jobId : Option Uuid) : Turn :=
  .halts { phase, jobId }

/-- Where a run of `work` begins. -/
def Config.begin (cfg : Config) : Work :=
  if cfg.supportsOperation.isSome then .listing else .claiming none

/-- `selectNextJob`, of the jobs it is listed, with the job it selects. -/
def select (cfg : Config) (queued : List PublicJob) : Turn :=
  match queued.head? with
  | none => .awaits (.claiming none)
  | some next =>
      if !validQueuedJob cfg.serverId next then haltsIn .claim none
      else
        match cfg.supportsOperation with
        | none => .awaits (.claiming none)
        | some supports =>
            match supports next.operation with
            | none => haltsIn .execute (some next.id)
            | some false => .unsupported next.id
            | some true => .awaits (.claiming (some next.id))

/-- `listJobs` of the server's queued jobs. -/
def listQueued (cfg : Config) (jobs : List Job) : List PublicJob :=
  (jobs.filter (Job.claimable cfg.serverId)).map publicJob

/-- What `work` makes of a claim, once it has one. -/
def receive (cfg : Config) (expected : Option Uuid) (claim : Claim) : Turn :=
  if !validClaim cfg.serverId claim then haltsIn .execute none
  else if expected.any (· ≠ claim.job.id) then
    haltsIn .execute (some claim.job.id)
  else
    match cfg.supportsOperation with
    | none => .awaits (.executing claim)
    | some supports =>
        match supports claim.job.operation with
        | some true => .awaits (.executing claim)
        | _ => haltsIn .execute (some claim.job.id)

/-- What `work` makes of what the claim's call resolves to. -/
def claimSettled (cfg : Config) (expected : Option Uuid) :
    Outcome Failure Reply → Turn
  | .resolved (.claim job envelope) => receive cfg expected { job, envelope }
  | .resolved .nothing =>
      if expected.isSome then haltsIn .claim expected else .done false
  | .resolved _ => haltsIn .execute none
  | _ => haltsIn .claim none

/-- The host operation has ended: the completion is next. -/
def finishing (cfg : Config) (jobId : Uuid) (done : Completion) : Turn :=
  .awaits (if cfg.journalReconciliation then .beginning done jobId
    else .completing done jobId)

def succeededWith (cfg : Config) (jobId : Uuid) (result : Json) :
    Completion where
  serverId := cfg.serverId
  jobId := jobId.text
  status := "succeeded"
  result
  error := .null

def failedWith (cfg : Config) (proto : Protocol) (jobId : Uuid)
    (error : Json) : Completion where
  serverId := cfg.serverId
  jobId := jobId.text
  status := "failed"
  result := .null
  error := proto.safeLocalOperationError error

/-- The terminal job is the one that was completed, as it was completed. -/
def acknowledges (cfg : Config) (done : Completion) (jobId : Uuid)
    (terminal : PublicJob) : Bool :=
  terminal.id == jobId && terminal.serverId == cfg.serverId
    && some terminal.status == completionStatus? done.status

/-- What `work` makes of what the completion's call resolves to. -/
def completionSettled (cfg : Config) (done : Completion) (jobId : Uuid) :
    Outcome Failure Reply → Turn
  | .resolved (.job terminal) =>
      if acknowledges cfg done jobId terminal then
        .awaits (.reconciling terminal)
      else haltsIn .complete (some jobId)
  | _ => haltsIn .complete (some jobId)

/-- What is seen of a turn that starts the host operation, or halts. -/
def Turn.seen : Turn → List Note
  | awaits (.executing claim) => [.started claim.job.id]
  | halts _ => [.halted]
  | _ => []

/-- The synchronous part of a claim: the job it takes is seen. -/
def claimNow (cfg : Config) (proto : Protocol) (expected : Option Uuid)
    (now : Instant) (store : Store (List Job) Failure Reply) : Move :=
  let (store', outcome) := store.call (claimNext proto cfg.serverId now)
  match outcome with
  | .waiting =>
      ⟨store', .awaits (.savingClaim expected store.queue.length),
        (store.mem.find? (Job.claimable cfg.serverId)).toList.map
          fun job => .claimed job.id⟩
  | outcome =>
      let turn := claimSettled cfg expected outcome
      ⟨store', turn, turn.seen⟩

/-- The synchronous part of a completion. -/
def completeNow (cfg : Config) (proto : Protocol) (done : Completion)
    (jobId : Uuid) (now : Instant)
    (store : Store (List Job) Failure Reply) : Move :=
  let (store', outcome) := store.call (complete proto done now)
  match outcome with
  | .waiting =>
      ⟨store', .awaits (.savingResult done jobId store.queue.length), []⟩
  | outcome =>
      let turn := completionSettled cfg done jobId outcome
      ⟨store', turn, turn.seen⟩

/-- A turn that leaves the registry alone. -/
def stay (store : Store (List Job) Failure Reply) (turn : Turn)
    (seen : List Note) : Move :=
  ⟨store, turn, turn.seen ++ seen⟩

/-- The next turn of a run, where it does not await a write. -/
def advance (cfg : Config) (proto : Protocol) (a : Answer)
    (store : Store (List Job) Failure Reply) : Work → Option Move
  | .listing =>
      if a.ok then
        let queued := listQueued cfg store.mem
        some (stay store (select cfg queued)
          [.selected (queued.head?.map PublicJob.id)])
      else some (stay store (haltsIn .claim none) [])
  | .claiming expected =>
      if a.ok then some (claimNow cfg proto expected a.now store)
      else some (stay store (haltsIn .claim none) [])
  | .executing claim =>
      if a.ok then
        some (stay store
          (if cfg.recordsEvidence then .awaits (.recording claim a.value)
          else finishing cfg claim.job.id
            (succeededWith cfg claim.job.id a.value))
          [.returned claim.job.id])
      else
        some (stay store
          (finishing cfg claim.job.id
            (failedWith cfg proto claim.job.id a.value))
          [.threw claim.job.id])
  | .recording claim result =>
      some (stay store
        (finishing cfg claim.job.id (succeededWith cfg claim.job.id result))
        [])
  | .beginning done jobId =>
      some (stay store
        (if a.ok then .awaits (.completing done jobId)
        else haltsIn .complete (some jobId)) [])
  | .completing done jobId =>
      if a.ok then some (completeNow cfg proto done jobId a.now store)
      else some (stay store (haltsIn .complete (some jobId)) [])
  | .reconciling terminal =>
      some (stay store
        (if !a.ok then haltsIn .reconcile (some terminal.id)
        else if cfg.journalReconciliation then
          .awaits (.acknowledging terminal)
        else .done true) [])
  | .acknowledging terminal =>
      some (stay store
        (if a.ok then .done true
        else haltsIn .reconcile (some terminal.id)) [])
  | .savingClaim _ _ | .savingResult _ _ _ => none

/-- What a run makes of a write that settled, where it is its own. -/
def settled (cfg : Config) (outcome : Outcome Failure Reply) :
    Work → Option Turn
  | .savingClaim expected 0 => some (claimSettled cfg expected outcome)
  | .savingResult done jobId 0 =>
      some (completionSettled cfg done jobId outcome)
  | _ => none

/-- A write before a run's own has settled. -/
def Work.nearer : Work → Work
  | savingClaim expected ahead => savingClaim expected (ahead - 1)
  | savingResult done jobId ahead => savingResult done jobId (ahead - 1)
  | w => w

-- ====== executor

/-- The registry, and the executor's variables. -/
structure State where
  store : Store (List Job) Failure Reply
  stopped : Bool
  /-- the generation the timer was set for -/
  timer : Option Nat
  /-- the runs of `work` on their way -/
  works : List Work
  /-- whether there is an `active` promise -/
  active : Bool
  /-- the timer's callbacks that wait for it, by their generation -/
  awaiting : List Nat
  /-- those that no longer do -/
  woken : List Nat
  stopping : Bool
  epoch : Nat
  fault : Option Fault
  log : List Note

/-- An executor just made, over a registry just initialised. -/
def State.opened (jobs : List Job) : State where
  store := Store.opened jobs
  stopped := true
  timer := none
  works := []
  active := false
  awaiting := []
  woken := []
  stopping := false
  epoch := 0
  fault := none
  log := []

/-- What a caller of `runOnce` or `start` is told at once. -/
inductive Told where
  | nothing
  | faulted (fault : Fault)
  | draining
  deriving DecidableEq

inductive Event where
  /-- others' calls of the registry -/
  | enqueue (req : EnqueueRequest) (id : Uuid) (now : Instant)
  | cancel (jobId : String) (now : Instant)
  /-- the write at the head of the chain settles -/
  | settle (ok : Bool)
  /-- calls of the executor -/
  | runOnce
  | start
  | stop
  /-- the timer fires -/
  | tick
  /-- a callback of the timer goes on after its `runOnce` -/
  | resume (i : Nat)
  /-- `stopping` is settled -/
  | drained
  /-- the call a run awaits goes on -/
  | advance (i : Nat) (a : Answer)

namespace State

/-- `halt` -/
def halt (s : State) (fault : Fault) : State :=
  { s with
    fault := some fault
    stopped := true
    epoch := s.epoch + 1
    timer := none }

/-- A run is over: `active` is cleared, and whoever waited goes on. -/
def finish (s : State) (i : Nat) : State :=
  { s with
    works := s.works.eraseIdx i
    active := false
    awaiting := []
    woken := s.woken ++ s.awaiting }

/-- What a turn of the run at a position leaves. -/
def follow (s : State) (i : Nat) : Turn → State
  | .awaits w => { s with works := s.works.set i w }
  | .done _ => s.finish i
  | .unsupported _ => s.finish i
  | .halts fault => (s.halt fault).finish i

def note (s : State) (seen : List Note) : State :=
  { s with log := seen ++ s.log }

/-- `schedule`, of a generation. -/
def schedule (s : State) (generation : Nat) : State :=
  if s.stopped || s.timer.isSome || generation != s.epoch then s
  else { s with timer := some generation }

/-- `runOnce`, with what its caller is told. -/
def runOnce (cfg : Config) (s : State) : State × Told :=
  match s.fault with
  | some fault => (s, .faulted fault)
  | none =>
      if s.stopping then (s, .draining)
      else if s.active then (s, .nothing)
      else
        ({ s with works := s.works ++ [cfg.begin], active := true }, .nothing)

/-- The callback of the timer, up to its `await`. -/
def tick (cfg : Config) (s : State) : State :=
  match s.timer with
  | none => s
  | some generation =>
      let s := { s with timer := none }
      if s.stopped || generation != s.epoch then s
      else
        match s.runOnce cfg with
        | (s, .nothing) =>
            { s with awaiting := s.awaiting ++ [generation] }
        | (s, _) => { s with woken := s.woken ++ [generation] }

def start (s : State) : State × Told :=
  match s.fault with
  | some fault => (s, .faulted fault)
  | none =>
      if s.stopping then (s, .draining)
      else if !s.stopped then (s, .nothing)
      else
        ({ s with stopped := false, epoch := s.epoch + 1 }.schedule
          (s.epoch + 1), .nothing)

def stop (s : State) : State :=
  { s with
    stopped := true
    epoch := s.epoch + 1
    timer := none
    stopping := s.stopping || s.active }

/-- The write at the head of the chain settles, and the run whose own it is
goes on. -/
def settle (cfg : Config) (ok : Bool) (s : State) : State :=
  if s.store.queue.isEmpty then s
  else
    let (store, outcome) := s.store.settle .store ok
    let s' : State :=
      { s with store, works := s.works.map Work.nearer }
    match locate (fun w => (settled cfg outcome w).isSome) s.works with
    | none => s'
    | some (i, w) =>
        match settled cfg outcome w with
        | none => s'
        | some turn => (s'.follow i turn).note turn.seen

/-- The run at a position takes its next turn. -/
def advance (cfg : Config) (proto : Protocol) (i : Nat) (a : Answer)
    (s : State) : State :=
  match s.works[i]?.bind (Executor.advance cfg proto a s.store) with
  | none => s
  | some move =>
      (({ s with store := move.store }).follow i move.turn).note move.seen

def step (cfg : Config) (proto : Protocol) (s : State) :
    Event → State × Told
  | .enqueue req id now =>
      ({ s with store :=
          (s.store.call (Jobs.enqueue proto req id now)).1 }, .nothing)
  | .cancel jobId now =>
      ({ s with store := (s.store.call (Jobs.cancel jobId now)).1 }, .nothing)
  | .settle ok => (s.settle cfg ok, .nothing)
  | .runOnce => s.runOnce cfg
  | .start => s.start
  | .stop => (s.stop, .nothing)
  | .tick => (s.tick cfg, .nothing)
  | .resume i =>
      match s.woken[i]? with
      | none => (s, .nothing)
      | some generation =>
          ({ s with woken := s.woken.eraseIdx i }.schedule generation,
            .nothing)
  | .drained =>
      (if s.active then s else { s with stopping := false }, .nothing)
  | .advance i a => (s.advance cfg proto i a, .nothing)

end State

/-- The executor and its registry, under any interleaving. -/
def machine (cfg : Config) (proto : Protocol) :
    Machine State Event Told where
  step := State.step cfg proto

end Yunpanel.Jobs.Executor
