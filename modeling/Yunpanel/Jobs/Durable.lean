/-
The durable job registry: the base registry behind a recovery record.

# The world

`World` is one process and the two files it writes. Every mutation waits
for the one before it, so a call runs as one program from a world to a
world; what can happen inside it is a file operation failing (`faults`
answers them in turn) and, at the end of the process, a crash between two
of its writes (`written` is the disk after each of them).

# The programs

Each definition below is the source's function of that name. A program
that throws keeps what it did before: an in-memory change whose write
failed is there until `reloadDurableState` drops it. `latch` is the end of
the process: from then on every call is refused.
-/
import Yunpanel.Lib.Exec
import Yunpanel.Jobs.Recovery
import Yunpanel.Jobs.Registry

namespace Yunpanel.Jobs.Durable

open Lib

-- ====== world

/-- The two files. -/
structure Disk where
  jobs : List Job
  record : RecoveryRecord

/-- `fatal`, once latched. -/
structure Fatal where
  code : String
  message : String
  deriving DecidableEq, Repr

structure World where
  disk : Disk
  /-- the inner registry's job list -/
  jobs : List Job
  /-- the recovery store's `state` -/
  record : RecoveryRecord
  fatal : Option Fatal
  recovery : Option (List Identity)
  reconciliationPending : List String
  explicitlyBegun : List String
  initialized : Bool
  /-- whether each file operation to come fails; none are listed for those
  that succeed -/
  faults : List Bool
  clock : Instant
  /-- the disk after each write of the call, oldest first -/
  written : List Disk

/-- A process before its first call. -/
def World.boot (disk : Disk) : World :=
  { disk
    jobs := []
    record := .empty
    fatal := none
    recovery := none
    reconciliationPending := []
    explicitlyBegun := []
    initialized := false
    faults := []
    clock := ⟨0⟩
    written := [] }

/-- Why a call of the durable registry rejects: its own error, the inner
registry's, or one a file or the recovery store threw. -/
inductive Rejection where
  | durable (code message : String)
  | registry (failure : Failure)
  | thrown
  deriving DecidableEq, Repr

abbrev Program := Exec World Rejection

def recoveryCode : String := "durable_job_reconciliation_required"

def recoveryMessage : String :=
  "Persisted running jobs require reconciliation before new job "
    ++ "mutations can continue"

-- ====== files

/-- One file operation: whether it succeeds. -/
def io : Program Bool := do
  let faults ← Exec.read World.faults
  match faults with
  | [] => return true
  | bad :: rest =>
      Exec.modify fun w => { w with faults := rest }
      return !bad

def World.putDisk (w : World) (disk : Disk) : World :=
  { w with disk, written := w.written ++ [disk] }

/-- The inner registry's `persist`. -/
def persistJobs : Program Unit := do
  let ok ← io
  if ok then
    Exec.modify fun w => w.putDisk { w.disk with jobs := w.jobs }
  else Exec.fail (.registry .store)

/-- The recovery store's `persist`: the file first, then its state. -/
def persistRecord (next : RecoveryRecord) : Program Unit := do
  let ok ← io
  if ok then
    Exec.modify fun w =>
      { w.putDisk { w.disk with record := next } with record := next }
  else Exec.fail .thrown

/-- A fresh inner registry's `init`. -/
def loadJobs : Program Unit := do
  let ok ← io
  if ok then
    Exec.modify fun w => { w with jobs := w.disk.jobs }
  else Exec.fail .thrown

/-- The recovery store's `init`. -/
def loadRecord : Program Unit := do
  let ok ← io
  if ok then
    let normal ← Exec.read fun w => w.disk.record.normal
    if normal then
      Exec.modify fun w => { w with record := w.disk.record }
    else Exec.fail .thrown
  else Exec.fail .thrown

-- ====== latching

def assertHealthy : Program Unit := do
  let fatal ← Exec.read World.fatal
  match fatal with
  | some fatal => Exec.fail (.durable fatal.code fatal.message)
  | none => return ()

def latch {α : Type} (code message : String) : Program α := do
  Exec.modify fun w => { w with fatal := some { code, message } }
  Exec.fail (.durable code message)

/-- `if (fatal) throw error; latch(code, message);` -/
def rethrowOrLatch {α : Type} (code message : String) (e : Rejection) :
    Program α := do
  let latched ← Exec.read fun w => w.fatal.isSome
  if latched then Exec.fail e else latch code message

/-- What `setRecovery` makes of a list of identities. -/
def recoveryOf (jobs : List Identity) : Option (List Identity) :=
  let normalized := uniqueRecoveryJobs jobs
  if normalized.isEmpty then none else some normalized

def setRecovery (jobs : List Identity) : Program Unit :=
  Exec.modify fun w => { w with recovery := recoveryOf jobs }

-- ====== recovery record

/-- `recoverySnapshotJobs` -/
def recoverySnapshotJobs : Program (List Identity) := do
  let stored ← Exec.read fun w => w.record.jobs
  match stored.mapM fun job => safeRecoveryJob job.jobId job.serverId with
  | some jobs => return jobs
  | none =>
      latch "durable_job_recovery_state_invalid"
        "Durable job recovery record contains invalid job identity"

def recordUnsynchronized {α : Type} (e : Rejection) : Program α :=
  rethrowOrLatch "durable_job_recovery_record_failed"
    "Durable job recovery record could not be synchronized" e

/-- The recovery store's `add`, `remove` and `replace`: a transform that
changes nothing writes nothing. -/
def queueMutation (normal : Bool)
    (transform : RecoveryRecord → RecoveryRecord) : Program Unit := do
  if normal then
    let current ← Exec.read World.record
    if transform current = current then return ()
    else persistRecord (transform current)
  else Exec.fail .thrown

def addRecoveryJob (job : Identity) : Program Unit :=
  Exec.attempt
    (do
      let now ← Exec.read World.clock
      queueMutation job.normal (RecoveryRecord.addJob now job))
    recordUnsynchronized

def removeRecoveryJob (job : Identity) : Program Unit :=
  Exec.attempt (queueMutation job.normal (RecoveryRecord.removeJob job))
    recordUnsynchronized

/-- `replace` writes even what is there already. -/
def replaceRecoveryJobs (jobs : List Identity) : Program Unit :=
  Exec.attempt
    (do
      let now ← Exec.read World.clock
      if jobs.all Identity.normal && decide (jobs.map Identity.key).Nodup
      then persistRecord (RecoveryRecord.replaceJobs now jobs)
      else Exec.fail .thrown)
    recordUnsynchronized

def syncRecoveryRecord (jobs : List Identity) : Program Unit := do
  let stored ← recoverySnapshotJobs
  if recoveryIdentity stored = recoveryIdentity jobs then return ()
  else replaceRecoveryJobs jobs

/-- One entry of the recovery record against the job list: it has to be
there, running or terminal, and a terminal one is pending. -/
def inspectStored (identity : Identity) : Program Unit := do
  let job ← Exec.read fun w => findJob w.jobs identity.jobId
  match job.filter fun job => job.serverId == identity.serverId
      && (job.status == .running || job.status.terminal) with
  | none =>
      latch "durable_job_recovery_state_invalid"
        "Durable job recovery record does not match persisted job state"
  | some job =>
      if job.status.terminal then
        Exec.modify fun w =>
          { w with reconciliationPending :=
              w.reconciliationPending.insert identity.key }
      else return ()

def detectRecovery : Program Unit := do
  let running ← Exec.read fun w =>
    w.jobs.filter fun job => job.status == .running
  match running.mapM fun job =>
      safeRecoveryJob job.id.text job.serverId with
  | none =>
      latch "durable_job_recovery_state_invalid"
        "Durable job registry contains invalid running-job identity"
  | some runningJobs =>
      let storedJobs ← recoverySnapshotJobs
      let jobs := uniqueRecoveryJobs (storedJobs ++ runningJobs)
      Exec.modify fun w =>
        { w with reconciliationPending := [], explicitlyBegun := [] }
      Exec.forEach inspectStored storedJobs
      setRecovery jobs
      syncRecoveryRecord jobs

-- ====== opening and reopening

def init : Program Unit := do
  let initialized ← Exec.read World.initialized
  if initialized then return ()
  else
    assertHealthy
    Exec.attempt
      (do
        loadJobs
        Exec.attempt loadRecord fun _ =>
          latch "durable_job_recovery_record_failed"
            "Durable job recovery record could not be initialized"
        detectRecovery
        Exec.modify fun w => { w with initialized := true })
      (rethrowOrLatch "durable_job_init_failed"
        "Durable job registry could not be initialized")

def reloadDurableState (inspectRecovery : Bool) : Program Unit :=
  Exec.attempt
    (do
      loadJobs
      Exec.modify fun w => { w with initialized := true }
      let recovery ← Exec.read World.recovery
      if inspectRecovery || recovery.isSome then detectRecovery
      else return ())
    (rethrowOrLatch "durable_job_recovery_failed"
      "Durable job registry could not recover committed state")

-- ====== mutations

def assertMutationAllowed (c : Call) : Program Unit := do
  assertHealthy
  let recovery ← Exec.read World.recovery
  match c with
  | .complete _ _ => return ()
  | _ =>
      if recovery.isSome then
        Exec.fail (.durable recoveryCode recoveryMessage)
      else return ()

/-- The inner registry's method: its synchronous part, then its write. -/
def callRegistry (proto : Protocol) (c : Call) : Program Reply := do
  let jobs ← Exec.read World.jobs
  match c.effect proto jobs with
  | .refused e => Exec.fail (.registry e)
  | .spoiled jobs e =>
      Exec.modify fun w => { w with jobs }
      Exec.fail (.registry e)
  | .replied reply => return reply
  | .written jobs reply =>
      Exec.modify fun w => { w with jobs }
      persistJobs
      match reply jobs with
      | .ok a => return a
      | .error e => Exec.fail (.registry e)

/-- What `prepareAutomaticReconciliation` hands on. -/
structure Automatic where
  identity : Identity
  explicit : Bool

/-- A running job enters the recovery record, pending from then on. -/
def enterReconciliation (identity : Identity) (explicit : Bool) :
    Program Unit := do
  addRecoveryJob identity
  Exec.modify fun w =>
    { w with
      reconciliationPending :=
        w.reconciliationPending.insert identity.key
      explicitlyBegun :=
        if explicit then w.explicitlyBegun.insert identity.key
        else w.explicitlyBegun }
  let recovery ← Exec.read fun w => w.recovery.getD []
  setRecovery (recovery ++ [identity])

def prepareAutomaticReconciliation (automatic : Bool) (c : Completion) :
    Program (Option Automatic) := do
  if !automatic then return none
  else
    match safeRecoveryJob c.jobId c.serverId with
    | none => return none
    | some identity => do
        let explicit ← Exec.read fun w =>
          decide (identity.key ∈ w.explicitlyBegun)
        if explicit then return some { identity, explicit := true }
        else
          let job ← Exec.read fun w => findJob w.jobs identity.jobId
          Exec.onlyIf
            (job.any fun job => job.serverId == identity.serverId
              && job.status == .running)
            (enterReconciliation identity false)
          return some { identity, explicit := false }

/-- What `mutate` does once the inner `complete` has returned: the job
whose acknowledgement is left to the caller, if there is one. -/
def afterComplete (automatic : Bool) (c : Completion)
    (prepared : Option Automatic) : Program (Option Identity) := do
  match (prepared.map Automatic.identity).or
      (safeRecoveryJob c.jobId c.serverId) with
  | none => return none
  | some identity =>
      let pending ← Exec.read fun w =>
        decide (identity.key ∈ w.reconciliationPending)
      let recovery ← Exec.read World.recovery
      if automatic && !(prepared.any Automatic.explicit) && pending then
        return some identity
      else if recovery.isSome && !pending then
        removeRecoveryJob identity
        detectRecovery
        return none
      else return none

/-- What a call of the durable registry resolves to. -/
inductive DurableReply where
  | done
  | registry (reply : Reply) (acknowledgeable : Option Identity)
  | begun (identity : Identity) (status : Status) (pending : Bool)
  | acknowledged (identity : Identity) (status : Status)
      (acknowledged : Bool)
  | jobs (jobs : List PublicJob)
  | job (job : Option PublicJob)

/-- The part of `mutate` inside its `try`. -/
def perform (automatic : Bool) (proto : Protocol) (c : Call) :
    Program DurableReply := do
  match c with
  | .complete input _ =>
      let prepared ← prepareAutomaticReconciliation automatic input
      let reply ← callRegistry proto c
      let acknowledgeable ← afterComplete automatic input prepared
      return .registry reply acknowledgeable
  | _ =>
      let reply ← callRegistry proto c
      return .registry reply none

def Call.inspects : Call → Bool
  | .claimNext _ _ => true
  | .complete _ _ => true
  | _ => false

def mutate (automatic : Bool) (proto : Protocol) (c : Call) :
    Program DurableReply := do
  init
  assertMutationAllowed c
  Exec.attempt (perform automatic proto c) fun e => do
    let latched ← Exec.read fun w => w.fatal.isSome
    if latched then Exec.fail e
    else
      reloadDurableState (Call.inspects c)
      Exec.fail e

-- ====== reconciliation

/-- The job an identity names, where the inner registry has it. -/
def reconciliationJob (identity : Identity) : Program Job := do
  let job ← Exec.read fun w => findJob w.jobs identity.jobId
  match job.filter fun job => job.serverId == identity.serverId with
  | some job => return job
  | none =>
      Exec.fail (.durable "durable_job_reconciliation_job_not_found"
        "Durable job reconciliation job was not found")

def reconciliationIdentity (jobId serverId : String) :
    Program Identity :=
  match safeRecoveryJob jobId serverId with
  | some identity => return identity
  | none =>
      Exec.fail (.durable "durable_job_reconciliation_identity_invalid"
        "Durable job reconciliation identity is invalid")

def beginReconciliation (jobId serverId : String) :
    Program DurableReply := do
  init
  assertHealthy
  let identity ← reconciliationIdentity jobId serverId
  let job ← reconciliationJob identity
  if job.status.terminal then
    let pending ← Exec.read fun w =>
      decide (identity.key ∈ w.reconciliationPending)
    return .begun identity job.status pending
  else if job.status ≠ .running then
    Exec.fail (.durable "durable_job_reconciliation_not_running"
      "Only running jobs can enter durable reconciliation")
  else
    enterReconciliation identity true
    return .begun identity job.status true

/-- An acknowledged job leaves the recovery record. -/
def leaveReconciliation (identity : Identity) : Program Unit := do
  removeRecoveryJob identity
  Exec.modify fun w =>
    { w with
      reconciliationPending :=
        w.reconciliationPending.filter (· ≠ identity.key)
      explicitlyBegun := w.explicitlyBegun.filter (· ≠ identity.key) }
  let recovery ← Exec.read fun w => w.recovery.getD []
  setRecovery (recovery.filter fun candidate =>
    candidate.key ≠ identity.key)

def acknowledgeReconciliation (jobId serverId : String) :
    Program DurableReply := do
  init
  assertHealthy
  let identity ← reconciliationIdentity jobId serverId
  let job ← reconciliationJob identity
  if !job.status.terminal then
    Exec.fail (.durable "durable_job_reconciliation_not_ready"
      ("Durable job reconciliation can only be acknowledged after "
        ++ "terminal completion"))
  else
    let stored ← recoverySnapshotJobs
    let held ← Exec.read fun w =>
      decide (identity.key ∈ w.reconciliationPending)
        || decide (identity.key ∈ (w.recovery.getD []).map Identity.key)
    if identity.key ∈ stored.map Identity.key then
      leaveReconciliation identity
      return .acknowledged identity job.status true
    else if held then
      latch "durable_job_recovery_state_invalid"
        "Durable job recovery memory does not match the recovery record"
    else
      Exec.modify fun w =>
        { w with
          explicitlyBegun := w.explicitlyBegun.filter (· ≠ identity.key) }
      return .acknowledged identity job.status false

-- ====== reads

/-- `listJobs`' filters; an absent one lets everything through. -/
structure JobFilter where
  serverId : Option String
  resourceType : Option ResourceType
  resourceId : Option String
  status : Option Status

def JobFilter.accepts (f : JobFilter) (job : Job) : Bool :=
  f.serverId.all (· == job.serverId)
    && f.resourceType.all (· == job.resourceType)
    && f.resourceId.all (· == job.resourceId)
    && f.status.all (· == job.status)

inductive Query where
  | getJob (jobId : String)
  | listJobs (filter : JobFilter)
  | findIdempotentJob (req : EnqueueRequest)

/-- What a query answers from a job list. -/
def Query.answer (proto : Protocol) (jobs : List Job) :
    Query → Except Rejection DurableReply
  | getJob jobId => .ok (.job ((findJob jobs jobId).map publicJob))
  | listJobs filter => .ok (.jobs ((jobs.filter filter.accepts).map publicJob))
  | findIdempotentJob req =>
      match Jobs.findIdempotentJob proto req jobs with
      | .error e => .error (.registry e)
      | .ok reply => .ok (.registry reply none)

def query (proto : Protocol) (q : Query) : Program DurableReply := do
  init
  assertHealthy
  let jobs ← Exec.read World.jobs
  Exec.ofExcept (q.answer proto jobs)

-- ====== machine

/-- A call of the durable registry. -/
inductive Op where
  | init
  | enqueue (req : EnqueueRequest) (id : Uuid) (now : Instant)
  | claimNext (serverId : String) (now : Instant)
  | complete (c : Completion) (now : Instant)
  | cancel (jobId : String) (now : Instant)
  | beginReconciliation (jobId serverId : String)
  | acknowledgeReconciliation (jobId serverId : String)
  | query (q : Query)

def Op.program (automatic : Bool) (proto : Protocol) :
    Op → Program DurableReply
  | init => do
      Durable.init
      return .done
  | enqueue req id now => mutate automatic proto (.enqueue req id now)
  | claimNext serverId now =>
      mutate automatic proto (.claimNext serverId now)
  | complete c now => mutate automatic proto (.complete c now)
  | cancel jobId now => mutate automatic proto (.cancel jobId now)
  | beginReconciliation jobId serverId =>
      Durable.beginReconciliation jobId serverId
  | acknowledgeReconciliation jobId serverId =>
      Durable.acknowledgeReconciliation jobId serverId
  | query q => Durable.query proto q

/-- A call, with what the clock and the files answer it. -/
structure Turn where
  op : Op
  clock : Instant
  faults : List Bool

/-- The world a call starts in. -/
def World.begin (w : World) (t : Turn) : World :=
  { w with faults := t.faults, clock := t.clock, written := [] }

/-- The durable registry in one process: each input one call, run to its
end. -/
def machine (automatic : Bool) (proto : Protocol) :
    Machine World Turn (Except Rejection DurableReply) where
  step w t :=
    let (answer, w') := (t.op.program automatic proto).run (w.begin t)
    (w', answer)

/-- What becomes of a call: it ends, or the process dies once so many of
its writes are through and a new one starts on what is on disk. -/
structure Fate where
  turn : Turn
  crash : Option Nat

/-- The disk once so many of a call's writes are through. -/
def diskAfter (before : Disk) (written : List Disk) (n : Nat) : Disk :=
  (written.take n).getLast?.getD before

/-- The durable registry over any number of processes. -/
def crashMachine (automatic : Bool) (proto : Protocol) :
    Machine World Fate (Option (Except Rejection DurableReply)) where
  step w f :=
    let (w', answer) := (machine automatic proto).step w f.turn
    match f.crash with
    | none => (w', some answer)
    | some n => (World.boot (diskAfter w.disk w'.written n), none)

end Yunpanel.Jobs.Durable
