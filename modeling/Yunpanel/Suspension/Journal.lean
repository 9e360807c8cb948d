/-
The journal of domain suspensions, with its calls in flight.

# How a call is split

A transition reads the operation across a wait (`await get(id)`) and then
decides on the copy it was given: what it writes is the copy with a few
fields changed, put where the operation is kept by then. In between other
calls run. Its last wait is for the write it has queued.

Writes go through one promise chain that nothing ever repairs; the chain
is that of the library, and a call whose write is queued holds a ticket.
-/
import Yunpanel.Lib.Desk
import Yunpanel.Lib.Flight
import Yunpanel.Lib.Table
import Yunpanel.Suspension.Operation

namespace Yunpanel.Suspension

open Json Lib Lib.Result

-- ====== transitions

/-- What a transition decides of the operation it has read: it is as wanted
already, or is rewritten. -/
inductive Decision where
  | asIs
  | rewrite (r : Record)
  deriving DecidableEq

/-- An operation in the status wanted stays, one in a status of `sources`
is rewritten, any other is refused. -/
def transition (wanted : Status) (sources : List Status) (e : Failure)
    (update : Except Failure Record) (op : Operation) :
    Except Failure Decision :=
  if op.status = wanted then .ok .asIs
  else if op.status ∈ sources then update.map .rewrite
  else .error e

def markSuspending (op : Operation) : Except Failure Decision :=
  transition .suspending [.pending, .failed]
    (refuse "domain_suspension_operation_not_suspendable"
      "Domain suspension operation cannot enter suspending state" 409)
    (.ok { op.toRecord with
      status := .suspending
      suspendResult := none
      suspendError := none
      resumeResult := none
      resumeError := none })
    op

def succeedSuspend (hostChanged : Json) (suspendedAt : Option Instant)
    (op : Operation) : Except Failure Decision := do
  let result ← suspendResult hostChanged suspendedAt
  ensure (refuse "domain_suspension_operation_result_conflict"
      "Domain suspension already completed with different evidence" 409)
    (op.status != .suspended || op.suspendResult == some result)
  transition .suspended [.suspending]
    (refuse "domain_suspension_operation_not_suspending"
      "Domain suspension operation is not suspending" 409)
    (.ok { op.toRecord with
      status := .suspended
      suspendResult := some result
      suspendError := none
      resumeResult := none
      resumeError := none })
    op

def failSuspend (error : Json) (op : Operation) : Except Failure Decision :=
  transition .failed [.pending, .suspending]
    (refuse "domain_suspension_operation_not_mutable"
      "Domain suspension operation cannot fail from current state" 409)
    ((safeError error).map fun fault => { op.toRecord with
      status := .failed
      suspendResult := none
      suspendError := fault
      resumeResult := none
      resumeError := none })
    op

def markResuming (op : Operation) : Except Failure Decision :=
  transition .resuming [.suspended, .resumeFailed]
    (refuse "domain_suspension_operation_not_resumable"
      "Domain suspension operation cannot enter resuming state" 409)
    (.ok { op.toRecord with
      status := .resuming
      resumeResult := none
      resumeError := none })
    op

def succeedResume (hostChanged : Json) (resumedAt : Option Instant)
    (op : Operation) : Except Failure Decision := do
  let result ← resumeResult hostChanged resumedAt
  ensure (refuse "domain_resume_operation_result_conflict"
      "Domain resume already completed with different evidence" 409)
    (op.status != .resumed || op.resumeResult == some result)
  transition .resumed [.resuming]
    (refuse "domain_suspension_operation_not_resuming"
      "Domain suspension operation is not resuming" 409)
    (.ok { op.toRecord with
      status := .resumed
      resumeResult := some result
      resumeError := none })
    op

def failResume (error : Json) (op : Operation) : Except Failure Decision :=
  transition .resumeFailed [.resuming]
    (refuse "domain_suspension_operation_not_resuming"
      "Domain suspension operation is not resuming" 409)
    ((safeError error).map fun fault => { op.toRecord with
      status := .resumeFailed
      resumeResult := none
      resumeError := fault })
    op

/-- A transition with its argument. -/
inductive Request where
  | markSuspending
  | succeedSuspend (hostChanged : Json) (suspendedAt : Option Instant)
  | failSuspend (error : Json)
  | markResuming
  | succeedResume (hostChanged : Json) (resumedAt : Option Instant)
  | failResume (error : Json)

def Request.decide : Request → Operation → Except Failure Decision
  | markSuspending => Suspension.markSuspending
  | succeedSuspend hostChanged suspendedAt =>
      Suspension.succeedSuspend hostChanged suspendedAt
  | failSuspend error => Suspension.failSuspend error
  | markResuming => Suspension.markResuming
  | succeedResume hostChanged resumedAt =>
      Suspension.succeedResume hostChanged resumedAt
  | failResume error => Suspension.failResume error

-- ====== journal

/-- The operations in memory, the file, and the writes between them. -/
abbrev Journal := Desk (List Operation) Failure Operation

abbrev JournalEffect := Effect (List Operation) Failure Operation

def operationNotFound : Failure :=
  refuse "domain_suspension_operation_not_found"
    "Domain suspension operation was not found" 404

/-- The operation an identifier names. -/
def findOperation (ops : List Operation) (id : String) : Option Operation :=
  ops.find? fun op => op.id.text == id

/-- `get(operationId)` -/
def getOperation (ops : List Operation) (operationId : Json) :
    Except Failure (Option Operation) := do
  let id ← safeId "operationId" operationId
  return findOperation ops id.text

/-- `mutate(operation, update)` up to its wait. -/
def mutate (now : Int) (op : Operation) (update : Record)
    (ops : List Operation) : JournalEffect :=
  match locate (fun candidate => candidate.id.text == op.id.text) ops with
  | none => .refused operationNotFound
  | some (i, _) =>
      match instant (max now (op.updatedAt.ms + 1)) with
      | .error e => .refused e
      | .ok updatedAt =>
          match persistedOperation { update with updatedAt } with
          | .error e => .refused e
          | .ok next => .written (ops.set i next) fun _ => .ok next

/-- `create(preview)` up to its wait. -/
def create (now : Int) (id : String) (preview : Json)
    (ops : List Operation) : JournalEffect :=
  match ops.find? (Operation.repeats preview) with
  | some duplicate => .replied duplicate
  | none =>
      match operationFromPreview now id preview with
      | .error e => .refused e
      | .ok operation => .written (ops ++ [operation]) fun _ => .ok operation

/-- A transition, once it has read the operation. -/
def Request.effect (now : Int) (r : Request) (read : Option Operation)
    (ops : List Operation) : JournalEffect :=
  match read with
  | none => .refused operationNotFound
  | some op =>
      match r.decide op with
      | .error e => .refused e
      | .ok .asIs => .replied op
      | .ok (.rewrite update) => mutate now op update ops

-- ====== calls

inductive JournalCall where
  | create (preview : Json)
  | request (operationId : Json) (r : Request)

/-- What a segment finds around it. -/
structure JournalEnv where
  now : Int
  randomUUID : String

inductive JournalStage where
  | entered (c : JournalCall)
  | read (r : Request) (op : Option Operation)
  | saving (ticket : Nat)

/-- What a call did: it changed the operations in memory, or was over. -/
inductive JournalNote where
  | changed
  | returned (op : Operation)
  | rejected (e : Failure)

abbrev JournalSegment : Type :=
  Journal × Option JournalStage × List JournalNote

/-- The synchronous end of a call: it is over, or waits for its write. -/
def Journal.submit (j : Journal) (f : List Operation → JournalEffect) :
    JournalSegment :=
  match j.ask f with
  | (j, .told (.ok op)) => (j, none, [.returned op])
  | (j, .told (.error e)) => (j, none, [.rejected e])
  | (j, .ticket n) => (j, some (.saving n), [.changed])

/-- `await get(operationId)` -/
def Journal.readOperation (j : Journal) (operationId : Json) (r : Request) :
    JournalSegment :=
  match getOperation j.mem operationId with
  | .error e => (j, none, [.rejected e])
  | .ok op => (j, some (.read r op), [])

/-- The wait for a write. -/
def Journal.collected (j : Journal) (n : Nat) : JournalSegment :=
  match j.collect n with
  | some (.resolved op) => (j, none, [.returned op])
  | some (.rejected e) => (j, none, [.rejected e])
  | _ => (j, some (.saving n), [])

/-- One segment of a call. -/
def Journal.resume (j : Journal) :
    JournalStage → JournalEnv → JournalSegment
  | .entered (.create preview), env =>
      j.submit (create env.now env.randomUUID preview)
  | .entered (.request operationId r), _ => j.readOperation operationId r
  | .read r op, env => j.submit (r.effect env.now op)
  | .saving n, _ => j.collected n

/-- What the file system does: the write at the head of the chain
succeeds, or fails. -/
inductive JournalWorld where
  | settle (ok : Bool)

def writeFailed : Failure := .thrown "the store could not be written"

def journalWorld (j : Journal) : JournalWorld → Journal
  | .settle ok => j.settle writeFailed ok

/-- The journal with its calls in flight; after a crash it starts on the
file. -/
def journalProtocol :
    Protocol Journal JournalCall JournalStage JournalEnv JournalWorld
      JournalNote where
  enter := .entered
  resume := Journal.resume
  world := journalWorld
  reopen j := Desk.opened j.file

/-- A journal just opened, with no call made yet. -/
def opened (ops : List Operation) : Flight Journal JournalStage :=
  Flight.fresh (Desk.opened ops)

end Yunpanel.Suspension
