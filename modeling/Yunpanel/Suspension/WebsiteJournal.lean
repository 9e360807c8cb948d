/-
The journal of website suspensions, with its calls in flight.

# How a call is split

The store is read once, when the first call needs it. A call that changes
the operations in memory then waits four times: for the directory to be
made, for its mode to be set, for its own temporary file to be written and
for that file to be renamed over the store. What it writes are the
operations in memory at the moment the third of these begins, and nothing
orders the renames of different calls.

# Bookkeeping

`changes` and `landed` are not in the source: they count the changes made
in memory, and how many of them the file has seen that was renamed last.
-/
import Yunpanel.Lib.Flight
import Yunpanel.Suspension.WebsiteOperation

namespace Yunpanel.WebsiteSuspension

open Json Lib Lib.Result
open Suspension (Failure refuse SafeId Fault)

-- ====== store

def storeInvalid (message : String) : Failure :=
  refuse "website_suspension_operation_store_invalid" message 500

/-- What is found at the path of the store. An entry that is no object is
given as none. -/
inductive Stored where
  | absent
  | unreadable
  | malformed
  | store (operations : List (Option Draft))

/-- `JSON.stringify({ version, operations: [...operations.values()] })` -/
def Stored.of (ops : List Operation) : Stored :=
  .store (ops.map fun op => some op.draft)

/-- An operation of that identifier is there. -/
def hasOperation (ops : List Operation) (id : SafeId) : Bool :=
  ops.any fun op => op.id == id

/-- The loop of `ensureInitialized` over the stored operations. -/
def readOperations : List (Option Draft) → List Operation →
    Except Failure (List Operation)
  | [], loaded => .ok loaded
  | raw :: rest, loaded => do
      let draft ← demand
        (stateInvalid "Website suspension operation is invalid") raw
      let validated ← validateOperation draft
      ensure (storeInvalid "Duplicate operation ID found in store")
        (!hasOperation loaded validated.id)
      readOperations rest (loaded ++ [validated])

/-- What `ensureInitialized` makes of the store it has read. -/
def load : Stored → Except Failure (List Operation)
  | .absent => .ok []
  | .unreadable => .error (storeInvalid
      "Could not read website suspension operations store")
  | .malformed => .error (storeInvalid
      "Website suspension operations store format is invalid")
  | .store operations => readOperations operations []

-- ====== changes

/-- `operations.get(id)` -/
def findOperation (ops : List Operation) (id : Json) : Option Operation :=
  ops.find? fun op => id == op.id.json

/-- `operations.set(operation.id, operation)` -/
def setOperation (ops : List Operation) (op : Operation) : List Operation :=
  if hasOperation ops op.id then
    ops.map fun old => if old.id == op.id then op else old
  else ops ++ [op]

/-- `create(input)` up to its first wait for the file system. -/
def createOperation (now : Instant) (randomUUID : String)
    (input : CreateInput) (ops : List Operation) :
    Except Failure Operation := do
  let operation ← validateOperation (input.draft randomUUID now)
  ensure (refuse "website_suspension_operation_conflict"
      "Website suspension operation already exists" 409)
    (!hasOperation ops operation.id)
  return operation

/-- `update(id, changes)` up to its first wait for the file system. -/
def updateOperation (now : Instant) (id : Json) (changes : Changes)
    (ops : List Operation) : Except Failure Operation := do
  let current ← demand (refuse "website_suspension_operation_not_found"
    "Website suspension operation not found" 404) (findOperation ops id)
  validateOperation (current.changed changes now)

-- ====== calls

/-- The operations in memory and the file. -/
structure WebsiteJournal where
  operations : List Operation
  initialized : Bool
  file : Stored
  changes : Nat
  landed : Nat

inductive WebsiteCall where
  | init
  | create (input : CreateInput)
  | update (id : Json) (changes : Changes)

/-- What a segment finds around it: the time, a fresh identifier, and
whether the file operation it waited for succeeded. -/
structure WebsiteEnv where
  now : Instant
  randomUUID : String
  ok : Bool

inductive WebsiteStage where
  | entered (c : WebsiteCall)
  | reading (c : WebsiteCall)
  | received (c : WebsiteCall) (stored : Stored)
  | loaded (c : WebsiteCall)
  | making (op : Operation)
  | guarding (op : Operation)
  | writing (op : Operation) (payload : List Operation) (version : Nat)
  | moving (op : Operation) (payload : List Operation) (version : Nat)

/-- What a call did: it updated an operation, or was over. -/
inductive WebsiteNote where
  | updated (id : SafeId) (updatedAt : Instant)
  | returned
  | rejected (e : Failure)

abbrev WebsiteSegment : Type :=
  WebsiteJournal × Option WebsiteStage × List WebsiteNote

def fileFailed : Failure := .thrown "the file system refused"

/-- `operations.set(…)`, and on to `persist()`. -/
def WebsiteJournal.apply (j : WebsiteJournal) (notes : List WebsiteNote) :
    Except Failure Operation → WebsiteSegment
  | .error e => (j, none, [.rejected e])
  | .ok op =>
      ({ j with
          operations := setOperation j.operations op
          changes := j.changes + 1 },
        some (.making op), notes)

/-- The call itself, once the store has been read. -/
def WebsiteJournal.serve (j : WebsiteJournal) (env : WebsiteEnv) :
    WebsiteCall → WebsiteSegment
  | .init => (j, none, [.returned])
  | .create input =>
      j.apply [] (createOperation env.now env.randomUUID input j.operations)
  | .update id changes =>
      j.apply ((findOperation j.operations id).toList.map fun op =>
          .updated op.id env.now)
        (updateOperation env.now id changes j.operations)

/-- The end of `ensureInitialized`. -/
def WebsiteJournal.adopt (j : WebsiteJournal) (c : WebsiteCall)
    (stored : Stored) : WebsiteSegment :=
  match load stored with
  | .error e => (j, none, [.rejected e])
  | .ok operations =>
      ({ j with operations, initialized := true }, some (.loaded c), [])

/-- The store is what the call has renamed over it. -/
def WebsiteJournal.rename (j : WebsiteJournal) (payload : List Operation)
    (version : Nat) : WebsiteJournal :=
  { j with file := .of payload, landed := version }

/-- A file operation that failed ends the call. -/
def WebsiteJournal.after (j : WebsiteJournal) (ok : Bool)
    (segment : WebsiteSegment) : WebsiteSegment :=
  if ok then segment else (j, none, [.rejected fileFailed])

/-- One segment of a call. -/
def WebsiteJournal.resume (j : WebsiteJournal) :
    WebsiteStage → WebsiteEnv → WebsiteSegment
  | .entered c, _ =>
      (j, some (if j.initialized then .loaded c else .reading c), [])
  | .reading c, env =>
      (j, some (.received c (if env.ok then j.file else .unreadable)), [])
  | .received c stored, _ => j.adopt c stored
  | .loaded c, env => j.serve env c
  | .making op, env => j.after env.ok (j, some (.guarding op), [])
  -- `.catch(() => {})`: the mode may have been refused
  | .guarding op, _ =>
      (j, some (.writing op j.operations j.changes), [])
  | .writing op payload version, env =>
      j.after env.ok (j, some (.moving op payload version), [])
  | .moving _ payload version, env =>
      j.after env.ok (j.rename payload version, none, [.returned])

/-- The journal with its calls in flight. Nothing but the calls touches the
file; a process that starts again has read nothing yet. -/
def websiteJournalProtocol :
    Protocol WebsiteJournal WebsiteCall WebsiteStage WebsiteEnv Empty
      WebsiteNote where
  enter := .entered
  resume := WebsiteJournal.resume
  world j _ := j
  reopen j :=
    { operations := []
      initialized := false
      file := j.file
      changes := 0
      landed := 0 }

/-- A process that has just started, with what it finds at the path. -/
def started (file : Stored) : Flight WebsiteJournal WebsiteStage :=
  Flight.fresh
    { operations := []
      initialized := false
      file
      changes := 0
      landed := 0 }

end Yunpanel.WebsiteSuspension
