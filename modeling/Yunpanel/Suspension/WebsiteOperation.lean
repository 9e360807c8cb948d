/-
Suspensions of websites: the record the journal keeps of one.

A website is suspended by suspending its domains one after another, and the
record lists them, each with the operation that suspends it and the status
that operation had when it was last heard of. An update replaces any of the
fields that say how the operation stands; what it is about stays.
-/
import Yunpanel.Suspension.Operation

namespace Yunpanel.WebsiteSuspension

open Json Lib.Result
open Suspension (Failure refuse SafeId Fault)

def stateInvalid (message : String) : Failure :=
  refuse "website_suspension_operation_state_invalid" message 409

/-- `STATUSES` -/
inductive Status where
  | pending | suspending | suspended | partly | failed | resuming | resumed
  | resumePartly | resumeFailed
  deriving DecidableEq, Repr

namespace Status

def text : Status → String
  | pending => "pending"
  | suspending => "suspending"
  | suspended => "suspended"
  | partly => "partial"
  | failed => "failed"
  | resuming => "resuming"
  | resumed => "resumed"
  | resumePartly => "resume_partial"
  | resumeFailed => "resume_failed"

def all : List Status :=
  [pending, suspending, suspended, partly, failed, resuming, resumed,
    resumePartly, resumeFailed]

/-- `STATUSES.has(value)` -/
def read? (value : Json) : Option Status :=
  all.find? fun status => value == .str status.text

end Status

/-- The statuses of the operation of a domain, as an entry spells them. -/
def childStatusText : Suspension.Status → String
  | .pending => "pending"
  | .suspending => "suspending"
  | .suspended => "suspended"
  | .failed => "failed"
  | .resuming => "resuming"
  | .resumed => "resumed"
  | .resumeFailed => "resume_failed"

def childStatuses : List Suspension.Status :=
  [.pending, .suspending, .suspended, .failed, .resuming, .resumed,
    .resumeFailed]

def childStatus? (value : Json) : Option Suspension.Status :=
  childStatuses.find? fun status => value == .str (childStatusText status)

-- ====== entries

/-- `safeError(value)` -/
def safeError : Json → Except Failure (Option Fault)
  | .null => .ok none
  | value => do
      let invalid := stateInvalid
        "Website suspension failure evidence is invalid"
      let fields ← demand invalid value.object?
      let code ← demand invalid (Matching.read? (fields.get "code"))
      let message ← demand invalid (Matching.read? (fields.get "message"))
      return some { code, message }

def faultJson (fault : Fault) : Json :=
  .obj [("code", fault.code.json), ("message", fault.message.json)]

/-- How one domain of the website stands. -/
structure Entry where
  domainId : SafeId
  operationId : Option SafeId
  status : Suspension.Status
  error : Option Fault
  deriving DecidableEq

def Entry.json (entry : Entry) : Json :=
  .obj [("domainId", entry.domainId.json),
    ("operationId", ofOption Matching.json entry.operationId),
    ("status", .str (childStatusText entry.status)),
    ("error", ofOption faultJson entry.error)]

/-- `domainOperationEntry(entry)` -/
def domainOperationEntry (entry : Json) : Except Failure Entry := do
  let invalid := stateInvalid
    "Domain operation entry in website suspension is invalid"
  let fields ← demand invalid entry.object?
  let domainId ← demand invalid (Matching.read? (fields.get "domainId"))
  let operationId ← demand invalid
    (fields.read "operationId" (nullable? Matching.read?))
  let status ← demand invalid (childStatus? (fields.get "status"))
  let error ← safeError (fields.get "error")
  return { domainId, operationId, status, error }

/-- `domainOperationsList(list)` -/
def domainOperationsList (list : Json) : Except Failure (List Entry) := do
  let items ← demand
    (stateInvalid "Domain operations list must be an array") list.arr?
  items.mapM domainOperationEntry

-- ====== operations

/-- A text that has to be there. -/
def isGiven (s : String) : Bool := s != ""

structure Operation where
  id : SafeId
  websiteId : SafeId
  serverId : SafeId
  websiteRevision : Ranged 1 9007199254740991
  previewDigest : Sha256
  confirmation : Matching isGiven
  status : Status
  domainOperations : List Entry
  error : Option Fault
  createdAt : Instant
  updatedAt : Instant
  completedAt : Option Instant
  deriving DecidableEq

/-- What is given for a point in time: nothing, or a text, which need not
be the one of an instant. -/
inductive Moment where
  | nothing
  | text (instant : Option Instant)
  deriving DecidableEq

def Moment.ofOption : Option Instant → Moment
  | none => nothing
  | some instant => text (some instant)

/-- An operation that is still to be checked; a text that is not the one of
an instant is given as none. -/
structure Draft where
  id : Json
  websiteId : Json
  serverId : Json
  websiteRevision : Json
  previewDigest : Json
  confirmation : Json
  status : Json
  domainOperations : Json
  error : Json
  createdAt : Option Instant
  updatedAt : Option Instant
  completedAt : Moment

/-- An operation as it is written. -/
def Operation.draft (op : Operation) : Draft where
  id := op.id.json
  websiteId := op.websiteId.json
  serverId := op.serverId.json
  websiteRevision := op.websiteRevision.json
  previewDigest := op.previewDigest.json
  confirmation := op.confirmation.json
  status := .str op.status.text
  domainOperations := .arr (op.domainOperations.map Entry.json)
  error := ofOption faultJson op.error
  createdAt := some op.createdAt
  updatedAt := some op.updatedAt
  completedAt := .ofOption op.completedAt

/-- `safeId(value, field)` -/
def safeId (field : String) (value : Json) : Except Failure SafeId :=
  demand (stateInvalid (field ++ " is invalid")) (Matching.read? value)

/-- `timestamp(value)` -/
def timestamp (value : Option Instant) : Except Failure Instant :=
  demand (stateInvalid "Website suspension timestamp is invalid") value

/-- `operation.completedAt ? timestamp(operation.completedAt) : null` -/
def completion : Moment → Except Failure (Option Instant)
  | .nothing => .ok none
  | .text instant => (timestamp instant).map some

def validateOperation (draft : Draft) : Except Failure Operation := do
  let id ← safeId "id" draft.id
  let websiteId ← safeId "websiteId" draft.websiteId
  let serverId ← safeId "serverId" draft.serverId
  let websiteRevision ← demand (stateInvalid "websiteRevision is invalid")
    (Ranged.read? draft.websiteRevision)
  let previewDigest ← demand (stateInvalid "previewDigest is invalid")
    (Matching.read? draft.previewDigest)
  let confirmation ← demand (stateInvalid "confirmation is invalid")
    (Matching.read? draft.confirmation)
  let status ← demand (stateInvalid "status is invalid")
    (Status.read? draft.status)
  let domainOperations ← domainOperationsList draft.domainOperations
  let error ← safeError draft.error
  let createdAt ← timestamp draft.createdAt
  let updatedAt ← timestamp draft.updatedAt
  let completedAt ← completion draft.completedAt
  return {
    id, websiteId, serverId, websiteRevision, previewDigest, confirmation
    status, domainOperations, error, createdAt, updatedAt, completedAt }

/-- What an update is called with; a key that is missing is not given. -/
structure Changes where
  fields : Json.Fields
  completedAt : Option Moment

/-- `{ ...current, ...changes, updatedAt: now }`, the fields that no update
changes left out of the changes. -/
def Operation.changed (op : Operation) (changes : Changes) (now : Instant) :
    Draft :=
  let draft := op.draft
  let sent (key : String) (current : Json) :=
    (changes.fields.lookup key).getD current
  { draft with
    websiteRevision := sent "websiteRevision" draft.websiteRevision
    previewDigest := sent "previewDigest" draft.previewDigest
    confirmation := sent "confirmation" draft.confirmation
    status := sent "status" draft.status
    domainOperations := sent "domainOperations" draft.domainOperations
    error := sent "error" draft.error
    updatedAt := some now
    completedAt := changes.completedAt.getD draft.completedAt }

/-- What `create` is called with. -/
structure CreateInput where
  id : Option Json
  websiteId : Json
  serverId : Json
  websiteRevision : Json
  previewDigest : Json
  confirmation : Json
  domainOperations : Json

def CreateInput.draft (input : CreateInput) (randomUUID : String)
    (now : Instant) : Draft where
  id := input.id.getD (.str randomUUID)
  websiteId := input.websiteId
  serverId := input.serverId
  websiteRevision := input.websiteRevision
  previewDigest := input.previewDigest
  confirmation := input.confirmation
  status := .str "pending"
  domainOperations := input.domainOperations
  error := .null
  createdAt := some now
  updatedAt := some now
  completedAt := .nothing

end Yunpanel.WebsiteSuspension
