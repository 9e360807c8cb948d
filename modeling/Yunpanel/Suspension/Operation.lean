/-
Suspensions of domains: the record the journal keeps of one.

An operation runs from `pending` over `suspending` to `suspended`, and from
there over `resuming` to `resumed`; either half may fail and be tried
again. What was found on the way is kept beside the status, and a status
says which of it there must be: `Operation` carries that, so what the
journal holds is never at odds with itself.
-/
import Yunpanel.Js.Fields
import Yunpanel.Lib.Result

namespace Yunpanel.Suspension

open Json Lib.Result

-- ====== failures

/-- An error of the registry, or one that something below it threw. -/
inductive Failure where
  | refused (code message : String) (status : Nat)
  | thrown (message : String)
  deriving DecidableEq, Repr

def refuse (code message : String) (status : Nat := 400) : Failure :=
  .refused code message status

def stateInvalid (message : String) : Failure :=
  refuse "domain_suspension_operation_state_invalid" message 409

-- ====== fields

/-- `STATUSES` -/
inductive Status where
  | pending | suspending | suspended | resuming | resumed | failed
  | resumeFailed
  deriving DecidableEq, Repr

/-- `SAFE_ID` -/
def isSafeId (s : String) : Bool := Text.inClass Text.isKeyChar 1 128 s

abbrev SafeId := Matching isSafeId

/-- `safeId(value, field)` -/
def safeId (field : String) (value : Json) : Except Failure SafeId :=
  demand (stateInvalid (field ++ " is invalid")) (Matching.read? value)

/-- `safeDigest(value, field)` -/
def safeDigest (field : String) (value : Json) : Except Failure Sha256 :=
  demand (stateInvalid (field ++ " is invalid")) (Matching.read? value)

/-- `new Date(ms).toISOString()` -/
def instant (ms : Int) : Except Failure Instant :=
  if ms.natAbs ≤ 8640000000000000 then .ok ⟨ms⟩
  else .error (.thrown "Invalid time value")

/-- `/^[a-z0-9_]{1,120}$/` -/
def isFaultCode (s : String) : Bool :=
  Text.inClass (fun c => Text.isLower c || Text.isDigit c || c == '_') 1 120 s

def isFaultMessage (s : String) : Bool :=
  1 ≤ Text.length s && Text.length s ≤ 500

structure Fault where
  code : Matching isFaultCode
  message : Matching isFaultMessage
  deriving DecidableEq

/-- `safeError(value)` -/
def safeError : Json → Except Failure (Option Fault)
  | .null => .ok none
  | value => do
      let invalid := stateInvalid
        "Domain suspension failure evidence is invalid"
      let fields ← demand invalid value.object?
      let code ← demand invalid (Matching.read? (fields.get "code"))
      let message ← demand invalid (Matching.read? (fields.get "message"))
      return some { code, message }

structure SuspendResult where
  hostChanged : Bool
  suspendedAt : Instant
  deriving DecidableEq

/-- `suspendResult({ suspended: true, hostChanged, suspendedAt })`; a text
that is not the one of an instant is given as none. -/
def suspendResult (hostChanged : Json) (suspendedAt : Option Instant) :
    Except Failure SuspendResult := do
  let hostChanged ← demand
    (stateInvalid "Domain suspension result evidence is invalid")
    hostChanged.bool?
  let suspendedAt ← demand
    (stateInvalid "Domain suspension timestamp is invalid") suspendedAt
  return { hostChanged, suspendedAt }

structure ResumeResult where
  hostChanged : Bool
  resumedAt : Instant
  deriving DecidableEq

/-- `resumeResult({ resumed: true, hostChanged, resumedAt })` -/
def resumeResult (hostChanged : Json) (resumedAt : Option Instant) :
    Except Failure ResumeResult := do
  let hostChanged ← demand
    (stateInvalid "Domain resume result evidence is invalid")
    hostChanged.bool?
  let resumedAt ← demand
    (stateInvalid "Domain suspension timestamp is invalid") resumedAt
  return { hostChanged, resumedAt }

def isDomainText (s : String) : Bool :=
  1 ≤ Text.length s && Text.length s ≤ 253
    && s.toList.all fun c => !Text.isControl c

def isConfirmation (s : String) : Bool :=
  1 ≤ Text.length s && Text.length s ≤ 1000

-- ====== operations

structure Record where
  id : SafeId
  domainId : SafeId
  serverId : SafeId
  primaryDomain : Matching isDomainText
  domainRevision : Ranged 1 9007199254740991
  checksum : Sha256
  previewDigest : Sha256
  confirmation : Matching isConfirmation
  status : Status
  suspendResult : Option SuspendResult
  suspendError : Option Fault
  resumeResult : Option ResumeResult
  resumeError : Option Fault
  createdAt : Instant
  updatedAt : Instant
  deriving DecidableEq

/-- The statuses a suspension that took effect passes through. -/
def Status.suspendedPhase : Status → Bool
  | suspended | resuming | resumed | resumeFailed => true
  | pending | suspending | failed => false

/-- What the evidence of a record contradicts, if anything. -/
def Record.contradiction (r : Record) : Option String :=
  if r.status.suspendedPhase != r.suspendResult.isSome then
    some "Domain suspension result does not match lifecycle state"
  else if (r.status == .failed) != r.suspendError.isSome then
    some "Domain suspension failure does not match lifecycle state"
  else if (r.status == .resumed) != r.resumeResult.isSome then
    some "Domain resume result does not match lifecycle state"
  else if (r.status == .resumeFailed) != r.resumeError.isSome then
    some "Domain resume failure does not match lifecycle state"
  else none

structure Operation extends Record where
  coherent : toRecord.contradiction = none
  deriving DecidableEq

/-- `persistedOperation`, of a record whose fields have been read. -/
def persistedOperation (r : Record) : Except Failure Operation :=
  match h : r.contradiction with
  | none => .ok { r with coherent := h }
  | some message => .error (stateInvalid message)

-- ====== previews

/-- `value?.[key]` -/
def member (value : Json) (key : String) : Json :=
  (value.object?.getD []).get key

/-- What `operationFromPreview` asks of a preview before it reads it. -/
def journaled (preview : Json) : Bool :=
  let domain := member preview "domain"
  let revision : Option (Ranged 1 9007199254740991) :=
    Ranged.read? (member domain "desiredRevision")
  let checksum : Option Sha256 :=
    Matching.read? (member domain "stagedChecksum")
  let digest : Option Sha256 :=
    Matching.read? (member preview "previewDigest")
  member preview "version" == .num 1
    && member preview "operation" == .str "domain_suspend"
    && member preview "readyToSuspend" == .bool true
    && member preview "blockers" == .arr []
    && (member domain "id").str?.isSome
    && (member domain "serverId").str?.isSome
    && (member domain "primaryDomain").str?.isSome
    && revision.isSome
    && member domain "stagedRevision" == member domain "desiredRevision"
    && member domain "appliedRevision" == member domain "desiredRevision"
    && checksum.isSome
    && digest.isSome
    && ((member preview "confirmation").str?.any (· != ""))

def operationFromPreview (now : Int) (id : String) (preview : Json) :
    Except Failure Operation := do
  ensure (refuse "domain_suspension_operation_preview_invalid"
    "Domain suspension preview cannot be journaled" 409) (journaled preview)
  let createdAt ← instant now
  let domain := member preview "domain"
  let invalid := stateInvalid "Domain suspension operation state is invalid"
  let primaryDomain ← demand invalid
    (Matching.read? (member domain "primaryDomain"))
  let domainRevision ← demand invalid
    (Ranged.read? (member domain "desiredRevision"))
  let confirmation ← demand invalid
    (Matching.read? (member preview "confirmation"))
  let id ← safeId "operationId" (.str id)
  let domainId ← safeId "domainId" (member domain "id")
  let serverId ← safeId "serverId" (member domain "serverId")
  let checksum ← safeDigest "checksum" (member domain "stagedChecksum")
  let previewDigest ← safeDigest "previewDigest"
    (member preview "previewDigest")
  persistedOperation {
    id, domainId, serverId, primaryDomain, domainRevision, checksum
    previewDigest, confirmation
    status := .pending
    suspendResult := none
    suspendError := none
    resumeResult := none
    resumeError := none
    createdAt
    updatedAt := createdAt }

/-- An operation that a preview would only repeat. -/
def Operation.repeats (preview : Json) (op : Operation) : Bool :=
  let domain := member preview "domain"
  .str op.domainId.text == member domain "id"
    && op.domainRevision.json == member domain "desiredRevision"
    && .str op.checksum.text == member domain "stagedChecksum"
    && .str op.previewDigest.text == member preview "previewDigest"
    && op.status != .resumed

end Yunpanel.Suspension
