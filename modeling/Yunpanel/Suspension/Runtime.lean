/-
Suspending and resuming one domain: the service and the runtime.

# What a call works on

The journal of the operations, the domain records and Nginx. Nginx is
whatever the host is: it is reached through `Nginx`, whose calls may answer
anything, fail, and change the host's state. The writes of the stores are
answered by `Surroundings.saved`, and every one of them, and every look at
the clock, takes a turn.

# The two entries

`resume` takes an operation that is `suspended`, `retryResume` one whose
resumption was begun; each with a confirmation of its own. From there both
do the same: `runResume` looks at the host and the record before it changes
anything, and goes on from what it finds.
-/
import Yunpanel.Domains.Registry
import Yunpanel.Js.IsoDate
import Yunpanel.Lib.Exec
import Yunpanel.Suspension.Journal
import Yunpanel.Suspension.WebsiteOperation

namespace Yunpanel.Suspension

open Json Lib Lib.Exec
open Domains (Domain PublicDomain Evidence)

-- ====== errors

/-- What a caller sees of an error that is thrown. -/
structure Thrown where
  code : Option String
  message : String
  status : Option Nat
  deriving DecidableEq

namespace Thrown

/-- `new DomainSuspensionRuntimeError(code, message, status)`, and the
same of the service. -/
def error (code message : String) (status : Nat) : Thrown :=
  ⟨some code, message, some status⟩

def ofFailure : Failure → Thrown
  | .refused code message status => error code message status
  | .thrown message => ⟨none, message, none⟩

def ofDomains : Domains.Failure → Thrown
  | .registry code message status => error code message status
  | .store => ⟨none, "the store could not be written", none⟩
  | .invalidStore => ⟨none, "the file is no store of domains", none⟩

/-- `Number(error?.status) === 409` -/
def conflicts (e : Thrown) : Bool := e.status == some 409

end Thrown

-- ====== surroundings

/-- The calls of the Nginx manager, over whatever state the host has. -/
structure Nginx (η : Type) where
  inspectDomainDeactivation :
    (primaryDomain checksum : String) → Exec η Thrown Json
  deactivateDomain : (primaryDomain checksum : String) → Exec η Thrown Json
  inspectDomainDeactivationRollback :
    (primaryDomain checksum : String) → Exec η Thrown Json
  rollbackDomainDeactivation :
    (primaryDomain checksum : String) → Exec η Thrown Json

/-- `Date.now()` -/
abbrev Clock := Ranged 0 8640000000000000

/-- What the calls are given and what answers them: the time and the fate
of the writes, turn by turn. -/
structure Surroundings (η : Type) where
  localServerId : String
  net : Domains.Net
  nginx : Nginx η
  now : Nat → Clock
  saved : Nat → Option Thrown

/-- What the calls work on. -/
structure Panel (η : Type) where
  websites : List WebsiteSuspension.Operation
  journal : List Operation
  domains : List Domain
  host : η
  turn : Nat

abbrev Run (η α : Type) := Exec (Panel η) Thrown α

variable {η : Type} (env : Surroundings η)

def Panel.nextTurn (p : Panel η) : Panel η := { p with turn := p.turn + 1 }

/-- `now()` -/
def dateNow : Run η Instant := do
  let ms ← read fun p => (env.now p.turn).val
  modify Panel.nextTurn
  return ⟨ms⟩

/-- The write of a store. -/
def persist : Run η Unit := do
  let fate ← read fun p => env.saved p.turn
  modify Panel.nextTurn
  match fate with
  | none => return ()
  | some e => fail e

/-- A call of the Nginx manager. -/
def onHost (x : Exec η Thrown Json) : Run η Json :=
  within Panel.host (fun host p => { p with host }) x

-- ====== service

namespace Service

def domainNotFound : Thrown :=
  .error "domain_not_found" "Domain not found" 404

/-- The fields of a record that suspension relies on are as they should
be. -/
def wellFormed (domain : Domain) : Bool :=
  let counted (n : Int) := decide (0 ≤ n) && decide (n ≤ 9007199254740991)
  domain.id != "" && domain.primaryDomain != ""
    && Domains.isRevision domain.desiredRevision
    && counted domain.stagedRevision && counted domain.appliedRevision
    && domain.stagedChecksum.all Domains.isSha256

/-- `localDomain` -/
def localDomain (localServerId : String) :
    Option PublicDomain → Except Thrown Domain
  | none => .error domainNotFound
  | some ⟨domain, _, _⟩ =>
      if domain.serverId ≠ localServerId then .error domainNotFound
      else if !wellFormed domain then
        .error (.error "domain_suspension_domain_invalid"
          "Domain routing state is invalid for suspension" 409)
      else .ok domain

/-- `domainRegistry.getDomain(domainId)` -/
def getDomain (domainId : String) : Run η (Option PublicDomain) := do
  let domains ← read Panel.domains
  ofExcept ((Domains.getDomain env.net domainId domains).mapError
    Thrown.ofDomains)

def currentDomain (domainId : String) : Run η Domain := do
  let domain ← getDomain env domainId
  ofExcept (localDomain env.localServerId domain)

inductive ControlPlane where
  | active | suspended | resumed | drift
  deriving DecidableEq

def controlPlaneSuspendState (domain : Domain) (evidence : Evidence) :
    ControlPlane :=
  let serves :=
    domain.servesExactly evidence.expectedRevision evidence.checksum
  if domain.state = .suspended
      ∧ domain.suspensionOperationId = some evidence.operationId
      ∧ domain.suspendedChecksum = some evidence.checksum
      ∧ serves = true then .suspended
  else if domain.state = .active
      ∧ domain.lastSuspensionOperationId = some evidence.operationId
      ∧ serves = true then .resumed
  else if domain.state = .active ∧ serves = true then .active
  else .drift

/-- What is known of the host; a key that only one of the two inspections
has is missing in the other. -/
structure HostState where
  satisfied : Bool
  deactivationCandidate : Bool
  reason : Option String
  checksum : String
  deriving DecidableEq

def optionalBool (fields : Fields) (key : String) : Bool :=
  (fields.lookup key).all fun value => value.bool?.isSome

def normalizeHostSuspendInspection (value : Json) (checksum : String) :
    Except Thrown HostState :=
  let fields := value.object?.getD []
  match (fields.get "satisfied").bool? with
  | some satisfied =>
      if fields.get "checksum" = .str checksum
          ∧ optionalBool fields "deactivationCandidate" = true
          ∧ optionalBool fields "restorable" = true then
        .ok { satisfied
              deactivationCandidate :=
                fields.get "deactivationCandidate" == .bool true
              reason := (fields.get "reason").str?
              checksum }
      else invalid
  | none => invalid
where
  invalid : Except Thrown HostState :=
    .error (.error "domain_suspension_host_inspection_invalid"
      "Nginx suspension inspection returned invalid evidence" 503)

def normalizeHostResumeInspection (value : Json) (checksum : String) :
    Except Thrown HostState :=
  let fields := value.object?.getD []
  match (fields.get "satisfied").bool? with
  | some satisfied =>
      if fields.get "checksum" = .str checksum then
        .ok { satisfied
              deactivationCandidate := false
              reason := (fields.get "reason").str?
              checksum }
      else invalid
  | none => invalid
where
  invalid : Except Thrown HostState :=
    .error (.error "domain_resume_host_inspection_invalid"
      "Nginx resume inspection returned invalid evidence" 503)

def mappedHostError (e : Thrown) (fallbackCode fallbackMessage : String) :
    Thrown :=
  match e.code with
  | some code =>
      if "nginx_".toList.isPrefixOf code.toList then
        .error code e.message 409
      else .error fallbackCode fallbackMessage 503
  | none => .error fallbackCode fallbackMessage 503

/-- A call of the Nginx manager, its error made one of the service. -/
def guarded (fallbackCode fallbackMessage : String) (x : Exec η Thrown Json) :
    Run η Json :=
  attempt (onHost x) fun e =>
    fail (mappedHostError e fallbackCode fallbackMessage)

structure Inspection where
  domainId : String
  primaryDomain : String
  expectedRevision : Int
  checksum : String
  controlPlane : ControlPlane
  host : HostState
  deriving DecidableEq

def inspectSuspend (domainId : String) (evidence : Evidence) :
    Run η Inspection := do
  let domain ← currentDomain env domainId
  let value ← guarded "domain_suspension_host_inspection_unavailable"
    "Nginx suspension state could not be inspected"
    (env.nginx.inspectDomainDeactivation domain.primaryDomain
      evidence.checksum)
  let host ← ofExcept
    (normalizeHostSuspendInspection value evidence.checksum)
  return {
    domainId := domain.id
    primaryDomain := domain.primaryDomain
    expectedRevision := evidence.expectedRevision
    checksum := evidence.checksum
    controlPlane := controlPlaneSuspendState domain evidence
    host }

def inspectResume (domainId : String) (evidence : Evidence) :
    Run η Inspection := do
  let domain ← currentDomain env domainId
  let value ← guarded "domain_resume_host_inspection_unavailable"
    "Nginx resume state could not be inspected"
    (env.nginx.inspectDomainDeactivationRollback domain.primaryDomain
      evidence.checksum)
  let host ← ofExcept
    (normalizeHostResumeInspection value evidence.checksum)
  return {
    domainId := domain.id
    primaryDomain := domain.primaryDomain
    expectedRevision := evidence.expectedRevision
    checksum := evidence.checksum
    controlPlane := controlPlaneSuspendState domain evidence
    host }

def deactivateHost (primaryDomain checksum : String) : Run η Json :=
  guarded "domain_suspension_host_failed" "Nginx Domain deactivation failed"
    (env.nginx.deactivateDomain primaryDomain checksum)

def restoreHost (primaryDomain checksum : String) : Run η Json :=
  guarded "domain_resume_host_failed" "Nginx Domain resume failed"
    (env.nginx.rollbackDomainDeactivation primaryDomain checksum)

/-- The error of a write as the service hands it on. -/
def committed (e : Thrown) : Thrown :=
  match e.code with
  | some code => .error code e.message (e.status.getD 409)
  | none => e

/-- `domainRegistry.markResumed(domainId, …)` -/
def markResumed (domainId : String) (evidence : Evidence) :
    Run η Domains.Reply := do
  let now ← dateNow env
  let domains ← read Panel.domains
  match Domains.onDomain domainId (Domains.markResumed evidence now)
      domains with
  | .refused e => fail (.ofDomains e)
  | .spoiled domains e => do
      modify fun p => { p with domains }
      fail (.ofDomains e)
  | .replied reply => return reply
  | .written domains reply => do
      modify fun p => { p with domains }
      persist env
      ofExcept ((reply domains).mapError .ofDomains)

def commitResumed (domainId : String) (evidence : Evidence) :
    Run η Domains.Reply :=
  attempt (markResumed env domainId evidence) fun e => fail (committed e)

end Service

-- ====== runtime

namespace Runtime

open Service (Inspection ControlPlane)

/-- `/^[a-z0-9_]{1,120}$/` and the bounds of a message, or the fallback. -/
def safeFailure (e : Thrown) (fallbackCode fallbackMessage : String) :
    Json :=
  let code := (e.code.filter isFaultCode).getD fallbackCode
  let message := if isFaultMessage e.message then e.message
    else fallbackMessage
  .obj [("code", .str code), ("message", .str message)]

/-- `registry.get(operationId)` -/
def getOperation (operationId : Json) : Run η (Option Operation) := do
  let ops ← read Panel.journal
  ofExcept ((Suspension.getOperation ops operationId).mapError .ofFailure)

/-- A transition of the journal, from its look-up to its write. -/
def request (operationId : Json) (r : Request) : Run η Operation := do
  let op ← getOperation operationId
  let now ← dateNow env
  let ops ← read Panel.journal
  match r.effect now.ms op ops with
  | .refused e => fail (.ofFailure e)
  | .spoiled journal e => do
      modify fun p => { p with journal }
      fail (.ofFailure e)
  | .replied op => return op
  | .written journal reply => do
      modify fun p => { p with journal }
      persist env
      ofExcept ((reply journal).mapError .ofFailure)

/-- What the operation says the domain was suspended on. -/
def evidence (op : Operation) : Evidence where
  expectedRevision := op.domainRevision.val
  checksum := op.checksum.text
  operationId := op.id.text

/-- What an inspection has to repeat of the operation. -/
def shaped (op : Operation) (inspection : Inspection) : Bool :=
  inspection.domainId == op.domainId.text
    && inspection.primaryDomain == op.primaryDomain.text
    && inspection.expectedRevision == op.domainRevision.val
    && inspection.checksum == op.checksum.text
    && inspection.host.checksum == op.checksum.text

/-- `inspectShape(operation, inspection, 'suspend')` -/
def inspectSuspend (op : Operation) : Run η Inspection := do
  let inspection ← Service.inspectSuspend env op.domainId.text (evidence op)
  if shaped op inspection then return inspection
  else fail (.error "domain_suspension_inspection_invalid"
    "Domain suspension inspection did not match journaled intent" 503)

/-- `inspectShape(operation, inspection, 'resume')` -/
def inspectResume (op : Operation) : Run η Inspection := do
  let inspection ← Service.inspectResume env op.domainId.text (evidence op)
  if shaped op inspection then return inspection
  else fail (.error "domain_resume_inspection_invalid"
    "Domain resume inspection did not match journaled intent" 503)

def commitInvalid : Thrown :=
  .error "domain_resume_commit_invalid"
    "Domain registry did not confirm exact resume ownership" 503

def commitResumed (op : Operation) (hostChanged : Bool) :
    Run η Operation := do
  let reply ← Service.commitResumed env op.domainId.text (evidence op)
  match reply with
  | .domain ⟨domain, _, _⟩ =>
      if domain.state ≠ .active
          ∨ domain.lastSuspensionOperationId ≠ some op.id.text
          ∨ domain.lastResumedAt = none then fail commitInvalid
      else
        request env op.id.json
          (.succeedResume (.bool hostChanged) domain.lastResumedAt)
  | _ => fail commitInvalid

def failResume (op : Operation) (e : Thrown) : Run η Operation :=
  request env op.id.json
    (.failResume (safeFailure e "domain_resume_failed"
      "Domain resume failed"))

def compensationUnverified : Thrown :=
  .error "domain_resume_compensation_unverified"
    ("Nginx suspended state could not be restored after resume commit "
      ++ "failure") 503

def compensationUncertain : Thrown :=
  .error "domain_resume_compensation_uncertain"
    ("Domain resume changed host state but control-plane commit failed; "
      ++ "automatic host replay is blocked") 503

/-- The host is taken back to the suspended state. -/
def suspendAgain (op : Operation) : Run η Unit := do
  let found ← inspectSuspend env op
  if found.host.satisfied then return ()
  else do
    let _ ← Service.deactivateHost env op.primaryDomain.text op.checksum.text
    let after ← inspectSuspend env op
    if after.host.satisfied then return () else fail compensationUnverified

/-- `compensateFailedResume`; `failResume` is returned, not awaited, so its
error is not caught. -/
def compensateFailedResume (op : Operation) (e : Thrown) :
    Run η Operation := do
  attempt (suspendAgain env op) fun e =>
    fail (if e.code = compensationUnverified.code then e
      else compensationUncertain)
  failResume env op e

def commitOrCompensate (op : Operation) (hostChanged : Bool) :
    Run η Operation :=
  attempt (commitResumed env op hostChanged) (compensateFailedResume env op)

def postconditionInvalid (message : String) : Thrown :=
  .error "domain_resume_postcondition_invalid" message 409

/-- `'nginx_deactivation_rollback_pending'` -/
def rollbackPending : String := "nginx_deactivation_rollback_pending"

/-- Nginx could not be restored, or so it said. -/
def hostFailed (op : Operation) (hostError : Thrown) : Run η Operation := do
  match ← caught (inspectResume env op) with
  | .error e =>
      if e.conflicts then failResume env op e
      else fail (.error "domain_resume_result_uncertain"
        ("Nginx resume result is uncertain and current state cannot be "
          ++ "inspected") 503)
  | .ok after =>
      if after.host.satisfied ∧ after.controlPlane = .suspended then
        commitOrCompensate env op false
      else if after.host.reason = some rollbackPending
          ∧ after.controlPlane = .suspended then
        failResume env op hostError
      else
        failResume env op (postconditionInvalid
          "Nginx resume failed with inconsistent post-condition")

/-- Nginx said it was restored. -/
def hostRestored (op : Operation) (result : Json) : Run η Operation := do
  match ← caught (inspectResume env op) with
  | .error _ =>
      fail (.error "domain_resume_postcondition_unavailable"
        ("Nginx resume returned success but exact post-condition cannot be "
          ++ "inspected") 503)
  | .ok after =>
      if !after.host.satisfied ∨ after.controlPlane ≠ .suspended then
        failResume env op (postconditionInvalid
          ("Nginx resume did not produce the exact journaled active host "
            ++ "state"))
      else
        commitOrCompensate env op (member result "changed" == .bool true)

/-- What `runResume` does of what it finds. -/
def resumeFrom (op : Operation) (found : Inspection) : Run η Operation := do
  if found.controlPlane = .drift ∨ found.controlPlane = .active then
    failResume env op (.error "domain_resume_state_drift"
      "Domain control-plane state no longer matches resume intent" 409)
  else if found.host.satisfied then
    commitResumed env op false
  else if found.controlPlane = .resumed then
    failResume env op (.error "domain_resume_host_drift"
      "Domain is marked resumed while Nginx traffic remains suspended" 409)
  else if found.host.reason ≠ some rollbackPending then
    failResume env op (.error "domain_resume_host_unavailable"
      "Nginx suspended state is not an owned resume candidate" 409)
  else
    match ← caught (Service.restoreHost env op.primaryDomain.text
        op.checksum.text) with
    | .error hostError => hostFailed env op hostError
    | .ok result => hostRestored env op result

def operationNotFound : Thrown :=
  .error "domain_suspension_operation_not_found"
    "Domain suspension operation was not found" 404

/-- An operation whose resumption is not begun yet, or failed, is marked
first. -/
def marked (op : Operation) : Run η Operation :=
  if op.status = .resuming then pure op
  else request env op.id.json .markResuming

/-- What `runResume` does with an operation that is being resumed. -/
def resumeMarked (op : Operation) : Run η Operation := do
  match ← caught (inspectResume env op) with
  | .error e =>
      if e.conflicts then failResume env op e
      else fail (.error "domain_resume_recovery_inspection_unavailable"
        ("Domain resume state cannot be inspected; automatic host replay "
          ++ "is blocked") 503)
  | .ok found => resumeFrom env op found

/-- `runResume(operationId, { allowHostMutation: true })` -/
def runResume (operationId : Json) : Run η Operation := do
  match ← getOperation operationId with
  | none => fail operationNotFound
  | some op =>
      if op.status ∉ [.suspended, .resuming, .resumeFailed] then return op
      else do
        let op ← marked env op
        resumeMarked env op

-- ====== entries

structure ResumeInput where
  domainId : String
  operationId : Json
  expectedUpdatedAt : String
  checksum : String
  confirmation : String

/-- `${kind}:${domainId}:${id}:${updatedAt}:${checksum}` -/
def confirmationOf (kind : String) (op : Operation) : String :=
  kind ++ ":" ++ op.domainId.text ++ ":" ++ op.id.text ++ ":"
    ++ op.updatedAt.toISOString ++ ":" ++ op.checksum.text

def resumeConfirmation : Operation → String := confirmationOf "resume-domain"

def resumeRetryConfirmation : Operation → String :=
  confirmationOf "retry-domain-resume"

/-- An entry: the operation has to be in one of the statuses, and all that
is said of it true. -/
def enter (statuses : List Status) (confirmation : Operation → String)
    (stale : Thrown) (input : ResumeInput) : Run η Operation := do
  match ← getOperation input.operationId with
  | none => fail operationNotFound
  | some op =>
      if op.domainId.text ≠ input.domainId then fail operationNotFound
      else if op.status ∉ statuses
          ∨ input.expectedUpdatedAt ≠ op.updatedAt.toISOString
          ∨ input.checksum ≠ op.checksum.text
          ∨ input.confirmation ≠ confirmation op then fail stale
      else runResume env op.id.json

def resume : ResumeInput → Run η Operation :=
  enter env [.suspended] resumeConfirmation
    (.error "domain_resume_stale"
      "Domain resume request is stale or confirmation is invalid" 409)

def retryResume : ResumeInput → Run η Operation :=
  enter env [.resuming, .resumeFailed] resumeRetryConfirmation
    (.error "domain_resume_retry_stale"
      "Domain resume retry request is stale or confirmation is invalid" 409)

end Runtime

end Yunpanel.Suspension
