/-
Resuming a website: its domains are resumed one after another.

`retryResume` is the way on for an operation whose resumption was begun.
It takes the entries in their order: one that is recorded as resumed stays,
for any other the operation of the domain is looked up and handed to the
runtime of domains. A failure is recorded and the loop goes on; how the
website stands is said at the end.
-/
import Yunpanel.Suspension.Runtime
import Yunpanel.Suspension.WebsiteJournal

namespace Yunpanel.WebsiteSuspension

open Json Lib Lib.Exec
open Suspension (SafeId Thrown Surroundings Panel Run)

namespace Runtime

variable {η : Type} (env : Surroundings η)

/-- `registry.update(id, changes)` -/
def update (id : Json) (changes : Changes) : Run η Operation := do
  let now ← Suspension.dateNow env
  let ops ← read Panel.websites
  let updated ← ofExcept
    ((updateOperation now id changes ops).mapError Thrown.ofFailure)
  modify fun p => { p with websites := setOperation ops updated }
  Suspension.persist env
  return updated

def error (code message : String) (status : Nat) : Thrown :=
  .error code message status

/-- An error of the language itself. -/
def thrown (message : String) : Thrown := ⟨none, message, none⟩

-- ====== a child

/-- An entry as the loop leaves it. -/
structure Driven where
  domainId : SafeId
  operationId : Option SafeId
  status : Suspension.Status
  error : Json

def Driven.json (d : Driven) : Json :=
  .obj [("domainId", d.domainId.json),
    ("operationId", ofOption Matching.json d.operationId),
    ("status", .str (childStatusText d.status)),
    ("error", d.error)]

def Driven.kept (entry : Entry) : Driven where
  domainId := entry.domainId
  operationId := entry.operationId
  status := entry.status
  error := ofOption faultJson entry.error

/-- What `domainSuspensionRuntime.resume` is called with for a child. -/
def resumeInput (child : Suspension.Operation) :
    Suspension.Runtime.ResumeInput where
  domainId := child.domainId.text
  operationId := child.id.json
  expectedUpdatedAt := child.updatedAt.toISOString
  checksum := child.checksum.text
  confirmation := Suspension.Runtime.resumeConfirmation child

/-- The child of an entry is resumed. -/
def resumeChild (entry : Entry) : Run η Driven := do
  match ← Suspension.Runtime.getOperation
      (ofOption Matching.json entry.operationId) with
  | none => fail (thrown "Child domain operation not found")
  | some child => do
      let op ← Suspension.Runtime.resume env (resumeInput child)
      return {
        domainId := entry.domainId
        operationId := some op.id
        status := op.status
        error := .null }

/-- `{ code: err.code || 'domain_resume_failed', message: err.message }` -/
def failureJson (e : Thrown) : Json :=
  .obj [("code", .str ((e.code.filter (· ≠ "")).getD "domain_resume_failed")),
    ("message", .str e.message)]

/-- What is recorded of a child that could not be resumed. -/
def resumeFailed (entry : Entry) (e : Thrown) : Driven where
  domainId := entry.domainId
  operationId := entry.operationId
  status := .resumeFailed
  error := failureJson e

/-- One turn of the loop of `retryResume`: what is recorded, and whether it
is a failure. -/
def retryEntry (entry : Entry) : Run η (Driven × Bool) := do
  if entry.status = .resumed then return (.kept entry, false)
  else
    match ← caught (resumeChild env entry) with
    | .ok driven => return (driven, driven.status ≠ .resumed)
    | .error e => return (resumeFailed entry e, true)

/-- The loop, with `updatedDomainOps` and `hasFailure`. -/
def retryEntries : List Entry → Run η (List Driven × Bool)
  | [] => return ([], false)
  | entry :: rest => do
      let (driven, failed) ← retryEntry env entry
      let (others, hasFailure) ← retryEntries rest
      return (driven :: others, failed || hasFailure)

-- ====== retryResume

structure RetryInput where
  websiteId : String
  operationId : Json
  expectedUpdatedAt : String
  confirmation : String

def resumeRetryConfirmation (op : Operation) : String :=
  "retry-website-resume:" ++ op.websiteId.text ++ ":" ++ op.id.text ++ ":"
    ++ op.updatedAt.toISOString

/-- `finalStatus` -/
def finalStatus (driven : List Driven) (hasFailure : Bool) : Status :=
  if hasFailure then
    if driven.any fun d => d.status == .resumed then .resumePartly
    else .resumeFailed
  else .resumed

def partialFailure : Json :=
  .obj [("code", .str "domain_resume_partial_failure"),
    ("message", .str "One or more domains failed to resume")]

/-- What the last update of `retryResume` is called with. -/
def outcome (driven : List Driven) (hasFailure : Bool) (now : Instant) :
    Changes where
  fields :=
    [("status", .str (finalStatus driven hasFailure).text),
      ("domainOperations", .arr (driven.map Driven.json)),
      ("error", if hasFailure then partialFailure else .null)]
  completedAt := some
    (if hasFailure then .nothing else .text (some now))

/-- The checks of `retryResume`. -/
def retryable (input : RetryInput) : Option Operation →
    Except Thrown Operation
  | none => .error operationNotFound
  | some op =>
      if op.websiteId.text ≠ input.websiteId
          ∨ op.serverId.text ≠ env.localServerId then
        .error operationNotFound
      else if op.status ∉ [.resuming, .resumePartly, .resumeFailed] then
        .error (error "website_resume_retry_invalid"
          "Operation is not in a retryable resume state" 409)
      else if op.updatedAt.toISOString ≠ input.expectedUpdatedAt
          ∨ resumeRetryConfirmation op ≠ input.confirmation then
        .error (error "website_suspension_confirmation_mismatch"
          "Resume retry confirmation or expectedUpdatedAt is stale" 409)
      else .ok op
where
  operationNotFound : Thrown :=
    error "operation_not_found" "Website suspension operation not found" 404

def retryResume (input : RetryInput) : Run η Operation := do
  let found ← read fun p => findOperation p.websites input.operationId
  let op ← ofExcept (retryable env input found)
  let _ ← update env op.id.json
    { fields := [("status", .str Status.resuming.text)]
      completedAt := none }
  let (driven, hasFailure) ← retryEntries env op.domainOperations
  let now ← Suspension.dateNow env
  update env op.id.json (outcome driven hasFailure now)

end Runtime

end Yunpanel.WebsiteSuspension
