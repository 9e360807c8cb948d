/-
The runtime of website removals, with its calls in flight.

# How a call is split

A call of the runtime waits wherever the source awaits: for the preview,
for the journal to be read or written, for whatever a step of the removal
does. Between two waits it runs through, on the journal as it then is and
on the copy of the operation it was given at its last look.

A step is run in this order: the operation is looked at, its first step
that has not succeeded is marked as running, the journal is written, the
operation is looked at again, the step does its work, its outcome is
recorded, and the journal is written again.

# What is recorded of the outside

The registries a step works on are asked through its work, and what they
answer is the report of the work. The websites are in the state, because
the last step of a removal takes a record out of them. The file of the
journal is in the state as well, with every text whose writing was started:
a write that is under way may land at any moment, or leave the file torn.
-/
import Yunpanel.Lib.Flight
import Yunpanel.Websites.Registry
import Yunpanel.Websites.RemovalOperations

namespace Yunpanel.Websites

open Json Lib Lib.Result
open RemovalPlan (Impact Preview createWebsiteRemovalPreview)

/-- Why a call of the runtime rejects: an error of the runtime or of a
registry, or one that something outside threw. -/
inductive Rejection where
  | error (e : Failure)
  | thrown (e : StepError)
  deriving DecidableEq

/-- The panel the runtime is wired into. -/
structure RemovalConfig extends Config where
  /-- `createHash('sha1').update(bytes).digest()` -/
  sha1 : List Nat → List Nat
  localServerId : Uuid
  /-- Whether the dependency a kind of step works with was given. -/
  wired : StepKind → Bool

-- ====== state

/-- The file of the journal. -/
inductive JournalFile where
  | absent
  | torn
  | stored (operations : List Operation)

namespace JournalFile

/-- The operations a process would start with. -/
def operations : JournalFile → List Operation
  | absent => []
  | torn => []
  | stored operations => Journal.load operations

end JournalFile

structure Removals (config : RemovalConfig) where
  journal : Journal
  file : JournalFile
  /-- The texts whose writing was started, oldest first. -/
  started : List (List Operation)
  websites : List (Website config.net)

namespace Removals

variable {config : RemovalConfig}

/-- A process that has just started. -/
def boot (file : JournalFile) (websites : List (Website config.net)) :
    Removals config :=
  { journal := ⟨[], false⟩, file, started := [], websites }

/-- The operations of the journal: those in memory, or before the first
`init` those on file. -/
def operations (s : Removals config) : List Operation :=
  if s.journal.initialized then s.journal.operations else s.file.operations

/-- The journal is changed, and begins to be written. -/
def record (s : Removals config) (j : Journal) : Removals config :=
  { s with journal := j, started := s.started ++ [j.operations] }

end Removals

-- ====== calls

structure ContinueInput where
  websiteId : Json
  operationId : Json
  stepId : Json
  expectedUpdatedAt : Json
  confirmation : Json

inductive RemovalCall where
  | init
  | start (confirmation : Json)
  | continueStep (input : ContinueInput)

/-- How the removal of a domain, run for a step, stands. -/
inductive ChildReport where
  | removed
  | notReady
  | stopped (status : String)
  | underWay

/-- What the work of a step has come to: not yet anything, an error thrown
out of it, the state of a domain's removal, or its end with what it
found. -/
inductive Report where
  | working
  | threw (e : StepError)
  | child (c : ChildReport)
  | finished (details : Json)

/-- What a segment finds around it. -/
structure RemovalEnv where
  now : String
  randomUUID : Uuid
  /-- What `previewResourceImpact` returned, or what it threw. -/
  impact : Except StepError Impact
  /-- Whether the write that is awaited succeeded, and what it threw. -/
  saved : Bool
  writeError : StepError
  report : Report

/-- What a call does once its write is done. -/
inductive After where
  | created (operationId : String)
  | marked (operationId : String) (step : Step)
  | succeeded (operationId : String) (step : Step)
  | blocked (operationId : String) (step : Step)
  | failed (operationId : String)
  | swept (rest : List Operation)

inductive Stage (config : RemovalConfig) where
  | entered (c : RemovalCall)
  | reading
  | listing
  | sweeping (views : List Operation)
  | previewing (confirmation : String) (website : Website config.net)
  | checking (input : ContinueInput) (op : Operation)
  | loaded (op : Operation)
  | reloaded (op : Operation) (step : Step)
  | working (op : Operation) (step : Step)
  | saving (snapshot : List Operation) (next : After)

/-- What a call did that others can see: the work of a step began, a step
was marked as running in an operation, or the call was over. -/
inductive RemovalNote where
  | marked (operationId stepId : String)
  | began (operationId stepId : String)
  | returned
  | rejected (r : Rejection)

-- ====== runtime

/-- `firstIncomplete` -/
def firstIncomplete (op : Operation) : Option Step :=
  op.steps.find? fun step => step.status != .succeeded

def stepContinuationConfirmation (op : Operation) (step : Step) : String :=
  s!"continue-website-remove-step:{op.websiteId}:{op.id}:{step.id}:{op.updatedAt}"

/-- The website a confirmation of `start` names. -/
def confirmedWebsite (confirmation : Json) :
    Except Failure (String × String) := do
  let tag := "start-website-remove:"
  let text ← demand (refuse "website_removal_confirmation_invalid"
      "Valid website removal confirmation is required")
    (confirmation.str?.filter fun text => tag.toList.isPrefixOf text.toList)
  let websiteId := String.ofList
    ((text.toList.drop tag.toList.length).takeWhile fun c => c != ':')
  ensure (refuse "website_removal_confirmation_invalid"
    "Website removal confirmation is malformed") (websiteId != "")
  return (text, websiteId)

/-- What a step that has done its work records. -/
def resultOf (op : Operation) (step : Step) (details : Json) : Json :=
  match step.kind with
  | .domainRemoval =>
      .obj [("domainRemoved", .bool true), ("domainId", .str step.resourceId)]
  | .cronCleanup => .obj [("cronsCleaned", .bool true)]
  | .sftpKeyCleanup => .obj [("sftpKeysCleaned", .bool true)]
  | .databaseBindingCleanup =>
      .obj [("databaseBindingsCleaned", .bool true),
        ("unboundBindings", details)]
  | .runtimeCleanup => .obj [("runtimeCleaned", .bool true)]
  | .fileCleanup =>
      (details.object?.getD []).foldl
        (fun result field => Json.spread field.1 field.2 result)
        (.obj [("filesCleaned", .bool true),
          ("retainedBackups", .arr
            (op.plan.additional.backups.ids.map Json.str))])
  | .unixIdentityCleanup => .obj [("unixIdentityCleaned", .bool true)]
  | .metadataFinalization => .obj [("finalized", .bool true)]

/-- The step an interrupted operation is blocked at. -/
def interruptedStep (op : Operation) : Option Step :=
  match firstIncomplete op with
  | some step =>
      if op.status = .running && step.status = .running then some step
      else none
  | none => none

def interrupted : StepError where
  code := "website_removal_interrupted"
  message := "Website removal step was interrupted and requires explicit "
    ++ "continuation"

section Segments

variable {config : RemovalConfig}

/-- One segment: the state after it, what becomes of the call, and what it
did. -/
abbrev Segment (config : RemovalConfig) : Type :=
  Removals config × Option (Stage config) × List RemovalNote

def Segment.rejects (s : Removals config) (r : Rejection) : Segment config :=
  (s, none, [.rejected r])

def Segment.goes (s : Removals config) (stage : Stage config)
    (notes : List RemovalNote := []) : Segment config :=
  (s, some stage, notes)

/-- A change of the journal: the write is started, or the error thrown. -/
def Segment.records (s : Removals config) (j : Except Failure Journal)
    (next : After) (notes : List RemovalNote := []) : Segment config :=
  match j with
  | .error e => rejects s (.error e)
  | .ok j => goes (s.record j) (.saving j.operations next) notes

/-- `runNextStep(operationId)` up to its first wait. -/
def runNextStep (s : Removals config) (operationId : String) :
    Segment config :=
  match s.journal.get (.str operationId) with
  | .error e => .rejects s (.error e)
  | .ok none =>
      .rejects s (.error (refuse "website_removal_operation_not_found"
        "Website removal operation was not found" 404))
  | .ok (some op) => .goes s (.loaded op)

/-- `registry.failStep(op.id, step.id, …)`, of an error the work threw. -/
def failStep (s : Removals config) (env : RemovalEnv) (operationId : String)
    (step : Step) (e : StepError) : Segment config :=
  .records s (s.journal.failStep env.now operationId step.id e)
    (.failed operationId)

/-- An error thrown where the work of a step records its outcome fails the
step. -/
def recordOutcome (s : Removals config) (env : RemovalEnv)
    (operationId : String) (step : Step) (j : Except Failure Journal)
    (next : After) : Segment config :=
  match j with
  | .error e => failStep s env operationId step ⟨e.code, e.message⟩
  | .ok j => .records s (.ok j) next

def succeedStep (s : Removals config) (env : RemovalEnv) (op : Operation)
    (step : Step) (details : Json) : Segment config :=
  recordOutcome s env op.id step
    (s.journal.succeedStep env.now op.id step.id (resultOf op step details))
    (.succeeded op.id step)

def blockStep (s : Removals config) (env : RemovalEnv) (op : Operation)
    (step : Step) (e : StepError) : Segment config :=
  recordOutcome s env op.id step
    (s.journal.blockStep env.now op.id step.id e) (.blocked op.id step)

/-- `runDomainRemovalStep`, once the removal of the domain answered. -/
def endDomainRemoval (s : Removals config) (env : RemovalEnv)
    (op : Operation) (step : Step) : ChildReport → Segment config
  | .removed => succeedStep s env op step .null
  | .notReady =>
      blockStep s env op step ⟨"domain_removal_not_ready",
        "Domain removal for " ++ step.resourceId ++ " is not ready to start"⟩
  | .stopped status =>
      blockStep s env op step ⟨"child_domain_removal_blocked",
        "Child domain removal for " ++ step.resourceId ++ " is " ++ status⟩
  | .underWay => (s, none, [.returned])

/-- `deleteMigrationWebsite(…).catch(() => {})`, as the last step calls
it. -/
def finalizeMetadata (s : Removals config) (op : Operation) :
    Removals config :=
  match deleteMigrationWebsite config.toConfig config.sha1 s.websites
      { applicationId := Json.ofOption Json.str op.applicationId
        websiteId := .str op.websiteId
        serverId := .str op.serverId } with
  | .ok websites => { s with websites }
  | .error _ => s

/-- The work of a step begins. What has nothing to work with has succeeded
at once. -/
def beginWork (s : Removals config) (env : RemovalEnv) (op : Operation)
    (step : Step) : Segment config :=
  if config.wired step.kind then
    .goes (if step.kind = .metadataFinalization then finalizeMetadata s op
        else s)
      (.working op step) [.began op.id step.id]
  else succeedStep s env op step (.arr [])

/-- The work of a step comes to something. An error thrown by the last step
is caught on the spot. -/
def endWork (s : Removals config) (env : RemovalEnv) (op : Operation)
    (step : Step) : Segment config :=
  match env.report, step.kind with
  | .threw _, .metadataFinalization => succeedStep s env op step .null
  | .threw e, _ => failStep s env op.id step e
  | .child c, .domainRemoval => endDomainRemoval s env op step c
  | .finished _, .domainRemoval => (s, some (.working op step), [])
  | .finished details, _ => succeedStep s env op step details
  | _, _ => (s, some (.working op step), [])

/-- What follows a write that is done. -/
def goOn (s : Removals config) : After → Segment config
  | .created operationId => runNextStep s operationId
  | .marked operationId step =>
      match s.journal.get (.str operationId) with
      | .error e => .rejects s (.error e)
      | .ok none =>
          .rejects s (.error (refuse "website_removal_operation_not_found"
            "Website removal operation was not found" 404))
      | .ok (some op) => .goes s (.reloaded op step)
  | .swept rest => .goes s (.sweeping rest)
  | _ => (s, none, [.returned])

/-- The write a call waited for is done, or has failed. -/
def saved (s : Removals config) (env : RemovalEnv)
    (snapshot : List Operation) (next : After) : Segment config :=
  if env.saved then goOn { s with file := .stored snapshot } next
  else
    match next with
    | .succeeded operationId step | .blocked operationId step =>
        failStep s env operationId step env.writeError
    | _ => .rejects s (.thrown env.writeError)

/-- The rest of the loop of `init`: the next operation that was interrupted
is blocked. -/
def sweep (s : Removals config) (env : RemovalEnv) :
    List Operation → Segment config
  | [] => (s, none, [.returned])
  | op :: rest =>
      match interruptedStep op with
      | none => sweep s env rest
      | some step =>
          .records s (s.journal.blockStep env.now op.id step.id interrupted)
            (.swept rest)

/-- `previewProvider({ websiteId })` up to its first wait. -/
def lookUpWebsite (s : Removals config) (websiteId : String) :
    Except Rejection (Website config.net) :=
  match uuid (.str websiteId) "invalid_website_id" "websiteId" with
  | .error e => .error (.error e)
  | .ok id =>
      match s.websites.find? fun w =>
          w.id == id && w.serverId == config.localServerId with
      | some website => .ok website
      | none =>
          .error (.thrown ⟨"", "Website not found on local server"⟩)

/-- `start` once it has its preview. -/
def startPreviewed (s : Removals config) (env : RemovalEnv)
    (confirmation : String) (preview : Preview) : Segment config :=
  if preview.confirmation = some confirmation && preview.readyToStart then
    match s.journal.create env.now env.randomUUID preview with
    | .error e => .rejects s (.error e)
    | .ok (operation, j) => .records s (.ok j) (.created operation.id)
  else
    .rejects s (.error (refuse "website_removal_preview_stale"
      ("Website removal state has changed since preview; request a new "
        ++ "preview") 409))

/-- What `continueStep` asks of the operation it found. Of an operation
without a step left it cannot make the confirmation it compares with. -/
def requireCurrent (input : ContinueInput) (op : Operation) :
    Except Rejection Unit := do
  ensure (.error (refuse "operation_not_found" "Operation not found" 404))
    (.str op.websiteId == input.websiteId)
  let step ← demand (.thrown ⟨"TypeError",
    "Cannot read properties of null (reading 'id')"⟩) (firstIncomplete op)
  ensure (.error (refuse "website_removal_step_continuation_stale"
      ("Website removal step continuation is stale or confirmation is "
        ++ "invalid") 409))
    (.str step.id == input.stepId
      && .str op.updatedAt == input.expectedUpdatedAt
      && .str (stepContinuationConfirmation op step) == input.confirmation)

/-- `markStepRunning` of the first step that has not succeeded. -/
def markNext (s : Removals config) (env : RemovalEnv) (op : Operation) :
    Segment config :=
  match firstIncomplete op with
  | none => (s, none, [.returned])
  | some step =>
      .records s (s.journal.markStepRunning env.now op.id step.id)
        (.marked op.id step) [.marked op.id step.id]

/-- One segment of a call. -/
def resume (s : Removals config) :
    Stage config → RemovalEnv → Segment config
  | .entered .init, _ =>
      if s.journal.initialized then .goes s .listing else .goes s .reading
  | .entered (.start confirmation), _ =>
      match confirmedWebsite confirmation with
      | .error e => .rejects s (.error e)
      | .ok (text, websiteId) =>
          match lookUpWebsite s websiteId with
          | .error r => .rejects s r
          | .ok website => .goes s (.previewing text website)
  | .entered (.continueStep input), _ =>
      match s.journal.get input.operationId with
      | .error e => .rejects s (.error e)
      | .ok none =>
          .rejects s (.error (refuse "website_removal_operation_not_found"
            "Website removal operation was not found" 404))
      | .ok (some op) => .goes s (.checking input op)
  | .reading, env =>
      match s.file with
      | .torn => .rejects s (.thrown env.writeError)
      | file =>
          .goes { s with journal := ⟨file.operations, true⟩ } .listing
  | .listing, _ => .goes s (.sweeping s.journal.operations)
  | .sweeping views, env => sweep s env views
  | .previewing confirmation website, env =>
      match env.impact with
      | .error e => .rejects s (.thrown e)
      | .ok impact =>
          match createWebsiteRemovalPreview config.toConfig website
              impact with
          | .error e => .rejects s (.error e)
          | .ok preview => startPreviewed s env confirmation preview
  | .checking input op, _ =>
      match requireCurrent input op with
      | .error r => .rejects s r
      | .ok () => runNextStep s op.id
  | .loaded op, env => markNext s env op
  | .reloaded op step, env => beginWork s env op step
  | .working op step, env => endWork s env op step
  | .saving snapshot next, env => saved s env snapshot next

end Segments

/-- What happens around the calls: a write that was started lands, or leaves
the file torn. -/
inductive RemovalWorld where
  | lands (index : Nat)
  | tears (index : Nat)

def removalWorld {config : RemovalConfig} (s : Removals config) :
    RemovalWorld → Removals config
  | .lands index =>
      match s.started[index]? with
      | none => s
      | some operations => { s with file := .stored operations }
  | .tears index =>
      match s.started[index]? with
      | none => s
      | some _ => { s with file := .torn }

/-- The runtime with its calls in flight; after a crash it starts on the
file. -/
def removalProtocol (config : RemovalConfig) :
    Protocol (Removals config) RemovalCall (Stage config) RemovalEnv
      RemovalWorld RemovalNote where
  enter := .entered
  resume := resume
  world := removalWorld
  reopen s := .boot s.file s.websites

end Yunpanel.Websites
