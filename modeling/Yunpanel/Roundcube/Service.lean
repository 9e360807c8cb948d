/-
The service of webmail mappings: calls in flight over the registry and the
jobs.

# How a call is split

A call begins a binding or a deletion, or continues one. Each mutation of
the registry is a segment: mutations run one after another and nothing else
touches the file, so what happens between the awaits of one is as if it
happened at its last. Where the write fails after the file has been renamed
over, or the process dies there, the file is ahead of the memory.

A continuation first reads the mapping and then works on the copy. What it
awaits of the mail identity, the secret and the certificates is outside;
the mappings and the jobs are read as they are when it gets there.

# Jobs

The jobs are those of the job registry, with their writes on the way; any
call of it may come in between, so jobs are claimed, completed, cancelled
and enqueued by others.
-/
import Yunpanel.Lib.Desk
import Yunpanel.Lib.Flight
import Yunpanel.Roundcube.Configuration

namespace Yunpanel.Roundcube

open Json Lib Lib.Result
open Jobs (Job PublicJob publicJob)

-- ====== protocol

/-- `validateRoundcubeConfigApply(payload, errors)` -/
def validateRoundcubeConfigApply (payload : Json.Fields) : List String :=
  let allowed := ["previewSha256", "configSha256", "fpmSha256"]
  let required (condition : Bool) (text : String) : List String :=
    if condition then [] else ["roundcube.config.apply" ++ text]
  required (payload.length == allowed.length
      && payload.all fun field => allowed.contains field.1)
    " contains unsupported arguments"
  ++ required (allowed.all fun key =>
      (payload.get key).str?.any Text.isSha256)
    " digests are invalid"

/-- What `createOperationEnvelope` throws for an apply job. -/
def applyEnvelopeError (payload : Json) : Option String :=
  let errors :=
    match payload with
    | .obj fields => validateRoundcubeConfigApply fields
    | _ => ["payload must be an object"]
  if errors.isEmpty then none else some ("; ".intercalate errors)

/-- The protocol of jobs, which checks apply jobs as above. -/
def Context.protocol (c : Context) : Jobs.Protocol :=
  { c.proto with
    envelopeError := fun id operation payload =>
      match operation with
      | .roundcubeConfigApply => applyEnvelopeError payload
      | _ => c.proto.envelopeError id operation payload }

-- ====== state

/-- The mappings in memory and in the file, and the jobs. -/
structure Panel where
  mappings : List Mapping
  file : List Mapping
  jobs : Desk (List Job) Jobs.Failure Jobs.Reply

/-- How a write of the registry ends: done, failed, or failed with the file
renamed over. -/
inductive Written where
  | landed | lost | torn
  deriving DecidableEq

/-- What a segment finds around it. -/
structure Env where
  lookups : Lookups
  now : Instant
  randomUUID : Uuid
  written : Written
  /-- Whether the jobs can be read. -/
  readable : Bool
  /-- Whether the mail identity and the secret are ready. -/
  ready : Except Failure Bool
  materials : Materials
  jobId : Uuid
  jobNow : Instant

-- ====== calls

/-- What a caller sends to continue an operation. -/
structure ContinueInput where
  mailDomainId : Json
  operationId : Json
  expectedUpdatedAt : String
  confirmation : Json

inductive Call where
  | beginBind (input : BindInput)
  | beginDelete (input : DeleteInput)
  | continueOperation (input : ContinueInput)

/-- What a preview of the configuration is for: to see whether a failed
job may be retried, or to enqueue one. -/
inductive Goal where
  | retry (jobId : Reference)
  | apply (replacing : Option Reference)
  deriving DecidableEq

inductive PreviewStep where
  | inspecting
  | listing
  | materializing (listed : List Mapping)

inductive Stage where
  | entered (call : Call)
  | binding (preview : BindPreview) (operationId : Reference)
  | deleting (preview : Mapping) (operationId : Reference)
  | fetching (mapping : Mapping)
  | completing (mapping : Mapping) (job : PublicJob)
  | previewing (mapping : Mapping) (goal : Goal) (step : PreviewStep)
  | inventory (mapping : Mapping) (replacing : Option Reference)
  | enqueueing (mapping : Mapping) (replacing : Option Reference)
      (config : Configuration)
  | awaiting (mapping : Mapping) (replacing : Option Reference)
      (config : Configuration) (ticket : Nat)
  | attaching (mapping : Mapping) (replacing : Option Reference)
      (config : Configuration) (job : PublicJob)

/-- What a call leaves behind: that it is over, and that it completed an
operation, of the mapping as it found it and by a job. -/
inductive Note where
  | returned
  | rejected (e : Failure)
  | completed (mapping : Mapping) (job : PublicJob)

abbrev Segment : Type := Panel × Option Stage × List Note

def Panel.goTo (s : Panel) (k : Stage) : Segment := (s, some k, [])

def Panel.reject (s : Panel) (e : Failure) : Segment :=
  (s, none, [.rejected e])

def Panel.return (s : Panel) : Segment := (s, none, [.returned])

-- ====== mutations

/-- A mutation of the registry, from the mappings to the answer. -/
def Panel.change (s : Panel) (env : Env) (notes : List Note)
    (operation : List Mapping → Except Failure (Mapping × List Mapping)) :
    Segment :=
  match mutate operation s.mappings with
  | .error e => s.reject e
  | .ok (_, next) =>
      match env.written with
      | .landed => ({ s with mappings := next, file := next }, none,
          notes ++ [.returned])
      | .lost => s.reject .store
      | .torn => ({ s with file := next }, none, notes ++ [.rejected .store])

def Panel.bind (s : Panel) (c : Context) (env : Env) (preview : BindPreview)
    (operationId : Reference) : Segment :=
  s.change env [] (bindMapping c.toPlatform preview operationId
    env.randomUUID env.now)

def Panel.delete (s : Panel) (env : Env) (preview : Mapping)
    (operationId : Reference) : Segment :=
  s.change env [] (deleteMapping preview operationId env.now)

/-- The operation that owns a mapping a call continues. -/
def Panel.owned (s : Panel) (mapping : Mapping)
    (f : Reference → Segment) : Segment :=
  match mapping.phase.operationId? with
  | some operationId => f operationId
  | none => s.reject (operationStale "operation is stale")

/-- `registry.completeApply(mailDomainId, { operationId, job })` -/
def Panel.complete (s : Panel) (env : Env) (mapping : Mapping)
    (job : PublicJob) : Segment :=
  s.owned mapping fun operationId =>
    s.change env ((getRecordForMailDomain mapping.mailDomainId
        s.mappings).toList.map fun current => .completed current job)
      (completeApply mapping.mailDomainId operationId job)

/-- `attachApplyJob` or `replaceFailedApplyJob`. -/
def Panel.attach (s : Panel) (c : Context) (env : Env) (mapping : Mapping)
    (replacing : Option Reference) (config : Configuration)
    (job : PublicJob) : Segment :=
  s.owned mapping fun operationId =>
    match Matching.ofText? job.id.text with
    | none => s.reject (stateInvalid "applyJobId is invalid")
    | some jobId =>
        let evidence := config.evidence c.toPlatform jobId
        s.change env [] (match replacing with
          | none => attachApplyJob mapping.mailDomainId operationId evidence
          | some previous => replaceFailedApplyJob mapping.mailDomainId
              operationId previous evidence)

-- ====== continuation

def Platform.joined (p : Platform) (mapping : Mapping)
    (operationId : Reference) : String :=
  ":".intercalate ["continue-roundcube-domain", mapping.id.text,
    operationId.text, toString mapping.revision.val,
    p.isoDate mapping.updatedAt]

/-- `continueConfirmation(mapping)` -/
def continueConfirmation (p : Platform) (mapping : Mapping) :
    Option String :=
  if mapping.phase = .active then none
  else mapping.phase.operationId?.map (p.joined mapping)

/-- The mapping of a continuation that is not stale. -/
def checkContinue (p : Platform) (input : ContinueInput)
    (mappings : List Mapping) : Except Failure Mapping := do
  let id ← uuid "mailDomainId" input.mailDomainId
  demand (refuse "roundcube_mapping_continuation_stale"
      "Roundcube mapping continuation is stale or confirmation is invalid" 409)
    ((getRecordForMailDomain id mappings).filter fun mapping =>
      mapping.phase.inFlight
        && mapping.phase.operationId?.map Matching.json
          == some input.operationId
        && p.isoDate mapping.updatedAt == input.expectedUpdatedAt
        && (continueConfirmation p mapping).map Json.str
          == some input.confirmation)

/-- A call, up to what it first waits for. -/
def Panel.enter (s : Panel) (c : Context) (env : Env) : Call → Segment
  | .beginBind input =>
      match checkBind c.toPlatform env.lookups env.randomUUID input
          s.mappings with
      | .error e => s.reject e
      | .ok (preview, operationId) => s.goTo (.binding preview operationId)
  | .beginDelete input =>
      match checkDelete c.toPlatform env.randomUUID input s.mappings with
      | .error e => s.reject e
      | .ok (preview, operationId) => s.goTo (.deleting preview operationId)
  | .continueOperation input =>
      match checkContinue c.toPlatform input s.mappings with
      | .error e => s.reject e
      | .ok mapping =>
          if mapping.phase.evidence?.isNone then
            s.goTo (.inventory mapping none)
          else s.goTo (.fetching mapping)

/-- `jobFor(mapping)` of a mapping with a job. -/
def jobFor (env : Env) (jobs : List Job) (jobId : Reference) :
    Except Failure PublicJob := do
  ensure (refuse "roundcube_mapping_apply_job_unavailable"
      "Roundcube mapping apply job could not be inspected" 503) env.readable
  demand (refuse "roundcube_mapping_apply_job_missing"
      "Roundcube mapping references a missing apply job" 409)
    ((Jobs.findJob jobs jobId.text).map publicJob)

/-- `continueOperation` once the job of the mapping is known. -/
def Panel.fetch (s : Panel) (env : Env) (mapping : Mapping) : Segment :=
  match mapping.phase.evidence? with
  | none => s.goTo (.inventory mapping none)
  | some evidence =>
      match jobFor env s.jobs.mem evidence.jobId with
      | .error e => s.reject e
      | .ok job =>
          match job.status with
          | .queued | .running => s.return
          | .succeeded => s.goTo (.completing mapping job)
          | .failed | .cancelled =>
              s.goTo (.previewing mapping (.retry evidence.jobId) .inspecting)

/-- `assertNoConcurrentApply(serverId, ignoredJobId)` -/
def assertNoConcurrentApply (env : Env) (jobs : List Job) (serverId : Uuid)
    (ignoredJobId : Option Reference) : Except Failure Unit := do
  ensure (refuse "roundcube_mapping_job_inventory_unavailable"
      "Roundcube apply job inventory could not be inspected" 503) env.readable
  ensure (refuse "roundcube_configuration_job_conflict"
      ("Another Roundcube configuration change is already queued or "
        ++ "running") 409)
    (!jobs.any fun job => job.serverId == serverId.text
      && some job.id.text != ignoredJobId.map Matching.text
      && job.operation == .roundcubeConfigApply && job.status.active)

def previewDrift : Failure :=
  refuse "roundcube_mapping_preview_drift"
    "Roundcube desired state does not match the in-flight mapping operation"
    409

def retryDrift : Failure :=
  refuse "roundcube_mapping_retry_preview_drift"
    "Roundcube mapping desired state changed after the failed apply" 409

/-- What a call does with the preview it asked for. -/
def Panel.previewed (s : Panel) (c : Context) (mapping : Mapping)
    (config : Configuration) : Goal → Segment
  | .apply replacing => s.goTo (.enqueueing mapping replacing config)
  | .retry jobId =>
      if mapping.phase.evidence?.any fun evidence =>
          config.sha256 c.toPlatform == evidence.previewSha256
            && config.rendered.nginxSha256 == evidence.nginxSha256 then
        s.goTo (.inventory mapping (some jobId))
      else s.reject retryDrift

/-- `desiredPreview(mapping)` -/
def Panel.preview (s : Panel) (c : Context) (env : Env) (mapping : Mapping)
    (goal : Goal) : PreviewStep → Segment
  | .inspecting =>
      match env.ready with
      | .error e => s.reject e
      | .ok true => s.goTo (.previewing mapping goal .listing)
      | .ok false => s.reject previewDrift
  | .listing => s.goTo (.previewing mapping goal
      (.materializing (listMappings mapping.serverId s.mappings)))
  | .materializing listed =>
      match materializeCurrent c env.materials mapping.serverId listed with
      | .error e => s.reject e
      | .ok config =>
          if config.fulfils mapping then s.previewed c mapping config goal
          else s.reject previewDrift

/-- The key of the job of an operation. -/
def idempotencyKey (mapping : Mapping) (operationId : Reference)
    (replacing : Option Reference) : String :=
  ":".intercalate ["roundcube.mapping.apply", operationId.text,
    toString mapping.revision.val,
    match replacing with
    | none => "initial"
    | some previous => "retry-" ++ previous.text]

/-- The job that applies a configuration. -/
def applyRequest (c : Context) (mapping : Mapping) (operationId : Reference)
    (replacing : Option Reference) (config : Configuration) :
    Jobs.EnqueueRequest where
  serverId := mapping.serverId.text
  type := "roundcube.config.apply"
  operation := "roundcube.config.apply"
  payload := .obj [("previewSha256", (config.sha256 c.toPlatform).json),
    ("configSha256", config.rendered.configSha256.json),
    ("fpmSha256", config.rendered.fpmSha256.json)]
  resourceType := "server"
  resourceId := mapping.serverId.text
  idempotencyKey := some (idempotencyKey mapping operationId replacing)

/-- An error of the job registry has a status and is handed on; any other
is wrapped. -/
def enqueueFailed : Jobs.Failure → Failure
  | .registry code message status => .job (.registry code message status)
  | _ => refuse "roundcube_mapping_apply_enqueue_failed"
      "Roundcube mapping apply job could not be queued" 503

/-- What a call does with the answer of the job registry. -/
def Panel.enqueued (s : Panel) (mapping : Mapping)
    (replacing : Option Reference) (config : Configuration) :
    Except Jobs.Failure Jobs.Reply → Segment
  | .ok (.enqueued job _) => s.goTo (.attaching mapping replacing config job)
  | .ok _ => s.reject (refuse "roundcube_mapping_apply_enqueue_failed"
      "Roundcube mapping apply job identity is unavailable" 503)
  | .error e => s.reject (enqueueFailed e)

/-- `jobRegistry.enqueue(…)` up to its write. -/
def Panel.enqueue (s : Panel) (c : Context) (env : Env) (mapping : Mapping)
    (replacing : Option Reference) (config : Configuration) : Segment :=
  s.owned mapping fun operationId =>
    let asked := s.jobs.ask (Jobs.enqueue c.protocol
      (applyRequest c mapping operationId replacing config) env.jobId
      env.jobNow)
    let s := { s with jobs := asked.1 }
    match asked.2 with
    | .told answer => s.enqueued mapping replacing config answer
    | .ticket n => s.goTo (.awaiting mapping replacing config n)

/-- The write of the enqueued job, once it has settled. -/
def Panel.await (s : Panel) (mapping : Mapping)
    (replacing : Option Reference) (config : Configuration) (ticket : Nat) :
    Segment :=
  match s.jobs.collect ticket with
  | some (.resolved reply) => s.enqueued mapping replacing config (.ok reply)
  | some (.rejected e) => s.enqueued mapping replacing config (.error e)
  | _ => s.goTo (.awaiting mapping replacing config ticket)

-- ====== segments

/-- One segment of a call. -/
def Panel.resume (c : Context) (s : Panel) : Stage → Env → Segment
  | .entered call, env => s.enter c env call
  | .binding preview operationId, env => s.bind c env preview operationId
  | .deleting preview operationId, env => s.delete env preview operationId
  | .fetching mapping, env => s.fetch env mapping
  | .completing mapping job, env => s.complete env mapping job
  | .previewing mapping goal step, env => s.preview c env mapping goal step
  | .inventory mapping replacing, env =>
      match assertNoConcurrentApply env s.jobs.mem mapping.serverId
          replacing with
      | .error e => s.reject e
      | .ok () => s.goTo (.previewing mapping (.apply replacing) .inspecting)
  | .enqueueing mapping replacing config, env =>
      s.enqueue c env mapping replacing config
  | .awaiting mapping replacing config ticket, _ =>
      s.await mapping replacing config ticket
  | .attaching mapping replacing config job, env =>
      s.attach c env mapping replacing config job

/-- What happens to the jobs in between: a call of the job registry, or the
write at the head of its chain settles. -/
inductive JobEvent where
  | call (call : Jobs.Call)
  | settle (ok : Bool)

def Panel.job (c : Context) (s : Panel) : JobEvent → Panel
  | .call call =>
      { s with jobs := (s.jobs.ask (call.effect c.protocol)).1 }
  | .settle ok => { s with jobs := s.jobs.settle .store ok }

/-- A process that starts reads both files. -/
def Panel.reopen (s : Panel) : Panel where
  mappings := s.file
  file := s.file
  jobs := Desk.opened s.jobs.file

def protocol (c : Context) : Protocol Panel Call Stage Env JobEvent Note where
  enter := .entered
  resume := Panel.resume c
  world := Panel.job c
  reopen := Panel.reopen

/-- A registry that was read from its file, with no call under way. -/
def started (file : List Mapping) (jobs : List Job) : Flight Panel Stage :=
  Flight.fresh { mappings := file, file, jobs := Desk.opened jobs }

end Yunpanel.Roundcube
