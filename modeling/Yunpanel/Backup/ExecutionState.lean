/-
The execution plan of a backup: what is stored, and what a stored one has
to be.

# What an execution plan is

One step for each resource to be backed up, in the order of their
identities. A step names its resource, and the state of the resource it is
to find. Everything is sealed: the id of a step is a digest of what the
step is, and the plan has one over all its steps.

# How it is modelled

`normalizeBackupExecutionPlan` reads a plan from JSON. What it returns is
a `Plan`, whose fields carry what was checked (an id is a UUID, a revision
a count, the applied revision is at most the desired one, the steps are in
order), so a plan that is held can be written (`Plan.json`) and read again
with no check left to fail. The digests are not fields: they are functions
of the others.
-/
import Yunpanel.Js.Fields
import Yunpanel.Js.Collation
import Yunpanel.Lib.Result

namespace Yunpanel.Backup

open Json

-- ====== the host

/-- What the program has from its host: SHA-256 of the text of a JSON
value, in hexadecimal, and dates, whose text reads back. -/
structure Host where
  digest : Json → String
  digest_hex : ∀ value, Text.isSha256 (digest value) = true
  parseDate : String → Option Instant
  isoDate : Instant → String
  parse_iso : ∀ t, parseDate (isoDate t) = some t

namespace Host

variable (host : Host)

/-- `timestamp`: the time a text means. -/
def timestamp? (value : Json) : Option Instant :=
  value.str?.bind host.parseDate

def timestamp (t : Instant) : Json := .str (host.isoDate t)

@[simp] theorem timestamp?_timestamp (t : Instant) :
    host.timestamp? (host.timestamp t) = some t := host.parse_iso t

@[simp] theorem nullable?_timestamp (t : Option Instant) :
    nullable? host.timestamp? (ofOption host.timestamp t) = some t :=
  nullable?_ofOption (fun _ h => Json.noConfusion h)
    host.timestamp?_timestamp t

end Host

-- ====== failures

/-- `BackupExecutionStateError` -/
structure StateError where
  code : String
  message : String
  status : Nat
  deriving DecidableEq, Repr

def stateInvalid (message : String) : StateError :=
  ⟨"backup_execution_state_invalid", message, 409⟩

def stateTampered (message : String) : StateError :=
  ⟨"backup_execution_state_tampered", message, 409⟩

/-- A test that throws where it fails. -/
def expect {α : Type} (message : String) : Option α → Except StateError α
  | some a => .ok a
  | none => .error (stateInvalid message)

@[simp] theorem expect_some {α : Type} (message : String) (a : α) :
    expect message (some a) = .ok a := rfl

-- ====== inputs

/-- `RESOURCE_ID_PATTERN` -/
def isResourceId (s : String) : Bool :=
  Text.headed Text.isAlnum Text.isKeyChar 159 s

abbrev ResourceId := Matching isResourceId

/-- `[a-z0-9_.-]` -/
def isServiceChar (c : Char) : Bool :=
  Text.isDigit c || Text.isLower c || c == '_' || c == '.' || c == '-'

/-- `SERVICE_NAME_PATTERN` -/
def isServiceName (s : String) : Bool :=
  Text.headed (fun c => Text.isDigit c || Text.isLower c) isServiceChar 62 s

abbrev ServiceName := Matching isServiceName

/-- `DATABASE_NAME_PATTERN` -/
def isDatabaseName (s : String) : Bool :=
  Text.inClass (fun c => Text.isAlnum c || c == '_') 1 64 s

abbrev DatabaseName := Matching isDatabaseName

/-- A text of one to `n` units. -/
def isSized (n : Nat) (s : String) : Bool :=
  1 ≤ Text.length s && Text.length s ≤ n

/-- A target path inside a container. -/
def isTarget (s : String) : Bool :=
  s.toList.head? == some '/' && Text.length s ≤ 4096

/-- `identity`: sized, trimmed, and nothing unprintable in it. -/
def isMailIdentity (s : String) : Bool :=
  isSized 320 s && Text.trim s.toList == s.toList
    && !s.toList.any Text.isControl

/-- One of the texts of a list. -/
def isOneOf (texts : List String) (s : String) : Bool := texts.contains s

/-- No more was applied than was saved. -/
def revisionsOk (saved : SafeNat) (applied : Option SafeNat) : Bool :=
  applied.all fun n => n.val ≤ saved.val

structure Environment where
  savedRevision : SafeNat
  appliedRevision : Option SafeNat
  appliedReleaseId : Option Uuid
  bounded : revisionsOk savedRevision appliedRevision = true
  complete : appliedRevision.isNone = appliedReleaseId.isNone
  deriving DecidableEq

/-- What has to hold between the fields of an application's snapshot. -/
def releaseStateOk (applicationType : String) (appliedRevision : SafeNat)
    (currentReleaseId : Option Uuid) (currentCommitSha : Option Commit) :
    Bool :=
  currentReleaseId.isNone == currentCommitSha.isNone
    && !(currentReleaseId.isNone && appliedRevision.val != 0)
    && !(applicationType == "node" && currentReleaseId.isSome
      && appliedRevision.val == 0)

structure ApplicationInput where
  applicationId : Uuid
  applicationType : Matching (isOneOf ["static", "node"])
  desiredRevision : SafeNat
  appliedRevision : SafeNat
  currentReleaseId : Option Uuid
  currentCommitSha : Option Commit
  environment : Environment
  desired : 1 ≤ desiredRevision.val
  bounded : appliedRevision.val ≤ desiredRevision.val
  released : releaseStateOk applicationType.text appliedRevision
    currentReleaseId currentCommitSha = true

structure DatabaseInput where
  databaseName : DatabaseName
  engine : Matching (isOneOf ["mariadb", "mysql"])
  databaseVersion : Matching (isSized 120)
  sizeBytes : SafeNat
  inventoryJobId : Uuid
  inventoryRefreshedAt : Instant
  deriving DecidableEq

/-- `STORAGE_KEYS` -/
def storageKeys : List String :=
  ["kind", "source", "sourceScope", "target", "readOnly"]

/-- What the fields of a storage have to be. -/
def storageOk (fields : Fields) : Bool :=
  (fields.read "kind" str?).any (isOneOf ["named_volume", "bind"])
    && (fields.read "source" str?).any (isSized 4096)
    && fields.read "sourceScope" str? == some "project"
    && (fields.read "target" str?).any isTarget
    && (fields.read "readOnly" bool?).isSome

/-- A storage is kept as it was given, with its fields in their order. -/
structure Storage where
  fields : Fields
  keyed : exactObject storageKeys (.obj fields) = some fields
  ok : storageOk fields = true

structure DockerInput where
  projectId : Uuid
  projectRevision : SafeNat
  serviceName : ServiceName
  storage : Storage
  revised : 1 ≤ projectRevision.val

/-- The resource of a mail input is its domain. -/
structure MailInput where
  mailDomainId : Uuid
  identity : Matching isMailIdentity
  expectedRevision : SafeNat
  expectedSnapshotSha256 : Sha256
  bytes : SafeNat
  revised : 1 ≤ expectedRevision.val

inductive Input where
  | application (input : ApplicationInput)
  | database (input : DatabaseInput)
  | dockerStorage (input : DockerInput)
  | mailData (input : MailInput)

namespace Input

/-- `resourceType` -/
def resourceType : Input → String
  | application _ => "application"
  | database _ => "database"
  | dockerStorage _ => "docker_storage"
  | mailData _ => "mail_data"

/-- `EXECUTOR_KINDS` -/
def executorKind : Input → String
  | application _ => "application_snapshot"
  | database _ => "database_backup"
  | dockerStorage _ => "docker_storage_backup"
  | mailData _ => "mail_data_backup"

end Input

-- ====== as JSON

namespace Environment

def json (e : Environment) : Json :=
  .obj [("savedRevision", e.savedRevision.json),
    ("appliedRevision", ofOption SafeNat.json e.appliedRevision),
    ("appliedReleaseId", ofOption Uuid.json e.appliedReleaseId)]

end Environment

def ApplicationInput.json (i : ApplicationInput) : Json :=
  .obj [("applicationId", i.applicationId.json),
    ("applicationType", i.applicationType.json),
    ("desiredRevision", i.desiredRevision.json),
    ("appliedRevision", i.appliedRevision.json),
    ("currentReleaseId", ofOption Uuid.json i.currentReleaseId),
    ("currentCommitSha", ofOption Matching.json i.currentCommitSha),
    ("environment", i.environment.json)]

def DatabaseInput.json (host : Host) (i : DatabaseInput) : Json :=
  .obj [("databaseName", i.databaseName.json),
    ("engine", i.engine.json),
    ("databaseVersion", i.databaseVersion.json),
    ("sizeBytes", i.sizeBytes.json),
    ("inventoryJobId", i.inventoryJobId.json),
    ("inventoryRefreshedAt", host.timestamp i.inventoryRefreshedAt)]

def Storage.json (s : Storage) : Json := .obj s.fields

def DockerInput.json (i : DockerInput) : Json :=
  .obj [("projectId", i.projectId.json),
    ("projectRevision", i.projectRevision.json),
    ("serviceName", i.serviceName.json),
    ("storage", i.storage.json)]

def MailInput.json (i : MailInput) : Json :=
  .obj [("mailDomainId", i.mailDomainId.json),
    ("scope", .str "domain"),
    ("resourceId", i.mailDomainId.json),
    ("identity", i.identity.json),
    ("expectedRevision", i.expectedRevision.json),
    ("expectedSnapshotSha256", i.expectedSnapshotSha256.json),
    ("bytes", i.bytes.json)]

def Input.json (host : Host) : Input → Json
  | application i => i.json
  | database i => i.json host
  | dockerStorage i => i.json
  | mailData i => i.json

-- ====== reading

/-- `normalizeEnvironment` -/
def normalizeEnvironment (value : Json) :
    Except StateError Environment := do
  let fields ← expect "Application environment execution state is invalid"
    (exactObject ["savedRevision", "appliedRevision", "appliedReleaseId"]
      value)
  let saved ← expect "Application environment revisions are invalid"
    (fields.read "savedRevision" SafeNat.read?)
  let applied ← expect "Application environment revisions are invalid"
    (fields.read "appliedRevision" (nullable? SafeNat.read?))
  if hbound : revisionsOk saved applied = true then
    let release ← expect "Application environment release is invalid"
      (fields.read "appliedReleaseId" (nullable? Uuid.read?))
    if hcomplete : applied.isNone = release.isNone then
      .ok ⟨saved, applied, release, hbound, hcomplete⟩
    else
      .error (stateInvalid
        "Application environment applied state is incomplete")
  else .error (stateInvalid "Application environment revisions are invalid")

/-- `normalizeApplicationInput` -/
def normalizeApplicationInput (value : Json) :
    Except StateError ApplicationInput := do
  let fields ← expect "Application backup execution input is invalid"
    (exactObject ["applicationId", "applicationType", "desiredRevision",
      "appliedRevision", "currentReleaseId", "currentCommitSha",
      "environment"] value)
  let type ← expect "Application backup revisions are invalid"
    (fields.read "applicationType" Matching.read?)
  let desired ← expect "Application backup revisions are invalid"
    (fields.read "desiredRevision" SafeNat.read?)
  let applied ← expect "Application backup revisions are invalid"
    (fields.read "appliedRevision" SafeNat.read?)
  if hbound : 1 ≤ desired.val ∧ applied.val ≤ desired.val then
    let release ← expect "Application release is invalid"
      (fields.read "currentReleaseId" (nullable? Uuid.read?))
    let commit ← expect "Application commit is invalid"
      (fields.read "currentCommitSha" (nullable? Commit.read?))
    if hreleased : releaseStateOk type.text applied release commit = true then
      let id ← expect "Application id is invalid"
        (fields.read "applicationId" Uuid.read?)
      let environment ← normalizeEnvironment (fields.get "environment")
      .ok ⟨id, type, desired, applied, release, commit, environment,
        hbound.1, hbound.2, hreleased⟩
    else .error (stateInvalid "Application release state is invalid")
  else .error (stateInvalid "Application backup revisions are invalid")

/-- `normalizeDatabaseInput` -/
def normalizeDatabaseInput (host : Host) (value : Json) :
    Except StateError DatabaseInput := do
  let fields ← expect "Database backup execution input is invalid"
    (exactObject ["databaseName", "engine", "databaseVersion", "sizeBytes",
      "inventoryJobId", "inventoryRefreshedAt"] value)
  let name ← expect "Database backup execution metadata is invalid"
    (fields.read "databaseName" Matching.read?)
  let engine ← expect "Database backup execution metadata is invalid"
    (fields.read "engine" Matching.read?)
  let version ← expect "Database backup execution metadata is invalid"
    (fields.read "databaseVersion" Matching.read?)
  let size ← expect "Database backup execution metadata is invalid"
    (fields.read "sizeBytes" SafeNat.read?)
  let job ← expect "Database inventory job is invalid"
    (fields.read "inventoryJobId" Uuid.read?)
  let refreshed ← expect "Database inventory timestamp is invalid"
    (fields.read "inventoryRefreshedAt" host.timestamp?)
  .ok ⟨name, engine, version, size, job, refreshed⟩

/-- `normalizeStorage` -/
def normalizeStorage (value : Json) : Except StateError Storage :=
  match value with
  | .obj fields =>
      if hkeyed : exactObject storageKeys (.obj fields) = some fields then
        if hok : storageOk fields = true then .ok ⟨fields, hkeyed, hok⟩
        else .error (stateInvalid "Docker storage execution source is invalid")
      else .error (stateInvalid "Docker storage execution input is invalid")
  | _ => .error (stateInvalid "Docker storage execution input is invalid")

/-- `normalizeDockerInput` -/
def normalizeDockerInput (value : Json) : Except StateError DockerInput := do
  let fields ← expect "Docker backup execution input is invalid"
    (exactObject ["projectId", "projectRevision", "serviceName", "storage"]
      value)
  let revision ← expect "Docker backup execution metadata is invalid"
    (fields.read "projectRevision" SafeNat.read?)
  let service ← expect "Docker backup execution metadata is invalid"
    (fields.read "serviceName" Matching.read?)
  if hrevised : 1 ≤ revision.val then
    let id ← expect "Docker project id is invalid"
      (fields.read "projectId" Uuid.read?)
    let storage ← normalizeStorage (fields.get "storage")
    .ok ⟨id, revision, service, storage, hrevised⟩
  else .error (stateInvalid "Docker backup execution metadata is invalid")

/-- `normalizeMailInput` -/
def normalizeMailInput (value : Json) : Except StateError MailInput := do
  let fields ← expect "Mail backup execution input is invalid"
    (exactObject ["mailDomainId", "scope", "resourceId", "identity",
      "expectedRevision", "expectedSnapshotSha256", "bytes"] value)
  let domain ← expect "Mail Domain id is invalid"
    (fields.read "mailDomainId" Uuid.read?)
  let resource ← expect "Mail resource id is invalid"
    (fields.read "resourceId" Uuid.read?)
  let scope ← expect "Mail backup execution metadata is invalid"
    (fields.read "scope" str?)
  let identity ← expect "Mail backup execution metadata is invalid"
    (fields.read "identity" Matching.read?)
  let revision ← expect "Mail backup execution metadata is invalid"
    (fields.read "expectedRevision" SafeNat.read?)
  let bytes ← expect "Mail backup execution metadata is invalid"
    (fields.read "bytes" SafeNat.read?)
  if hrevised : scope = "domain" ∧ resource = domain
      ∧ 1 ≤ revision.val then
    let snapshot ← expect "Mail snapshot digest is invalid"
      (fields.read "expectedSnapshotSha256" Matching.read?)
    .ok ⟨domain, identity, revision, snapshot, bytes, hrevised.2.2⟩
  else .error (stateInvalid "Mail backup execution metadata is invalid")

/-- `normalizeInput` -/
def normalizeInput (host : Host) (resourceType : String) (value : Json) :
    Except StateError Input :=
  if resourceType = "application" then
    (normalizeApplicationInput value).map .application
  else if resourceType = "database" then
    (normalizeDatabaseInput host value).map .database
  else if resourceType = "docker_storage" then
    (normalizeDockerInput value).map .dockerStorage
  else if resourceType = "mail_data" then
    (normalizeMailInput value).map .mailData
  else .error (stateInvalid "Backup execution resource type is invalid")

/-- `EXECUTOR_KINDS[resourceType]` -/
def executorKindOf (resourceType : String) : Option String :=
  [("application", "application_snapshot"), ("database", "database_backup"),
    ("docker_storage", "docker_storage_backup"),
    ("mail_data", "mail_data_backup")].lookup resourceType

-- ====== steps

/-- A step, without the digest that seals it. -/
structure Step where
  resourceIdentity : ResourceId
  input : Input

/-- What of a plan the digest of a step covers. -/
structure Scope where
  serverId : Uuid
  previewDigest : Sha256
  deriving DecidableEq

namespace Step

variable (host : Host) (scope : Scope) (step : Step)

def core : Fields :=
  [("resourceIdentity", step.resourceIdentity.json),
    ("resourceType", .str step.input.resourceType),
    ("executorKind", .str step.input.executorKind),
    ("input", step.input.json host)]

/-- `stepDigest` -/
def stepDigest : String :=
  host.digest (.obj ([("version", .num 1), ("serverId", scope.serverId.json),
    ("previewDigest", scope.previewDigest.json)] ++ step.core host))

/-- `stepId` -/
def stepId : String := "backup-step:" ++ step.stepDigest host scope

def json : Json :=
  .obj ([("stepId", .str (step.stepId host scope)),
    ("stepDigest", .str (step.stepDigest host scope))] ++ step.core host)

end Step

/-- `normalizeStep` -/
def normalizeStep (host : Host) (scope : Scope) (value : Json) :
    Except StateError Step := do
  let fields ← expect "Backup execution step is invalid"
    (exactObject ["stepId", "stepDigest", "resourceIdentity", "resourceType",
      "executorKind", "input"] value)
  let identity ← expect "Backup execution step identity is invalid"
    (fields.read "resourceIdentity" Matching.read?)
  let type ← expect "Backup execution step identity is invalid"
    (fields.read "resourceType" str?)
  let kind ← expect "Backup execution step identity is invalid"
    (executorKindOf type)
  if fields.read "executorKind" str? ≠ some kind then
    .error (stateInvalid "Backup execution step identity is invalid")
  else
    let input ← normalizeInput host type (fields.get "input")
    let step : Step := ⟨identity, input⟩
    if fields.read "stepDigest" str? ≠ some (step.stepDigest host scope)
        ∨ fields.read "stepId" str? ≠ some (step.stepId host scope) then
      .error (stateTampered
        "Backup execution step digest does not match persisted work")
    else .ok step

-- ====== plans

/-- Whether each identity comes after the one before it. -/
def ordered : List Step → Bool
  | [] => true
  | [_] => true
  | a :: b :: rest =>
      Text.localeCompare b.resourceIdentity.text a.resourceIdentity.text
          == .gt
        && ordered (b :: rest)

/-- No two steps with one id, no two with one identity, and in order. -/
def stepsOk (host : Host) (scope : Scope) (steps : List Step) : Bool :=
  decide ((steps.map (Step.stepId host scope)).Nodup)
    && decide ((steps.map Step.resourceIdentity).Nodup)
    && ordered steps

structure Plan (host : Host) extends Scope where
  selectionMode : Matching (isOneOf ["all_managed", "explicit"])
  steps : List Step
  sized : 1 ≤ steps.length ∧ steps.length ≤ 8192
  ok : stepsOk host toScope steps = true

namespace Plan

variable {host : Host} (plan : Plan host)

/-- What the digest of a plan covers. -/
def identity : Fields :=
  [("version", .num 1), ("serverId", plan.serverId.json),
    ("previewDigest", plan.previewDigest.json),
    ("selectionMode", plan.selectionMode.json),
    ("steps", .arr (plan.steps.map (Step.json host plan.toScope)))]

def executionDigest : String := host.digest (.obj plan.identity)

def idempotencyKey : String := "general-backup:" ++ plan.executionDigest

def json : Json :=
  .obj (plan.identity ++ [("executionDigest", .str plan.executionDigest),
    ("idempotencyKey", .str plan.idempotencyKey),
    ("sideEffects", .bool true)])

end Plan

/-- `normalizeBackupExecutionPlan` -/
def normalizeBackupExecutionPlan (host : Host) (value : Json) :
    Except StateError (Plan host) := do
  let fields ← expect "Backup execution plan is invalid"
    (exactObject ["version", "serverId", "previewDigest", "selectionMode",
      "steps", "executionDigest", "idempotencyKey", "sideEffects"] value)
  let mode ← expect "Backup execution plan metadata is invalid"
    (fields.read "selectionMode" Matching.read?)
  let items ← expect "Backup execution plan metadata is invalid"
    (fields.read "steps" arr?)
  if fields.get "version" = .num 1
      ∧ fields.get "sideEffects" = .bool true
      ∧ 1 ≤ items.length ∧ items.length ≤ 8192 then
    let serverId ← expect "Server id is invalid"
      (fields.read "serverId" Uuid.read?)
    let previewDigest ← expect "Preview digest is invalid"
      (fields.read "previewDigest" Matching.read?)
    let scope : Scope := ⟨serverId, previewDigest⟩
    let steps ← items.mapM (normalizeStep host scope)
    if hok : (1 ≤ steps.length ∧ steps.length ≤ 8192)
        ∧ stepsOk host scope steps = true then
      let plan : Plan host :=
        { scope with
          selectionMode := mode, steps := steps
          sized := hok.1, ok := hok.2 }
      if fields.read "executionDigest" str? ≠ some plan.executionDigest
          ∨ fields.read "idempotencyKey" str?
            ≠ some plan.idempotencyKey then
        .error (stateTampered
          "Backup execution digest does not match persisted work")
      else .ok plan
    else
      .error (stateInvalid
        "Backup execution steps are duplicated or unordered")
  else .error (stateInvalid "Backup execution plan metadata is invalid")

end Yunpanel.Backup
