/-
Making the execution plan of a confirmed preview.

`createBackupExecutionPlan` takes a preview that the caller has just had
made again, the digest and the confirmation that the user repeated, and
makes one step of each selected resource. It is written apart from the
reader of stored plans: its own tests, its own order (`sort`, not
`localeCompare`), its own digests. What it returns is the JSON value that
is stored.
-/
import Yunpanel.Backup.Plan

namespace Yunpanel.Backup

open Json

-- ====== failures

/-- `BackupExecutionPlanError` -/
structure ExecutionError where
  code : String
  message : String
  status : Nat
  deriving DecidableEq, Repr

def executionError {α : Type} (code message : String)
    (status : Nat := 409) : Except ExecutionError α :=
  .error ⟨code, message, status⟩

def resourceInvalid {α : Type} (message : String) :
    Except ExecutionError α :=
  executionError "backup_execution_resource_invalid" message

-- ====== inputs

/-- `normalizeStorage`: the fields of a mount in an order of their own. -/
def executionStorage (mount : StorageMount) : Except ExecutionError Json :=
  match mount.fields.read "kind" str?, mount.fields.read "source" str?,
    mount.fields.read "sourceScope" str?, mount.fields.read "target" str?,
    mount.fields.read "readOnly" bool? with
  | some kind, some source, some sourceScope, some target,
      some readOnly =>
      if isOneOf ["named_volume", "bind"] kind && isSized 4096 source
          && isOneOf ["project", "host"] sourceScope && isTarget target then
        if kind = "named_volume" ∧ sourceScope ≠ "project" then
          resourceInvalid "Docker named-volume execution scope is invalid"
        else if kind = "bind" ∧ sourceScope ≠ "project" then
          executionError "backup_execution_resource_not_selectable"
            "Arbitrary host bind cannot be executed by general backup"
        else
          .ok (.obj [("kind", .str kind), ("source", .str source),
            ("sourceScope", .str sourceScope), ("target", .str target),
            ("readOnly", .bool readOnly)])
      else resourceInvalid "Docker storage execution source is invalid"
  | _, _, _, _, _ =>
      resourceInvalid "Docker storage execution source is invalid"

/-- `applicationInput` -/
def applicationInput (resource : ApplicationResource) : Json :=
  .obj [("applicationId", resource.applicationId.json),
    ("applicationType", resource.applicationType.json),
    ("desiredRevision", resource.desiredRevision.json),
    ("appliedRevision", resource.appliedRevision.json),
    ("currentReleaseId", ofOption Uuid.json resource.currentReleaseId),
    ("currentCommitSha", ofOption Matching.json resource.currentCommitSha),
    ("environment", .obj [
      ("savedRevision", resource.environment.savedRevision.json),
      ("appliedRevision",
        ofOption SafeNat.json resource.environment.appliedRevision),
      ("appliedReleaseId",
        ofOption Uuid.json resource.environment.appliedReleaseId)])]

/-- `databaseInput` -/
def databaseInput (host : Host) (resource : DatabaseResource) : Json :=
  .obj [("databaseName", resource.databaseName.json),
    ("engine", resource.engine.json),
    ("databaseVersion", resource.databaseVersion.json),
    ("sizeBytes", resource.sizeBytes.json),
    ("inventoryJobId", resource.inventoryJobId.json),
    ("inventoryRefreshedAt", host.timestamp resource.inventoryRefreshedAt)]

/-- `dockerInput` -/
def dockerInput (resource : DockerResource) : Except ExecutionError Json :=
  if resource.projectRevision < 1
      ∨ 9007199254740991 < resource.projectRevision
      ∨ Text.length resource.serviceName.text < 1
      ∨ 63 < Text.length resource.serviceName.text then
    resourceInvalid "Docker storage execution snapshot is invalid"
  else
    match Uuid.ofText? resource.projectId.text with
    | none => resourceInvalid "docker project id is invalid"
    | some projectId => do
        let storage ← executionStorage resource.storage
        .ok (.obj [("projectId", projectId.json),
          ("projectRevision", .num resource.projectRevision),
          ("serviceName", resource.serviceName.json),
          ("storage", storage)])

/-- `mailInput` -/
def mailInput (resource : MailResource) : Except ExecutionError Json :=
  if resource.scope.text ≠ "domain"
      ∨ resource.resourceId ≠ resource.mailDomainId
      ∨ resource.sourcePresent ≠ true then
    resourceInvalid "Mail data execution snapshot is invalid"
  else
    .ok (.obj [("mailDomainId", resource.mailDomainId.json),
      ("scope", .str "domain"),
      ("resourceId", resource.mailDomainId.json),
      ("identity", resource.sourceIdentity.json),
      ("expectedRevision", resource.revision.json),
      ("expectedSnapshotSha256", resource.snapshotSha256.json),
      ("bytes", resource.bytes.json)])

/-- `executionInput` -/
def executionInput (host : Host) : Resource → Except ExecutionError Json
  | .application resource => .ok (applicationInput resource)
  | .database resource => .ok (databaseInput host resource)
  | .dockerStorage resource => dockerInput resource
  | .mailData resource => mailInput resource

/-- `EXECUTOR_KINDS[resource.type]` -/
def executorKind : Resource → String
  | .application _ => "application_snapshot"
  | .database _ => "database_backup"
  | .dockerStorage _ => "docker_storage_backup"
  | .mailData _ => "mail_data_backup"

-- ====== plan

/-- The preview as `normalizeCurrentPlan` returns it; the resources are
only looked up, so their order is left as it is. -/
structure CurrentPlan where
  serverId : String
  previewDigest : String
  confirmation : String
  selectionMode : String
  resources : List Resource
  selected : List String

/-- `normalizeCurrentPlan` -/
def normalizeCurrentPlan (host : Host) (plan : BackupPlan) :
    Except ExecutionError CurrentPlan :=
  let lowered := Text.lower plan.serverId.toList
  if Text.shape uuidShape lowered ∧ Text.isSha256 plan.previewDigest
      ∧ plan.resources.length ≤ 8192
      ∧ plan.selectedResourceIdentities.length ≤ 8192 then
    if (plan.resources.map (Resource.identity host)).Nodup
        ∧ plan.selectedResourceIdentities.Nodup then
      .ok {
        serverId := String.ofList lowered
        previewDigest := plan.previewDigest
        confirmation := plan.confirmation
        selectionMode := plan.selectionMode
        resources := plan.resources
        selected := Text.sort plan.selectedResourceIdentities }
    else
      executionError "backup_execution_plan_invalid"
        "Current backup preview contains duplicate identities"
  else
    executionError "backup_execution_plan_invalid"
      "Current backup preview is invalid"

/-- What the digest of the step of a resource covers. -/
def stepCore (identity : String) (resource : Resource) (input : Json) :
    Fields :=
  [("resourceIdentity", .str identity),
    ("resourceType", .str resource.type),
    ("executorKind", .str (executorKind resource)), ("input", input)]

/-- The sealed value of a step's core. -/
def sealedStep (current : CurrentPlan) (core : Fields) : Json :=
  .obj ([("version", .num 1), ("serverId", .str current.serverId),
    ("previewDigest", .str current.previewDigest)] ++ core)

/-- The core of the step of one selected identity. -/
def coreOf (host : Host) (current : CurrentPlan) (identity : String) :
    Except ExecutionError Fields :=
  match current.resources.find? fun r => r.identity host == identity with
  | none =>
      executionError "backup_execution_resource_not_selectable"
        "Backup resource is no longer selectable"
  | some resource =>
      if resource.serverId ≠ current.serverId
          ∨ resource.policy.disposition ≠ "include" then
        executionError "backup_execution_resource_not_selectable"
          "Backup resource is no longer selectable"
      else if isResourceId identity then do
        let input ← executionInput host resource
        .ok (stepCore identity resource input)
      else resourceInvalid "Backup resource identity is invalid"

/-- The step of a core. -/
def sealStep (host : Host) (current : CurrentPlan) (core : Fields) : Json :=
  .obj ([("stepId", .str ("backup-step:"
        ++ host.digest (sealedStep current core))),
      ("stepDigest", .str (host.digest (sealedStep current core)))]
    ++ core)

/-- The plan of some cores. -/
def executionPlanJson (host : Host) (current : CurrentPlan)
    (cores : List Fields) : Json :=
  let identity : Fields := [("version", .num 1),
    ("serverId", .str current.serverId),
    ("previewDigest", .str current.previewDigest),
    ("selectionMode", .str current.selectionMode),
    ("steps", .arr (cores.map (sealStep host current)))]
  let executionDigest := host.digest (.obj identity)
  .obj (identity ++ [("executionDigest", .str executionDigest),
    ("idempotencyKey", .str ("general-backup:" ++ executionDigest)),
    ("sideEffects", .bool true)])

/-- The confirmation a preview asks for. -/
def expectedConfirmation (current : CurrentPlan) : String :=
  "backup:" ++ current.serverId ++ ":" ++ current.previewDigest

/-- `createBackupExecutionPlan` -/
def createBackupExecutionPlan (host : Host) (plan : BackupPlan)
    (expectedPreviewDigest confirmation : String) :
    Except ExecutionError Json := do
  let current ← normalizeCurrentPlan host plan
  if Text.isSha256 expectedPreviewDigest then
    if current.previewDigest = expectedPreviewDigest then
      if current.confirmation = expectedConfirmation current
          ∧ confirmation = expectedConfirmation current then
        let cores ← current.selected.mapM (coreOf host current)
        if cores.length = 0
            ∨ cores.length ≠ current.selected.dedup.length then
          executionError "backup_execution_empty"
            "Backup execution does not contain work"
        else .ok (executionPlanJson host current cores)
      else
        executionError "backup_execution_confirmation_invalid"
          "Backup confirmation is invalid"
    else
      executionError "backup_execution_preview_stale"
        "Backup preview is stale"
  else
    executionError "backup_execution_preview_digest_invalid"
      "Backup execution digest is invalid" 400

/-- The values whose digests name the steps of a preview. -/
def sealedSteps (host : Host) (plan : BackupPlan) : List Json :=
  match normalizeCurrentPlan host plan with
  | .error _ => []
  | .ok current =>
      current.selected.filterMap fun identity =>
        match coreOf host current identity with
        | .error _ => none
        | .ok core => some (sealedStep current core)

/-- No two of some values have one digest. -/
def Host.Distinguishes (host : Host) (values : List Json) : Prop :=
  ∀ a ∈ values, ∀ b ∈ values, host.digest a = host.digest b → a = b

end Yunpanel.Backup
