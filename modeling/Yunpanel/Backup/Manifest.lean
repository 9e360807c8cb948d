/-
The resources a backup can contain, and the manifest that lists the
applications and the container storages of a server.

# What a resource is

An application, a database, a storage of a container or the mail of a
domain, in the state it was found in. The four are read by three files of
the source; each returns a resource only where its fields, its identity and
its policy are what the kind requires, so identity and policy are functions
of a resource here and not fields of it.

# How it is modelled

A reader returns the resource or the error it throws. The caller of all of
them (`createBackupPlan`) replaces their errors with its own.
-/
import Yunpanel.Backup.ExecutionState

namespace Yunpanel.Backup

open Json

-- ====== failures

/-- `BackupManifestError`, `DatabaseBackupResourceError` and
`MailDataBackupResourceError` -/
structure ResourceError where
  code : String
  message : String
  deriving DecidableEq, Repr

/-- A test that throws where it fails. -/
def demand {α : Type} (code message : String) :
    Option α → Except ResourceError α
  | some a => .ok a
  | none => .error ⟨code, message⟩

/-- `if (!condition) throw …` -/
def ensure (code message : String) (condition : Bool) :
    Except ResourceError Unit :=
  if condition then .ok () else .error ⟨code, message⟩

-- ====== policies

structure Policy where
  disposition : String
  reason : String
  deriving DecidableEq, Repr

def Policy.json (p : Policy) : Json :=
  .obj [("disposition", .str p.disposition), ("reason", .str p.reason)]

/-- `normalizePolicy`: the policy of the kind, where it is the one
given. -/
def normalizePolicy (value : Json) (expected : Policy) :
    Except ResourceError Policy := do
  let fields ← demand "backup_manifest_policy_invalid"
    "Backup policy is invalid"
    (exactObject ["disposition", "reason"] value)
  let disposition ← demand "backup_manifest_policy_invalid"
    "Backup policy is invalid" (fields.read "disposition" str?)
  let reason ← demand "backup_manifest_policy_invalid"
    "Backup policy is invalid" (fields.read "reason" str?)
  ensure "backup_manifest_policy_invalid" "Backup policy is invalid"
    (isOneOf ["include", "exclude", "reject"] disposition
      && isSized 80 reason)
  ensure "backup_manifest_policy_invalid"
    "Backup policy does not match resource safety rules"
    (disposition == expected.disposition && reason == expected.reason)
  .ok expected

-- ====== storage

/-- `SAFE_ID_PATTERN` -/
def isSafeId (s : String) : Bool :=
  Text.headed Text.isAlnum Text.isKeyChar 127 s

abbrev SafeId := Matching isSafeId

/-- `RESOURCE_NAME_PATTERN` -/
def isResourceName (s : String) : Bool :=
  Text.headed Text.isAlnum
    (fun c => Text.isAlnum c || c == '_' || c == '.' || c == '-') 127 s

/-- `safeStoragePath` -/
def safeStoragePath (absolute : Bool) (s : String) : Bool :=
  isSized 4096 s && !s.toList.any Text.isControl
    && (!absolute || s.toList.head? == some '/')

/-- `validProjectBindSource` -/
def validProjectBindSource (s : String) : Bool :=
  s == "./"
    || (s.toList.take 2 == ['.', '/'] && safeStoragePath false s
      && ((s.toList.drop 2).splitOn '/').all fun segment =>
        !segment.isEmpty && segment != ['.'] && segment != ['.', '.'])

/-- What the source of a mount has to be, by its kind. -/
def sourceOk (kind : String) (fields : Fields) : Bool :=
  if kind == "ephemeral" then
    fields.get "source" == .null && fields.get "sourceScope" == .null
  else
    match fields.read "source" str?, fields.read "sourceScope" str? with
    | some source, some sourceScope =>
        if kind == "named_volume" then
          sourceScope == "project" && isResourceName source
        else
          (sourceScope == "project" && validProjectBindSource source)
            || (sourceScope == "host" && safeStoragePath true source)
    | _, _ => false

/-- What the fields of a mount have to be. -/
def mountOk (fields : Fields) : Bool :=
  match fields.read "kind" str? with
  | some kind =>
      isOneOf ["bind", "ephemeral", "named_volume"] kind
        && (fields.read "target" str?).any (safeStoragePath true)
        && (fields.read "readOnly" bool?).isSome
        && sourceOk kind fields
  | none => false

/-- A mount is kept as it was given, with its fields in their order. -/
structure StorageMount where
  fields : Fields
  keyed : exactObject storageKeys (.obj fields) = some fields
  ok : mountOk fields = true
  deriving DecidableEq

namespace StorageMount

variable (mount : StorageMount)

def json : Json := .obj mount.fields

def kind : String := (mount.fields.read "kind" str?).getD ""

def sourceScope : Option String := mount.fields.read "sourceScope" str?

end StorageMount

/-- `normalizeStorageMount` -/
def normalizeStorageMount (value : Json) :
    Except ResourceError StorageMount :=
  match value with
  | .obj fields =>
      if hkeyed : exactObject storageKeys (.obj fields) = some fields then
        if hok : mountOk fields = true then .ok ⟨fields, hkeyed, hok⟩
        else
          .error ⟨"backup_manifest_storage_invalid",
            "Docker storage mount is invalid"⟩
      else
        .error ⟨"backup_manifest_storage_invalid",
          "Docker storage mount is invalid"⟩
  | _ =>
      .error ⟨"backup_manifest_storage_invalid",
        "Docker storage mount is invalid"⟩

/-- `dockerStorageBackupPolicy` -/
def dockerStorageBackupPolicy (mount : StorageMount) : Policy :=
  if mount.kind == "ephemeral" then ⟨"exclude", "ephemeral_storage"⟩
  else if mount.kind == "bind" && mount.sourceScope == some "host" then
    ⟨"reject", "arbitrary_host_bind"⟩
  else if mount.kind == "named_volume" then
    ⟨"include", "managed_named_volume"⟩
  else ⟨"include", "managed_project_bind"⟩

-- ====== resources

structure DockerResource where
  serverId : SafeId
  projectId : SafeId
  projectRevision : Nat
  projectName : String
  serviceName : ServiceName
  storage : StorageMount
  deriving DecidableEq

structure ApplicationResource where
  serverId : SafeId
  applicationId : Uuid
  name : String
  applicationType : Matching (isOneOf ["static", "node"])
  desiredRevision : SafeNat
  appliedRevision : SafeNat
  currentReleaseId : Option Uuid
  currentCommitSha : Option Commit
  environment : Environment
  desired : 1 ≤ desiredRevision.val
  bounded : appliedRevision.val ≤ desiredRevision.val
  released : releaseStateOk applicationType.text appliedRevision
    currentReleaseId currentCommitSha = true
  deriving DecidableEq

structure DatabaseResource where
  serverId : Uuid
  databaseName : DatabaseName
  engine : Matching (isOneOf ["mariadb", "mysql"])
  databaseVersion : Matching (isSized 120)
  sizeBytes : SafeNat
  inventoryJobId : Uuid
  inventoryRefreshedAt : Instant
  deriving DecidableEq

/-- The snapshot of a mail resource is kept as it was given too. -/
structure MailResource where
  serverId : Uuid
  mailDomainId : Uuid
  scope : Matching (isOneOf ["domain", "mailbox"])
  resourceId : Uuid
  sourceIdentity : Matching isMailIdentity
  snapshot : Fields
  revision : SafeNat
  snapshotSha256 : Sha256
  sourcePresent : Bool
  bytes : SafeNat
  revised : 1 ≤ revision.val
  deriving DecidableEq

inductive Resource where
  | dockerStorage (resource : DockerResource)
  | application (resource : ApplicationResource)
  | database (resource : DatabaseResource)
  | mailData (resource : MailResource)
  deriving DecidableEq

-- ====== identities

/-- `dockerStorageIdentity` -/
def dockerStorageIdentity (host : Host) (projectId : SafeId)
    (serviceName : ServiceName) (mount : StorageMount) : String :=
  "docker-storage:" ++ host.digest (.arr [.num 1, .str "docker_storage",
    projectId.json, serviceName.json, mount.fields.get "kind",
    mount.fields.get "sourceScope", mount.fields.get "source",
    mount.fields.get "target"])

/-- `applicationIdentity` -/
def applicationIdentity (applicationId : Uuid) : String :=
  "application:" ++ applicationId.text

/-- `databaseBackupIdentity` -/
def databaseBackupIdentity (host : Host) (serverId : Uuid)
    (databaseName : DatabaseName) : String :=
  "database:" ++ host.digest (.arr [.str "database", serverId.json,
    .str (String.ofList (Text.lower databaseName.text.toList))])

/-- `mailDataBackupIdentity` -/
def mailDataBackupIdentity (host : Host) (mailDomainId : Uuid)
    (scope : String) (resourceId : Uuid) : String :=
  "mail-data:" ++ host.digest (.arr [.str "mail_data", mailDomainId.json,
    .str scope, resourceId.json])

namespace Resource

variable (host : Host)

def identity : Resource → String
  | dockerStorage r =>
      dockerStorageIdentity host r.projectId r.serviceName r.storage
  | application r => applicationIdentity r.applicationId
  | database r => databaseBackupIdentity host r.serverId r.databaseName
  | mailData r =>
      mailDataBackupIdentity host r.mailDomainId r.scope.text r.resourceId

/-- `type` -/
def type : Resource → String
  | dockerStorage _ => "docker_storage"
  | application _ => "application"
  | database _ => "database"
  | mailData _ => "mail_data"

def serverId : Resource → String
  | dockerStorage r => r.serverId.text
  | application r => r.serverId.text
  | database r => r.serverId.text
  | mailData r => r.serverId.text

def policy : Resource → Policy
  | dockerStorage r => dockerStorageBackupPolicy r.storage
  | application _ => ⟨"include", "managed_application"⟩
  | database _ => ⟨"include", "managed_database"⟩
  | mailData r =>
      if r.sourcePresent then ⟨"include", "managed_mail_data"⟩
      else ⟨"exclude", "mail_data_absent"⟩

def json (resource : Resource) : Json :=
  .obj ([("identity", .str (resource.identity host)),
      ("type", .str resource.type), ("serverId", .str resource.serverId)]
    ++ (match resource with
      | dockerStorage r =>
          [("projectId", r.projectId.json),
            ("projectRevision", .num r.projectRevision),
            ("projectName", .str r.projectName),
            ("serviceName", r.serviceName.json),
            ("storage", r.storage.json)]
      | application r =>
          [("applicationId", r.applicationId.json), ("name", .str r.name),
            ("applicationType", r.applicationType.json),
            ("snapshot", .obj [
              ("desiredRevision", r.desiredRevision.json),
              ("appliedRevision", r.appliedRevision.json),
              ("currentReleaseId", ofOption Uuid.json r.currentReleaseId),
              ("currentCommitSha",
                ofOption Matching.json r.currentCommitSha),
              ("environment", r.environment.json)])]
      | database r =>
          [("databaseName", r.databaseName.json),
            ("snapshot", .obj [("engine", r.engine.json),
              ("databaseVersion", r.databaseVersion.json),
              ("sizeBytes", r.sizeBytes.json),
              ("inventoryJobId", r.inventoryJobId.json),
              ("inventoryRefreshedAt",
                host.timestamp r.inventoryRefreshedAt)])]
      | mailData r =>
          [("mailDomainId", r.mailDomainId.json), ("scope", r.scope.json),
            ("resourceId", r.resourceId.json),
            ("sourceIdentity", r.sourceIdentity.json),
            ("snapshot", .obj r.snapshot)])
    ++ [("policy", resource.policy.json)])

end Resource

-- ====== reading

/-- `normalizeDockerStorageResource` -/
def normalizeDockerStorageResource (host : Host) (expectedServerId : SafeId)
    (value : Json) : Except ResourceError DockerResource := do
  let fields ← demand "backup_manifest_resource_invalid"
    "Backup resource is invalid"
    (exactObject ["identity", "type", "serverId", "projectId",
      "projectRevision", "projectName", "serviceName", "storage", "policy"]
      value)
  ensure "backup_manifest_resource_invalid" "Backup resource is invalid"
    (fields.get "type" == .str "docker_storage")
  let serverId ← demand "backup_manifest_identity_invalid"
    "serverId is invalid" (fields.read "serverId" Matching.read?)
  let projectId ← demand "backup_manifest_identity_invalid"
    "projectId is invalid" (fields.read "projectId" Matching.read?)
  ensure "backup_manifest_server_mismatch"
    "Backup resource belongs to a different server"
    (serverId == expectedServerId)
  let revision ← demand "backup_manifest_resource_invalid"
    "Docker project revision is invalid"
    (match fields.get "projectRevision" with
      | .num n => if 1 ≤ n then some n.toNat else none
      | _ => none)
  let service ← demand "backup_manifest_resource_invalid"
    "Docker service name is invalid"
    (fields.read "serviceName" Matching.read?)
  let mount ← normalizeStorageMount (fields.get "storage")
  ensure "backup_manifest_identity_invalid"
    "Backup resource identity does not match its Docker storage identity"
    (fields.get "identity"
      == .str (dockerStorageIdentity host projectId service mount))
  let name ← demand "backup_manifest_project_invalid"
    "Docker project name is invalid"
    ((fields.read "projectName" str?).filter fun s =>
      isSized 128 s && !s.toList.any Text.isControl)
  let _ ← normalizePolicy (fields.get "policy")
    (dockerStorageBackupPolicy mount)
  .ok ⟨serverId, projectId, revision, name, service, mount⟩

/-- `normalizeEnvironmentSnapshot`: nothing was saved where there is no
environment. -/
def normalizeEnvironmentSnapshot (value : Json) :
    Except ResourceError Environment := do
  let source := if value = .null then
      .obj [("savedRevision", .num 0), ("appliedRevision", .null),
        ("appliedReleaseId", .null)]
    else value
  let fields ← demand "backup_manifest_application_invalid"
    "Application environment revision state is invalid"
    (exactObject ["savedRevision", "appliedRevision", "appliedReleaseId"]
      source)
  let saved ← demand "backup_manifest_application_invalid"
    "Application environment revision state is invalid"
    (fields.read "savedRevision" SafeNat.read?)
  let applied ← demand "backup_manifest_application_invalid"
    "Application environment revision state is invalid"
    (fields.read "appliedRevision" (nullable? SafeNat.read?))
  if hbound : revisionsOk saved applied = true then
    let release ← demand "backup_manifest_identity_invalid"
      "environment appliedReleaseId is invalid"
      (fields.read "appliedReleaseId" (nullable? Uuid.read?))
    if hcomplete : applied.isNone = release.isNone then
      .ok ⟨saved, applied, release, hbound, hcomplete⟩
    else
      .error ⟨"backup_manifest_application_invalid",
        "Application environment applied state is incomplete"⟩
  else
    .error ⟨"backup_manifest_application_invalid",
      "Application environment revision state is invalid"⟩

/-- `normalizeApplicationResource`, with `normalizeApplicationSnapshot`:
what is required between release, commit and revisions is tested over the
two of them. -/
def normalizeApplicationResource (expectedServerId : SafeId)
    (value : Json) : Except ResourceError ApplicationResource := do
  let fields ← demand "backup_manifest_resource_invalid"
    "Backup resource is invalid"
    (exactObject ["identity", "type", "serverId", "applicationId", "name",
      "applicationType", "snapshot", "policy"] value)
  ensure "backup_manifest_resource_invalid" "Backup resource is invalid"
    (fields.get "type" == .str "application")
  let serverId ← demand "backup_manifest_identity_invalid"
    "serverId is invalid" (fields.read "serverId" Matching.read?)
  let applicationId ← demand "backup_manifest_identity_invalid"
    "applicationId is invalid" (fields.read "applicationId" Uuid.read?)
  ensure "backup_manifest_server_mismatch"
    "Backup resource belongs to a different server"
    (serverId == expectedServerId)
  let type ← demand "backup_manifest_application_invalid"
    "Application type is invalid"
    (fields.read "applicationType" Matching.read?)
  ensure "backup_manifest_identity_invalid"
    "Backup resource identity does not match its Application identity"
    (fields.get "identity" == .str (applicationIdentity applicationId))
  let snapshot ← demand "backup_manifest_application_invalid"
    "Application revision state is invalid"
    (exactObject ["desiredRevision", "appliedRevision", "currentReleaseId",
      "currentCommitSha", "environment"] (fields.get "snapshot"))
  let desired ← demand "backup_manifest_application_invalid"
    "Application revision state is invalid"
    (snapshot.read "desiredRevision" SafeNat.read?)
  let applied ← demand "backup_manifest_application_invalid"
    "Application revision state is invalid"
    (snapshot.read "appliedRevision" SafeNat.read?)
  if hbound : 1 ≤ desired.val ∧ applied.val ≤ desired.val then
    let release ← demand "backup_manifest_identity_invalid"
      "currentReleaseId is invalid"
      (snapshot.read "currentReleaseId" (nullable? Uuid.read?))
    let commit ← demand "backup_manifest_application_invalid"
      "Application commit state is invalid"
      (snapshot.read "currentCommitSha" (nullable? Commit.read?))
    ensure "backup_manifest_application_invalid"
      "Application active release state is invalid"
      (release.isNone == commit.isNone
        && !(release.isNone && applied.val != 0))
    let environment ← normalizeEnvironmentSnapshot
      (snapshot.get "environment")
    if hreleased : releaseStateOk type.text applied release commit = true then
      let name ← demand "backup_manifest_application_invalid"
        "Application name is invalid"
        ((fields.read "name" str?).filter fun s =>
          isSized 80 s && Text.trim s.toList == s.toList
            && !s.toList.any Text.isControl)
      let _ ← normalizePolicy (fields.get "policy")
        ⟨"include", "managed_application"⟩
      .ok ⟨serverId, applicationId, name, type, desired, applied, release,
        commit, environment, hbound.1.trans le_rfl, hbound.2.trans le_rfl,
        hreleased⟩
    else
      .error ⟨"backup_manifest_application_invalid",
        "Node Application active release requires an applied "
          ++ "configuration revision"⟩
  else
    .error ⟨"backup_manifest_application_invalid",
      "Application revision state is invalid"⟩

/-- `normalizeBackupResource` -/
def normalizeBackupResource (host : Host) (expectedServerId : SafeId)
    (value : Json) : Except ResourceError Resource :=
  let fields : Fields := (value.object?).getD []
  if fields.get "type" = .str "docker_storage" then
    (normalizeDockerStorageResource host expectedServerId value).map
      .dockerStorage
  else if fields.get "type" = .str "application" then
    (normalizeApplicationResource expectedServerId value).map .application
  else
    .error ⟨"backup_manifest_resource_invalid",
      "Backup resource type is invalid"⟩

/-- `isInfrastructureDatabase`: a system schema, or
`/^roundcube(?:mail)?(?:_|$)/i` -/
def isInfrastructureDatabase (name : String) : Bool :=
  let lowered := Text.lower name.toList
  let ends (rest : List Char) : Bool :=
    rest.isEmpty || rest.head? == some '_'
  isOneOf ["information_schema", "mysql", "performance_schema", "sys"]
      (String.ofList lowered)
    || (lowered.take 9 == "roundcube".toList
      && (ends (lowered.drop 9)
        || (lowered.drop 9).take 4 == "mail".toList
          && ends (lowered.drop 13)))

/-- `normalizeDatabaseBackupResource` -/
def normalizeDatabaseBackupResource (host : Host)
    (expectedServerId : SafeId) (value : Json) :
    Except ResourceError DatabaseResource := do
  let fields ← demand "database_backup_resource_invalid"
    "Database backup resource is invalid"
    (exactObject ["identity", "type", "serverId", "databaseName", "snapshot",
      "policy"] value)
  ensure "database_backup_resource_invalid"
    "Database backup resource is invalid"
    (fields.get "type" == .str "database")
  let serverId ← demand "database_backup_resource_server_invalid"
    "Database server identity is invalid"
    (fields.read "serverId" Uuid.read?)
  let expected ← demand "database_backup_resource_server_invalid"
    "Database server identity is invalid"
    (Uuid.ofText? expectedServerId.text)
  ensure "database_backup_resource_server_mismatch"
    "Database backup resource belongs to another server"
    (serverId == expected)
  let name ← demand "database_backup_resource_name_invalid"
    "Database schema name is invalid"
    (fields.read "databaseName" Matching.read?)
  ensure "database_backup_resource_name_invalid"
    "Database schema name is invalid" (!isInfrastructureDatabase name.text)
  ensure "database_backup_resource_identity_invalid"
    "Database backup resource identity does not match its schema"
    (fields.get "identity"
      == .str (databaseBackupIdentity host serverId name))
  let snapshot ← demand "database_backup_resource_snapshot_invalid"
    "Database backup resource snapshot is invalid"
    (exactObject ["engine", "databaseVersion", "sizeBytes",
      "inventoryJobId", "inventoryRefreshedAt"] (fields.get "snapshot"))
  let engine ← demand "database_backup_resource_snapshot_invalid"
    "Database backup resource snapshot is invalid"
    (snapshot.read "engine" Matching.read?)
  let version ← demand "database_backup_resource_snapshot_invalid"
    "Database backup resource snapshot is invalid"
    (snapshot.read "databaseVersion" Matching.read?)
  ensure "database_backup_resource_snapshot_invalid"
    "Database backup resource snapshot is invalid"
    (!version.text.toList.any Text.isControl)
  let size ← demand "database_backup_resource_snapshot_invalid"
    "Database backup resource snapshot is invalid"
    (snapshot.read "sizeBytes" SafeNat.read?)
  let policy ← demand "database_backup_resource_policy_invalid"
    "Database backup resource policy is invalid"
    (exactObject ["disposition", "reason"] (fields.get "policy"))
  ensure "database_backup_resource_policy_invalid"
    "Database backup resource policy is invalid"
    (policy.get "disposition" == .str "include"
      && policy.get "reason" == .str "managed_database")
  let job ← demand "database_backup_resource_snapshot_invalid"
    "Database inventory job identity is invalid"
    (snapshot.read "inventoryJobId" Uuid.read?)
  let refreshed ← demand "database_backup_resource_snapshot_invalid"
    "Database inventory timestamp is invalid"
    (snapshot.read "inventoryRefreshedAt" host.timestamp?)
  .ok ⟨serverId, name, engine, version, size, job, refreshed⟩

/-- `normalizeMailDataBackupResource` -/
def normalizeMailDataBackupResource (host : Host)
    (expectedServerId : SafeId) (value : Json) :
    Except ResourceError MailResource := do
  let fields ← demand "mail_data_backup_resource_invalid"
    "Mail data backup resource is invalid"
    (exactObject ["identity", "type", "serverId", "mailDomainId", "scope",
      "resourceId", "sourceIdentity", "snapshot", "policy"] value)
  ensure "mail_data_backup_resource_invalid"
    "Mail data backup resource is invalid"
    (fields.get "type" == .str "mail_data")
  let scope ← demand "mail_data_backup_resource_invalid"
    "Mail data backup resource is invalid"
    (fields.read "scope" Matching.read?)
  let serverId ← demand "mail_data_backup_resource_identity_invalid"
    "serverId is invalid" (fields.read "serverId" Uuid.read?)
  let expected ← demand "mail_data_backup_resource_identity_invalid"
    "serverId is invalid" (Uuid.ofText? expectedServerId.text)
  ensure "mail_data_backup_resource_server_mismatch"
    "Mail data backup resource belongs to another server"
    (serverId == expected)
  let mailDomainId ← demand "mail_data_backup_resource_identity_invalid"
    "mailDomainId is invalid" (fields.read "mailDomainId" Uuid.read?)
  let resourceId ← demand "mail_data_backup_resource_identity_invalid"
    "resourceId is invalid" (fields.read "resourceId" Uuid.read?)
  let identity ← demand "mail_data_backup_resource_identity_invalid"
    "Mail data identity is invalid"
    (fields.read "sourceIdentity" Matching.read?)
  ensure "mail_data_backup_resource_identity_invalid"
    "Mail data backup resource identity does not match its scope"
    (fields.get "identity"
      == .str (mailDataBackupIdentity host mailDomainId scope.text
        resourceId))
  let snapshot ← demand "mail_data_backup_resource_snapshot_invalid"
    "Mail data backup resource snapshot is invalid"
    (exactObject ["revision", "snapshotSha256", "sourcePresent", "bytes"]
      (fields.get "snapshot"))
  let revision ← demand "mail_data_backup_resource_snapshot_invalid"
    "Mail data backup resource snapshot is invalid"
    (snapshot.read "revision" SafeNat.read?)
  let sha256 ← demand "mail_data_backup_resource_snapshot_invalid"
    "Mail data backup resource snapshot is invalid"
    (snapshot.read "snapshotSha256" Matching.read?)
  let present ← demand "mail_data_backup_resource_snapshot_invalid"
    "Mail data backup resource snapshot is invalid"
    (snapshot.read "sourcePresent" bool?)
  let bytes ← demand "mail_data_backup_resource_snapshot_invalid"
    "Mail data backup resource snapshot is invalid"
    (snapshot.read "bytes" SafeNat.read?)
  if hrevised : 1 ≤ revision.val then
    let resource : MailResource :=
      ⟨serverId, mailDomainId, scope, resourceId, identity, snapshot,
        revision, sha256, present, bytes, hrevised⟩
    let policy ← demand "mail_data_backup_resource_policy_invalid"
      "Mail data backup resource policy is invalid"
      (exactObject ["disposition", "reason"] (fields.get "policy"))
    let expectedPolicy := (Resource.mailData resource).policy
    ensure "mail_data_backup_resource_policy_invalid"
      "Mail data backup resource policy is invalid"
      (policy.get "disposition" == .str expectedPolicy.disposition
        && policy.get "reason" == .str expectedPolicy.reason)
    .ok resource
  else
    .error ⟨"mail_data_backup_resource_snapshot_invalid",
      "Mail data backup resource snapshot is invalid"⟩

-- ====== manifest

/-- How many of some resources each policy takes. -/
structure ResourceCounts where
  total : Nat
  included : Nat
  excluded : Nat
  rejected : Nat
  deriving DecidableEq, Repr

/-- `resourceCounts` -/
def resourceCounts (resources : List Resource) : ResourceCounts where
  total := resources.length
  included := resources.countP fun r => r.policy.disposition == "include"
  excluded := resources.countP fun r => r.policy.disposition == "exclude"
  rejected := resources.countP fun r =>
    r.policy.disposition != "include" && r.policy.disposition != "exclude"

structure Manifest where
  createdAt : Instant
  serverId : SafeId
  resources : List Resource

/-- `resources.sort((left, right) =>
left.identity.localeCompare(right.identity))` -/
def sortResources (host : Host) (resources : List Resource) :
    List Resource :=
  resources.insertionSort fun a b =>
    Text.localeCompare (a.identity host) (b.identity host) ≠ .gt

/-- `validateCounts` -/
def validateCounts (value : Json) (expected : ResourceCounts) : Bool :=
  match exactObject ["total", "included", "excluded", "rejected"] value with
  | none => false
  | some fields =>
      fields.get "total" == .num expected.total
        && fields.get "included" == .num expected.included
        && fields.get "excluded" == .num expected.excluded
        && fields.get "rejected" == .num expected.rejected

/-- `normalizeBackupManifest` -/
def normalizeBackupManifest (host : Host) (value : Json) :
    Except ResourceError Manifest := do
  let fields ← demand "backup_manifest_invalid" "Backup manifest is invalid"
    (exactObject ["version", "createdAt", "serverId", "resources", "counts"]
      value)
  let items ← demand "backup_manifest_invalid" "Backup manifest is invalid"
    (fields.read "resources" arr?)
  ensure "backup_manifest_invalid" "Backup manifest is invalid"
    (fields.get "version" == .num 1 && items.length ≤ 4096)
  let serverId ← demand "backup_manifest_identity_invalid"
    "serverId is invalid" (fields.read "serverId" Matching.read?)
  let found ← items.mapM (normalizeBackupResource host serverId)
  let resources := sortResources host found
  ensure "backup_manifest_duplicate_resource"
    "Backup manifest contains duplicate resources"
    (decide ((resources.map (Resource.identity host)).Nodup))
  ensure "backup_manifest_counts_invalid" "Backup manifest counts are invalid"
    (validateCounts (fields.get "counts") (resourceCounts resources))
  let createdAt ← demand "backup_manifest_timestamp_invalid"
    "Backup manifest timestamp is invalid"
    (fields.read "createdAt" host.timestamp?)
  .ok ⟨createdAt, serverId, resources⟩

end Yunpanel.Backup
