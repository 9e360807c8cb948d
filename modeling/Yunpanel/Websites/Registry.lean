/-
The registry of websites: how one is updated.

An update is previewed first. The preview computes the website as it would
be, looks up what it would be bound to, and refuses a binding another
website has; its fingerprint covers the revision and the next website. The
update computes the preview again and is refused where the fingerprint or
the revision is another.
-/
import Yunpanel.Lib.Table
import Yunpanel.Websites.Website

namespace Yunpanel.Websites

open Json Lib Lib.Result
open Domains (Net)

variable {net : Net}

/-- `requireWebsite` -/
def requireWebsite (websites : List (Website net)) (websiteId : Json) :
    Except Failure (Nat × Website net) := do
  let id ← uuid websiteId "invalid_website_id" "websiteId"
  demand (refuse "website_not_found" "Website not found" 404)
    (locate (fun w => w.id == id) websites)

/-- `UPDATE_FIELDS` -/
def updateFields : List String :=
  ["name", "applicationId", "dockerWorkloadId", "managedComposeBinding",
    "runtimeType", "proxyTarget"]

def assertUpdateChanges (changes : Json) : Except Failure Json.Fields :=
  demand (refuse "invalid_website_update"
      ("Website changes must contain only name, applicationId, "
        ++ "dockerWorkloadId, managedComposeBinding, runtimeType or "
        ++ "proxyTarget"))
    (changes.object?.filter fun fields =>
      !fields.isEmpty && fields.all fun field => updateFields.contains field.1)

/-- A field that takes an id or `null`, and stays as it is where it is not
sent. -/
def requestedId (fields : Json.Fields) (key code : String)
    (current : Option Uuid) : Except Failure (Option Uuid) :=
  match fields.lookup key with
  | none => .ok current
  | some .null => .ok none
  | some value => some <$> uuid value code key

/-- The name a website has next. -/
def requestedName (fields : Json.Fields) (website : Website net) :
    Except Failure WebsiteName :=
  match fields.lookup "name" with
  | none => .ok website.name
  | some value => name value

/-- What an update asks a website to be bound to, before any of it is looked
up. -/
structure Requested where
  applicationId : Option Uuid
  dockerWorkloadId : Option Uuid
  managedComposeBinding : Option ComposeBinding
  runtimeType : RuntimeType

/-- `Object.hasOwn` of a field that concerns the binding. -/
def bindingRequested (fields : Json.Fields) : Bool :=
  ["applicationId", "dockerWorkloadId", "managedComposeBinding",
    "runtimeType"].any fun key => (fields.lookup key).isSome

def requestedBinding (fields : Json.Fields) :
    Option ComposeBinding → Except Failure (Option ComposeBinding) :=
  fun current =>
    match fields.lookup "managedComposeBinding" with
    | none => .ok current
    | some .null => .ok none
    | some value => some <$> normalizeManagedComposeWebsiteBinding value

def requestedRuntimeType (fields : Json.Fields) (website : Website net)
    (applicationId dockerWorkloadId : Option Uuid)
    (managedComposeBinding : Option ComposeBinding) :
    Except Failure RuntimeType :=
  match fields.lookup "runtimeType" with
  | some value => demand (refuse "invalid_website_runtime"
      ("Website runtimeType must be static, node, php, python, docker or "
        ++ "proxy")) (RuntimeType.read? value)
  | none =>
      if dockerWorkloadId.isSome || managedComposeBinding.isSome then
        .ok .docker
      else if applicationId.isNone then .ok .proxy
      else .ok website.runtime.runtimeType

def requested (fields : Json.Fields) (website : Website net) :
    Except Failure Requested := do
  let applicationId ← requestedId fields "applicationId"
    "invalid_application_id" website.runtime.applicationId
  let dockerWorkloadId ← requestedId fields "dockerWorkloadId"
    "invalid_docker_workload_id" website.runtime.dockerWorkloadId
  let managedComposeBinding ← requestedBinding fields
    website.runtime.managedComposeBinding
  let runtimeType ← requestedRuntimeType fields website applicationId
    dockerWorkloadId managedComposeBinding
  return ⟨applicationId, dockerWorkloadId, managedComposeBinding,
    runtimeType⟩

/-- Another website is bound to this already. -/
def conflict (websites : List (Website net)) (website : Website net)
    (taken : Runtime net → Bool) : Bool :=
  websites.any fun other => other.id != website.id && taken other.runtime

/-- The runtime of a website that is to be a proxy. -/
def switchToProxy (website : Website net) (r : Requested) :
    Except Failure (Runtime net) := do
  ensure (refuse "website_proxy_application_conflict"
      "Switching to proxy requires applicationId to be explicitly null")
    r.applicationId.isNone
  ensure (refuse "website_proxy_docker_conflict"
      "Switching to proxy requires dockerWorkloadId to be explicitly null")
    r.dockerWorkloadId.isNone
  ensure (refuse "website_proxy_managed_compose_conflict"
      ("Switching to proxy requires managedComposeBinding to be explicitly "
        ++ "null")) r.managedComposeBinding.isNone
  match website.runtime with
  | .proxy target => return .proxy target
  | _ => return .proxy none

def switchToDocker (config : Config) (websites : List (Website config.net))
    (website : Website config.net) (r : Requested) :
    Except Failure (Runtime config.net) := do
  ensure (refuse "website_docker_application_conflict"
      "Switching to Docker requires applicationId to be explicitly null")
    r.applicationId.isNone
  match r.dockerWorkloadId, r.managedComposeBinding with
  | some dockerWorkloadId, none => do
      let (id, target) ← dockerBinding config.net
        (config.getDockerWorkload dockerWorkloadId) website.serverId
      ensure (refuse "docker_workload_already_bound"
          "Docker workload is already bound to a Website" 409)
        (!conflict websites website fun other =>
          other.dockerWorkloadId == some id)
      return .workload id target
  | none, some binding => do
      resolveManagedComposeBinding config binding website.serverId
      ensure (refuse "managed_compose_binding_already_bound"
          ("Managed Compose service port is already bound to a Website")
          409)
        (!conflict websites website fun other =>
          other.managedComposeBinding.any fun bound =>
            bound.identity == binding.identity)
      return .compose binding
  | _, _ =>
      throw (refuse "website_docker_binding_required"
        ("Docker Website requires exactly one external workload or Managed "
          ++ "Compose binding"))

def switchToApplication (config : Config)
    (websites : List (Website config.net)) (website : Website config.net)
    (type : HostedType) (r : Requested) :
    Except Failure (Runtime config.net) := do
  ensure (refuse "website_application_docker_conflict"
      ("Switching to an Application requires dockerWorkloadId to be "
        ++ "explicitly null")) r.dockerWorkloadId.isNone
  ensure (refuse "website_application_managed_compose_conflict"
      ("Switching to an Application requires managedComposeBinding to be "
        ++ "explicitly null")) r.managedComposeBinding.isNone
  let applicationId ← demand (refuse "website_application_required"
      "Static, Node and PHP websites require an application binding")
    r.applicationId
  let (bound, id) ← applicationBinding (config.getApplication applicationId)
    website.serverId
  ensure (refuse "website_runtime_mismatch"
      "Website runtime does not match the bound application" 409)
    (bound == type)
  ensure (refuse "application_already_bound"
      "Application is already bound to a Website" 409)
    (!conflict websites website fun other => other.applicationId == some id)
  return .hosted bound id

/-- What the website will be bound to. -/
def nextRuntime (config : Config) (websites : List (Website config.net))
    (website : Website config.net) (fields : Json.Fields) :
    Except Failure (Runtime config.net) := do
  let r ← requested fields website
  if bindingRequested fields then
    match r.runtimeType with
    | .proxy => switchToProxy website r
    | .docker => switchToDocker config websites website r
    | .hosted type => switchToApplication config websites website type r
  else return website.runtime

/-- `changes.proxyTarget`, which only a proxy takes. -/
def nextTarget (fields : Json.Fields) (runtime : Runtime net) :
    Except Failure (Runtime net) :=
  match fields.lookup "proxyTarget" with
  | none => .ok runtime
  | some value =>
      match runtime with
      | .proxy _ => Runtime.proxy <$> proxyTarget net false value
      | _ =>
          .error (refuse "website_proxy_target_not_applicable"
            "Proxy target can be changed only for unbound proxy Websites")

/-- The website an update leads to, and what of it changes. -/
structure Plan (net : Net) where
  websiteId : Uuid
  currentRevision : Nat
  name : WebsiteName
  runtime : Runtime net
  nameChanged : Bool
  bindingChanged : Bool
  proxyTargetChanged : Bool

/-- `plan.nextWebsite` -/
def nextWebsiteJson (config : Config) (name : WebsiteName)
    (runtime : Runtime net) : Json :=
  .obj [("name", name.json),
    ("applicationId", Json.ofOption Uuid.json runtime.applicationId),
    ("dockerWorkloadId", Json.ofOption Uuid.json runtime.dockerWorkloadId),
    ("managedComposeBinding",
      Json.ofOption ComposeBinding.json runtime.managedComposeBinding),
    ("runtimeType", .str runtime.runtimeType.text),
    ("documentRoot", Json.ofOption Json.str runtime.documentRoot),
    ("unixUser", Json.ofOption Json.str (runtime.unixUser config)),
    ("proxyTarget", Json.ofOption ProxyTarget.json runtime.proxyTarget)]

/-- `websiteUpdateFingerprint` -/
def websiteUpdateFingerprint (config : Config) (plan : Plan net) : Sha256 :=
  config.sha256 (String.ofList (stringify (.obj [("version", .num 1),
    ("websiteId", plan.websiteId.json),
    ("currentRevision", .num plan.currentRevision),
    ("nextWebsite", nextWebsiteJson config plan.name plan.runtime)])))

def previewWebsiteUpdate (config : Config)
    (websites : List (Website config.net)) (websiteId changes : Json) :
    Except Failure (Plan config.net) := do
  let (_, website) ← requireWebsite websites websiteId
  let fields ← assertUpdateChanges changes
  let nextName ← requestedName fields website
  let bound ← nextRuntime config websites website fields
  let runtime ← nextTarget fields bound
  let nameChanged := nextName != website.name
  let bindingChanged :=
    runtime.applicationId != website.runtime.applicationId
      || runtime.dockerWorkloadId != website.runtime.dockerWorkloadId
      || runtime.managedComposeBinding
        != website.runtime.managedComposeBinding
      || runtime.runtimeType != website.runtime.runtimeType
      || runtime.documentRoot != website.runtime.documentRoot
      || runtime.unixUser config != website.runtime.unixUser config
  let proxyTargetChanged :=
    runtime.proxyTarget != website.runtime.proxyTarget
  ensure (refuse "website_update_no_changes"
      "Website update does not change current state" 409)
    (nameChanged || bindingChanged || proxyTargetChanged)
  return {
    websiteId := website.id
    currentRevision := website.revision
    name := nextName
    runtime
    nameChanged
    bindingChanged
    proxyTargetChanged }

structure UpdateInput where
  websiteId : Json
  expectedRevision : Json
  changes : Json
  previewFingerprint : Json

/-- `updateWebsite`: the websites afterwards. -/
def updateWebsite (config : Config) (now : Instant)
    (websites : List (Website config.net)) (input : UpdateInput) :
    Except Failure (List (Website config.net)) := do
  let expectedRevision ← demand (refuse "invalid_website_revision"
      "A positive Website revision is required")
    (((SafeNat.read? input.expectedRevision).map SafeNat.val).filter
      (1 ≤ ·))
  let fingerprint : Sha256 ← demand
    (refuse "invalid_website_update_fingerprint"
      "A current Website update fingerprint is required")
    (Matching.read? input.previewFingerprint)
  let plan ← previewWebsiteUpdate config websites input.websiteId
    input.changes
  ensure (refuse "website_revision_conflict"
      "Website changed after preview; request a new preview" 409)
    (plan.currentRevision == expectedRevision)
  ensure (refuse "website_update_preview_stale"
      "Website update preview is stale" 409)
    (websiteUpdateFingerprint config plan == fingerprint)
  let (i, current) ← requireWebsite websites plan.websiteId.json
  ensure (refuse "website_revision_conflict"
      "Website changed after preview; request a new preview" 409)
    (current.revision == expectedRevision)
  return websites.set i { current with
    name := plan.name
    runtime := plan.runtime
    revision := expectedRevision + 1
    updatedAt := now }

-- ====== migration

/-- `MIGRATION_NAMESPACE` -/
def migrationNamespace : List Nat :=
  [0x8a, 0xf0, 0xd7, 0xa4, 0x5c, 0x4e, 0x4e, 0x6b,
    0xb7, 0x1a, 0x10, 0xce, 0x8f, 0xba, 0x82, 0x61]

/-- The bytes of a digest as the text of a UUID of version 5. -/
def uuidOfDigest (digest : List Nat) : String :=
  let bytes := ((digest.take 16).modify 6 fun b => b % 16 + 0x50).modify 8
    fun b => b % 64 + 0x80
  let hex := bytes.flatMap fun b =>
    [Nat.digitChar (b / 16), Nat.digitChar (b % 16)]
  String.ofList (hex.take 8 ++ '-' :: (hex.drop 8).take 4
    ++ '-' :: (hex.drop 12).take 4 ++ '-' :: (hex.drop 16).take 4
    ++ '-' :: hex.drop 20)

/-- `migrationWebsiteId`, with `createHash('sha1')` of bytes. -/
def migrationWebsiteId (sha1 : List Nat → List Nat)
    (domainId : Json) : Except Failure String := do
  let domain ← uuid domainId "invalid_domain_id" "domainId"
  return uuidOfDigest
    (sha1 (migrationNamespace ++ domain.text.toList.map Char.toNat))

/-- What `deleteMigrationWebsite` is called with; a field that is not given
is `null`. -/
structure MigrationInput where
  domainId : Json := .null
  applicationId : Json
  websiteId : Json
  serverId : Json
  name : Json := .null

/-- The website is the one a migration makes of this application. -/
def isMigrationWebsite (config : Config) (website : Website config.net)
    (serverId : Uuid) (displayName : WebsiteName) (type : HostedType)
    (applicationId : Uuid) : Bool :=
  website.serverId == serverId && website.name == displayName
    && website.runtime == .hosted type applicationId
    && website.revision == 1

/-- `deleteMigrationWebsite`: the websites afterwards. -/
def deleteMigrationWebsite (config : Config) (sha1 : List Nat → List Nat)
    (websites : List (Website config.net)) (input : MigrationInput) :
    Except Failure (List (Website config.net)) := do
  let applicationId ← uuid input.applicationId "invalid_application_id"
    "applicationId"
  let expected ← migrationWebsiteId sha1 input.domainId
  let websiteId ← uuid input.websiteId "invalid_website_id" "websiteId"
  ensure (refuse "migration_website_delete_identity_mismatch"
      ("Website is not the deterministic migration resource for this "
        ++ "Domain and Application") 409)
    (websiteId.text == expected)
  match locate (fun w => w.id == websiteId) websites with
  | none => return websites
  | some (index, website) => do
      let serverId ← uuid input.serverId "invalid_server_id" "serverId"
      let displayName ← name input.name
      let (type, bound) ← applicationBinding
        (config.getApplication applicationId) serverId
      ensure (refuse "migration_website_delete_state_mismatch"
          "Migration Website state does not match rollback identity" 409)
        (isMigrationWebsite config website serverId displayName type bound)
      return websites.eraseIdx index

end Yunpanel.Websites
