/-
The plan of a website's removal.

A removal is planned from what depends on the website. The plan keeps the
ids it found, in one bucket for each kind of dependency, and the preview
says whether anything stands in the way: an inventory that could not be
taken, a job that is running, or a blocker the removal has no step for.

The plan takes the domains from the field `domains` of the dependencies.
-/
import Yunpanel.Js.Collation
import Yunpanel.Websites.Website

namespace Yunpanel.Websites

open Json Lib.Result
open Domains (Net)

/-- `SAFE_ID` -/
def isSafeId (s : String) : Bool := Text.inClass Text.isKeyChar 1 128 s

namespace RemovalPlan

/-- `new WebsiteRemovalPlanError(code, message, 409)` -/
def stale (code message : String) : Failure := ⟨code, message, 409⟩

def safeId (field value : String) : Except Failure String :=
  if isSafeId value then .ok value
  else .error (stale "website_removal_preview_invalid"
    (field ++ " must be a safe non-empty identifier"))

-- ====== impact

structure Blocker where
  code : String
  message : Option String
  resourceType : Option String
  count : Option Nat

/-- One kind of dependency: whether its inventory could be taken, and the
ids in it. -/
structure Inventory where
  available : Bool
  items : List String

structure BoundDomain where
  id : String
  primaryDomain : String
  parentDomainId : Option String

structure Dependencies where
  domains : Option (List BoundDomain)
  databases : Inventory
  sftpKeys : Inventory
  runtimeBindings : Inventory
  unixIdentities : Inventory
  logScopes : Inventory
  crons : Inventory
  backups : Inventory
  activeJobs : List String

/-- What `previewResourceImpact` returns of the deletion of a website. -/
structure Impact where
  resourceId : String
  serverId : String
  previewDigest : String
  confirmation : String
  blockers : List Blocker
  dependencies : Dependencies

-- ====== snapshots

structure Snapshot where
  id : String
  name : String
  serverId : String
  applicationId : Option String
  systemUser : Option String
  unixUser : Option String
  state : String
  suspended : Bool
  desiredRevision : Nat
  stagedRevision : Nat
  appliedRevision : Nat
  deriving DecidableEq

/-- `websiteSnapshot`, of a record of the registry: these have no state and
no revisions of the kind it asks for. -/
def websiteSnapshot (config : Config) (website : Website config.net) :
    Snapshot where
  id := website.id.text
  name := website.name.text
  serverId := website.serverId.text
  applicationId := website.runtime.applicationId.map Uuid.text
  systemUser := website.runtime.unixUser config
  unixUser := website.runtime.unixUser config
  state := "active"
  suspended := false
  desiredRevision := 1
  stagedRevision := 1
  appliedRevision := 1

def Snapshot.json (s : Snapshot) : Json :=
  .obj [("id", .str s.id), ("name", .str s.name),
    ("serverId", .str s.serverId),
    ("applicationId", Json.ofOption Json.str s.applicationId),
    ("systemUser", Json.ofOption Json.str s.systemUser),
    ("unixUser", Json.ofOption Json.str s.unixUser),
    ("state", .str s.state), ("suspended", .bool s.suspended),
    ("desiredRevision", .num s.desiredRevision),
    ("stagedRevision", .num s.stagedRevision),
    ("appliedRevision", .num s.appliedRevision)]

-- ====== plans

structure Bucket where
  available : Bool
  ids : List String
  deriving DecidableEq

/-- `plan.additional` -/
structure Additional where
  databases : Bucket
  sftpKeys : Bucket
  runtimeBindings : Bucket
  unixIdentities : Bucket
  logScopes : Bucket
  crons : Bucket
  backups : Bucket
  deriving DecidableEq

/-- `Object.entries(plan.additional)` -/
def Additional.entries (a : Additional) : List (String × Bucket) :=
  [("databases", a.databases), ("sftpKeys", a.sftpKeys),
    ("runtimeBindings", a.runtimeBindings),
    ("unixIdentities", a.unixIdentities), ("logScopes", a.logScopes),
    ("crons", a.crons), ("backups", a.backups)]

structure PlannedDomain where
  id : String
  primaryDomain : String
  parentDomainId : Option String
  deriving DecidableEq

structure Plan where
  domains : List PlannedDomain
  applicationId : Option String
  systemUser : Option String
  activeJobIds : List String
  additional : Additional
  deriving DecidableEq

/-- `plan.domainIds` -/
def Plan.domainIds (plan : Plan) : List String :=
  plan.domains.map PlannedDomain.id

def normalizedIds (items : List String) (field : String) :
    Except Failure (List String) := do
  let ids ← items.mapM (safeId (field ++ " identifier"))
  return Text.sort ids.dedup

def normalizedBucket (bucket : Inventory) (field : String) :
    Except Failure Bucket := do
  let ids ← normalizedIds bucket.items field
  return ⟨bucket.available, ids⟩

/-- `domains.sort((a, b) => a.id.localeCompare(b.id))` -/
def sortDomains (domains : List PlannedDomain) : List PlannedDomain :=
  domains.insertionSort fun a b => Text.localeCompare a.id b.id ≠ .gt

/-- Children before their parents. -/
def orderDomains (domains : List PlannedDomain) : List PlannedDomain :=
  sortDomains (domains.filter fun d => d.parentDomainId.isSome)
    ++ sortDomains (domains.filter fun d => d.parentDomainId.isNone)

def plannedDomain (d : BoundDomain) : Except Failure PlannedDomain := do
  let id ← safeId "domainId" d.id
  return ⟨id, if d.primaryDomain = "" then d.id else d.primaryDomain,
    d.parentDomainId⟩

def dependencyPlan (dependencies : Dependencies) (website : Snapshot) :
    Except Failure Plan := do
  let boundDomains := dependencies.domains.getD []
  let planned ← boundDomains.mapM plannedDomain
  let databases ← normalizedBucket dependencies.databases "database"
  let sftpKeys ← normalizedBucket dependencies.sftpKeys "sftpKey"
  let runtimeBindings ← normalizedBucket dependencies.runtimeBindings
    "runtimeBinding"
  let unixIdentities ← normalizedBucket dependencies.unixIdentities
    "unixIdentity"
  let logScopes ← normalizedBucket dependencies.logScopes "logScope"
  let crons ← normalizedBucket dependencies.crons "cron"
  let backups ← normalizedBucket dependencies.backups "backup"
  let activeJobs ← normalizedIds dependencies.activeJobs "job"
  return {
    domains := orderDomains planned
    applicationId := website.applicationId
    systemUser := website.systemUser
    activeJobIds := activeJobs
    additional := ⟨databases, sftpKeys, runtimeBindings, unixIdentities,
      logScopes, crons, backups⟩ }

/-- `ORCHESTRATABLE_WEBSITE_IMPACT_BLOCKERS` -/
def orchestratableBlockers : List String :=
  ["domains_present", "linked_domains_present", "child_domains_present",
    "website_binding_present", "application_binding_present",
    "database_binding_dependencies_present",
    "sftp_key_dependencies_present", "runtime_binding_dependencies_present",
    "unix_identity_dependencies_present", "log_scope_dependencies_present",
    "cron_dependencies_present", "backup_dependencies_present",
    "impact_apply_not_implemented"]

def isHardBlocker (code : String) : Bool :=
  code == "active_jobs_present" || code == "dependency_inventory_unavailable"
    || !orchestratableBlockers.contains code

def hardBlockers (blockers : List Blocker) (plan : Plan) : List String :=
  let found := (blockers.map Blocker.code).filter isHardBlocker
  let jobs :=
    if !plan.activeJobIds.isEmpty && !found.contains "active_jobs_present"
    then ["active_jobs_present"] else []
  let unavailable :=
    (plan.additional.entries.filter fun entry => !entry.2.available).map
      fun entry => entry.1 ++ "_inventory_unavailable"
  Text.sort (found ++ jobs ++ unavailable).dedup

-- ====== preview

/-- What of a preview its digest covers. -/
structure Core where
  website : Snapshot
  impactPreviewDigest : String
  impactConfirmation : String
  blockers : List String
  plan : Plan
  hardBlockers : List String

def Core.readyToStart (core : Core) : Bool := core.hardBlockers.isEmpty

def texts (values : List String) : Json := .arr (values.map Json.str)

def Bucket.json (bucket : Bucket) : Json :=
  .obj [("status", .str (if bucket.available then "available"
      else "unavailable")), ("ids", texts bucket.ids)]

def PlannedDomain.json (d : PlannedDomain) : Json :=
  .obj [("id", .str d.id), ("primaryDomain", .str d.primaryDomain),
    ("parentDomainId", Json.ofOption Json.str d.parentDomainId)]

def Plan.json (plan : Plan) : Json :=
  .obj [("domainIds", texts plan.domainIds),
    ("domains", .arr (plan.domains.map PlannedDomain.json)),
    ("applicationId", Json.ofOption Json.str plan.applicationId),
    ("systemUser", Json.ofOption Json.str plan.systemUser),
    ("activeJobIds", texts plan.activeJobIds),
    ("additional", .obj (plan.additional.entries.map fun entry =>
      (entry.1, entry.2.json)))]

def Core.json (core : Core) : Json :=
  .obj [("version", .num 1), ("operation", .str "website_remove"),
    ("website", core.website.json),
    ("impact", .obj [("previewDigest", .str core.impactPreviewDigest),
      ("confirmation", .str core.impactConfirmation),
      ("blockers", texts core.blockers)]),
    ("plan", core.plan.json), ("hardBlockers", texts core.hardBlockers),
    ("readyToStart", .bool core.readyToStart)]

structure Preview extends Core where
  previewDigest : Sha256

/-- `preview.confirmation` -/
def Preview.confirmation (p : Preview) : Option String :=
  if p.readyToStart then
    some s!"start-website-remove:{p.website.id}:{p.website.desiredRevision}:{p.previewDigest.text}"
  else none

def createWebsiteRemovalPreview (config : Config)
    (website : Website config.net) (impact : Impact) :
    Except Failure Preview := do
  let current := websiteSnapshot config website
  ensure (stale "website_removal_impact_stale"
      ("Website resource-impact evidence does not match current Website "
        ++ "state"))
    (impact.resourceId == current.id && impact.serverId == current.serverId)
  ensure (stale "website_removal_preview_invalid"
      "impactPreviewDigest must be a valid 64-character sha256 digest")
    (Text.isSha256 impact.previewDigest)
  ensure (stale "website_removal_impact_invalid"
      "Website resource-impact confirmation is invalid")
    (impact.confirmation
      == s!"delete:website:{current.id}:{impact.previewDigest}")
  ensure (stale "website_removal_impact_invalid"
      "Website resource-impact blocker is invalid")
    (impact.blockers.all fun blocker => blocker.code != "")
  let plan ← dependencyPlan impact.dependencies current
  let core : Core := {
    website := current
    impactPreviewDigest := impact.previewDigest
    impactConfirmation := impact.confirmation
    blockers := Text.sort (impact.blockers.map Blocker.code)
    plan
    hardBlockers := hardBlockers impact.blockers plan }
  return { core with
    previewDigest := config.sha256 (String.ofList (stringify core.json)) }

end RemovalPlan

end Yunpanel.Websites
