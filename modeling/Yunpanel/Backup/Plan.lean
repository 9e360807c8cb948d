/-
The preview of a backup: what a server holds, which of it is selected, and
the digest that a later call has to repeat.

`createBackupPlan` reads the manifest, the resources of the databases and
of the mail, the graph of what depends on them, and a selection. Without a
selection everything is selected that the policy of its resource includes.
-/
import Yunpanel.Backup.Manifest

namespace Yunpanel.Backup

open Json

-- ====== failures

/-- `BackupPlanError` -/
structure PlanError where
  code : String
  message : String
  status : Nat
  deriving DecidableEq, Repr

def planError {α : Type} (code message : String) (status : Nat := 400) :
    Except PlanError α :=
  .error ⟨code, message, status⟩

/-- `if (!condition) throw …` -/
def require (error : PlanError) (condition : Bool) :
    Except PlanError Unit :=
  if condition then .ok () else .error error

-- ====== dependencies

def dependenciesInvalid (message : String) : PlanError :=
  ⟨"backup_plan_dependencies_invalid", message, 409⟩

/-- A text of one to 160 units. -/
def entry? (value : Json) : Option String :=
  value.str?.filter (isSized 160)

/-- A reference of an impact; the applied revision may be missing. -/
structure DependencyReference where
  type : String
  id : String
  revision : SafeNat
  appliedRevision : Option SafeNat
  deriving DecidableEq

def DependencyReference.key (r : DependencyReference) : String :=
  r.type ++ ":" ++ r.id

def DependencyReference.json (r : DependencyReference) : Json :=
  .obj ([("type", .str r.type), ("id", .str r.id),
      ("revision", r.revision.json)]
    ++ (match r.appliedRevision with
      | none => []
      | some applied => [("appliedRevision", applied.json)]))

/-- `normalizeDependencyReference` -/
def normalizeDependencyReference (value : Json) :
    Except PlanError DependencyReference :=
  let fields : Fields := (value.object?).getD []
  let keyed := fields.all fun field =>
    ["type", "id", "revision", "appliedRevision"].contains field.1
  let applied : Option (Option SafeNat) :=
    match fields.lookup "appliedRevision" with
    | none => some none
    | some value => (SafeNat.read? value).map some
  match (fields.read "type" str?).filter (isOneOf ["website", "domain",
      "database_binding", "mail_domain"]),
    fields.read "id" entry?, fields.read "revision" SafeNat.read?,
    applied with
  | some type, some id, some revision, some applied =>
      if keyed ∧ 3 ≤ fields.length ∧ fields.length ≤ 4 then
        .ok ⟨type, id, revision, applied⟩
      else
        .error (dependenciesInvalid "Backup dependency reference is invalid")
  | _, _, _, _ =>
      .error (dependenciesInvalid "Backup dependency reference is invalid")

/-- What depends on one resource. -/
structure Impact where
  resourceIdentity : String
  resourceType : String
  websiteIds : List String
  domainIds : List String
  references : List DependencyReference
  deriving DecidableEq

def Impact.json (i : Impact) : Json :=
  .obj [("resourceIdentity", .str i.resourceIdentity),
    ("resourceType", .str i.resourceType),
    ("websiteIds", .arr (i.websiteIds.map .str)),
    ("domainIds", .arr (i.domainIds.map .str)),
    ("references", .arr (i.references.map DependencyReference.json))]

/-- The entries of a list of texts. -/
def entries? (value : Json) : Option (List String) :=
  value.arr?.bind fun items => items.mapM entry?

/-- One impact of the graph, against the resource it names. -/
def normalizeImpact (host : Host) (resources : List Resource)
    (value : Json) : Except PlanError Impact := do
  let invalid := dependenciesInvalid "Backup dependency impact is invalid"
  match exactObject ["resourceIdentity", "resourceType", "websiteIds",
      "domainIds", "references"] value with
  | none => .error invalid
  | some fields =>
      match fields.read "resourceIdentity" str?,
        (fields.read "resourceType" str?).filter (isOneOf ["application",
          "database", "docker_storage", "mail_data"]),
        fields.read "websiteIds" entries?, fields.read "domainIds" entries?,
        fields.read "references" arr? with
      | some identity, some type, some websites, some domains,
          some items => do
          require (dependenciesInvalid
              "Backup dependency impact does not match its resource")
            ((resources.find? fun r => r.identity host == identity).any
                (fun r => r.type == type)
              && decide websites.Nodup && decide domains.Nodup)
          let found ← items.mapM normalizeDependencyReference
          let references := found.insertionSort fun a b =>
            Text.localeCompare a.key b.key ≠ .gt
          require (dependenciesInvalid
              "Backup dependency impact contains duplicate references")
            (decide (references.map DependencyReference.key).Nodup)
          .ok ⟨identity, type, Text.sort websites, Text.sort domains,
            references⟩
      | _, _, _, _, _ => .error invalid

/-- `expectedCounts` -/
def impactCounts (impacts : List Impact) : List (String × Nat) :=
  [("resources", impacts.length),
    ("associatedResources", impacts.countP fun i =>
      !i.websiteIds.isEmpty || !i.domainIds.isEmpty),
    ("websites", (impacts.flatMap Impact.websiteIds).dedup.length),
    ("domains", (impacts.flatMap Impact.domainIds).dedup.length)]

/-- `normalizeDependencyGraph`: the graph as it is sealed, `null` where
none was given. -/
def normalizeDependencyGraph (host : Host) (resources : List Resource)
    (serverId : SafeId) (value : Json) : Except PlanError Json :=
  if value = .null then .ok .null
  else do
    let invalid := dependenciesInvalid "Backup dependency graph is invalid"
    match exactObject ["version", "serverId", "impacts", "counts"] value with
    | none => .error invalid
    | some fields =>
        match fields.read "impacts" arr?,
          fields.read "counts" object? with
        | some items, some counts => do
            require invalid (fields.get "version" == .num 1
              && fields.get "serverId" == serverId.json
              && items.length == resources.length)
            let found ← items.mapM (normalizeImpact host resources)
            let impacts := found.insertionSort fun a b =>
              Text.localeCompare a.resourceIdentity b.resourceIdentity ≠ .gt
            require (dependenciesInvalid
                "Backup dependency graph does not cover every resource")
              ((impacts.map Impact.resourceIdentity).dedup.length
                == resources.length)
            require (dependenciesInvalid
                "Backup dependency counts are invalid")
              (counts.length == 4 && (impactCounts impacts).all fun count =>
                counts.get count.1 == .num count.2)
            .ok (.obj [("version", .num 1), ("serverId", serverId.json),
              ("impacts", .arr (impacts.map Impact.json)),
              ("counts", .obj ((impactCounts impacts).map fun count =>
                (count.1, .num count.2)))])
        | _, _ => .error invalid

-- ====== selection

/-- `normalizeSelection` -/
def normalizeSelection (value : Json) :
    Except PlanError (Option (List String)) :=
  if value = .null then .ok none
  else
    match value with
    | .arr items =>
        match (if items.length ≤ 8192 then items.mapM entry? else none) with
        | none =>
            planError "backup_plan_selection_invalid"
              "Backup resource selection is invalid"
        | some selected =>
            if selected.Nodup then .ok (some (Text.sort selected))
            else
              planError "backup_plan_selection_invalid"
                "Backup resource selection contains duplicates"
    | _ =>
        planError "backup_plan_selection_invalid"
          "Backup resource selection is invalid"

-- ====== plan

/-- A preview. Its `version`, `sideEffects` and the version of its
manifest are constants, its counts and decisions are functions of its
fields. -/
structure BackupPlan where
  serverId : String
  selectionMode : String
  selectedResourceIdentities : List String
  resources : List Resource
  dependencyGraph : Json
  previewDigest : String
  confirmation : String

/-- `normalizeAdditionalResources` -/
def normalizeAdditionalResources {α : Type} (label : String)
    (normalizer : Json → Except ResourceError α) (value : Json) :
    Except PlanError (List α) :=
  match value with
  | .arr items =>
      if items.length ≤ 8192 then
        match items.mapM normalizer with
        | .ok resources => .ok resources
        | .error _ =>
            planError "backup_plan_resources_invalid"
              (label ++ " backup resources are invalid") 409
      else
        planError "backup_plan_resources_invalid"
          (label ++ " backup resources are invalid")
  | _ =>
      planError "backup_plan_resources_invalid"
        (label ++ " backup resources are invalid")

/-- Every selected identity is of a resource its policy includes. -/
def checkSelected (host : Host) (resources : List Resource) :
    List String → Except PlanError Unit
  | [] => .ok ()
  | identity :: rest =>
      match resources.find? fun r => r.identity host == identity with
      | none =>
          planError "backup_plan_resource_not_found"
            "Selected backup resource no longer exists" 409
      | some r =>
          if r.policy.disposition = "include" then
            checkSelected host resources rest
          else
            planError "backup_plan_resource_not_selectable"
              "Selected backup resource is excluded by safety policy" 409

/-- The mode of a selection, and what is selected. -/
def selectResources (host : Host) (resources : List Resource) :
    Option (List String) → Except PlanError (String × List String)
  | none =>
      .ok ("all_managed",
        (resources.filter fun r => r.policy.disposition == "include").map
          (Resource.identity host))
  | some requested => do
      checkSelected host resources requested
      .ok ("explicit", requested)

/-- What the digest of a preview covers. -/
def previewIdentity (host : Host) (serverId selectionMode : String)
    (selected : List String) (resources : List Resource)
    (dependencies : Json) : Json :=
  .obj [("version", .num 1), ("manifestVersion", .num 1),
    ("serverId", .str serverId), ("selectionMode", .str selectionMode),
    ("selectedResourceIdentities", .arr (selected.map .str)),
    ("resources", .arr (resources.map (Resource.json host))),
    ("dependencyGraph", dependencies)]

/-- `createBackupPlan` -/
def createBackupPlan (host : Host) (baseManifest databaseResources
    mailDataResources dependencyGraph selectedResourceIdentities : Json) :
    Except PlanError BackupPlan := do
  let manifest ← (normalizeBackupManifest host baseManifest).mapError
    fun _ => (⟨"backup_plan_manifest_invalid",
      "Base backup manifest is invalid", 409⟩ : PlanError)
  let databases ← normalizeAdditionalResources "Database"
    (normalizeDatabaseBackupResource host manifest.serverId)
    databaseResources
  let mail ← normalizeAdditionalResources "Mail data"
    (normalizeMailDataBackupResource host manifest.serverId)
    mailDataResources
  let resources := sortResources host (manifest.resources
    ++ databases.map .database ++ mail.map .mailData)
  require ⟨"backup_plan_too_large",
    "Backup plan contains too many resources", 400⟩
    (resources.length ≤ 8192)
  require ⟨"backup_plan_resource_duplicate",
    "Backup plan contains duplicate resource identities", 409⟩
    (decide ((resources.map (Resource.identity host)).Nodup))
  let dependencies ← normalizeDependencyGraph host resources
    manifest.serverId dependencyGraph
  let requested ← normalizeSelection selectedResourceIdentities
  let (selectionMode, selected) ← selectResources host resources requested
  require ⟨"backup_plan_empty",
    "Backup plan does not contain a selectable resource", 409⟩
    (!selected.isEmpty)
  let sorted := Text.sort selected
  let previewDigest := host.digest (previewIdentity host
    manifest.serverId.text selectionMode sorted resources dependencies)
  .ok {
    serverId := manifest.serverId.text
    selectionMode := selectionMode
    selectedResourceIdentities := sorted
    resources := resources
    dependencyGraph := dependencies
    previewDigest := previewDigest
    confirmation := "backup:" ++ manifest.serverId.text ++ ":"
      ++ previewDigest }

end Yunpanel.Backup
