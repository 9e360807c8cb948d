/-
What depends on the resources of a backup.

The graph is made of what the registries hold for one server: its websites,
its domains, the bindings of its databases and the mail domains. Each list
comes in any order, is checked entry by entry and put in the order of the
identifiers (`readSorted`); then each resource gets the websites and domains
that reach it, and references to all that was looked at.
-/
import Yunpanel.Js.Fields
import Yunpanel.Js.Lines
import Yunpanel.Lib.Result

namespace Yunpanel.Backup.DependencyGraph

open Lib Lib.Result

-- ====== failures

/-- `BackupDependencyGraphError` -/
structure Failure where
  code : String
  message : String
  status : Nat
  deriving DecidableEq, Repr

def refuse (code message : String) : Failure := ⟨code, message, 409⟩

def stateInvalid (message : String) : Failure :=
  refuse "backup_dependency_state_invalid" message

-- ====== checks

def uuid (value label : String) : Except Failure Uuid :=
  Result.demand (stateInvalid (label ++ " is invalid")) (Uuid.ofText? value)

/-- `value === null || value === undefined ? null : uuid(value, label)` -/
def optionalUuid (value : Option String) (label : String) :
    Except Failure (Option Uuid) :=
  match value with
  | none => .ok none
  | some value => (uuid value label).map some

def revision (value : Int) (label : String) (zero : Bool := false) :
    Except Failure Nat :=
  let lowest : Int := if zero then 0 else 1
  if lowest ≤ value ∧ value ≤ 9007199254740991 then .ok value.toNat
  else .error (stateInvalid (label ++ " revision is invalid"))

/-- `MAX_ITEMS` -/
def maxItems : Nat := 8192

def boundedArray {α : Type} (values : List α) (label : String) :
    Except Failure (List α) :=
  if values.length ≤ maxItems then .ok values
  else .error (stateInvalid (label ++ " inventory is invalid"))

-- ====== resources

/-- The types of resources, with the fields the graph reads of each. -/
inductive Kind where
  | application (applicationId : String)
  | database (databaseName : String)
  | dockerStorage (projectId : String)
  | mailData (scope resourceId mailDomainId : String)
  deriving DecidableEq, Repr

def Kind.text : Kind → String
  | .application _ => "application"
  | .database _ => "database"
  | .dockerStorage _ => "docker_storage"
  | .mailData _ _ _ => "mail_data"

structure Resource where
  identity : String
  serverId : String
  kind : Kind
  deriving DecidableEq, Repr

/-- `RESOURCE_ID_PATTERN` -/
def isResourceId (s : String) : Bool :=
  let isEnd := fun c => Text.isDigit c || Text.isLower c || Text.isUpper c
  Text.inClass (fun c => isEnd c || ['_', '.', ':', '-'].contains c) 1 160 s
    && s.toList.head?.any isEnd

def resourceRecord (serverId : Uuid) (resource : Resource) :
    Except Failure Resource :=
  if isResourceId resource.identity && resource.serverId == serverId.text then
    .ok resource
  else
    .error (refuse "backup_dependency_resource_invalid"
      "Backup resource dependency identity is invalid")

-- ====== records

/-- A website as its registry lists it. -/
structure WebsiteRecord where
  serverId : String
  id : String
  revision : Int
  applicationId : Option String
  projectId : Option String
  deriving DecidableEq, Repr

structure Website where
  id : Uuid
  revision : Nat
  applicationId : Option Uuid
  dockerProjectId : Option Uuid
  deriving DecidableEq

def websiteReference (website : WebsiteRecord) : Except Failure Website := do
  let id ← uuid website.id "websiteId"
  let revision ← revision website.revision "Website"
  let applicationId ← optionalUuid website.applicationId "applicationId"
  let dockerProjectId ← optionalUuid website.projectId "dockerProjectId"
  return { id, revision, applicationId, dockerProjectId }

structure DomainRecord where
  serverId : String
  id : String
  websiteId : Option String
  desiredRevision : Int
  appliedRevision : Int
  deriving DecidableEq, Repr

structure Domain where
  id : Uuid
  websiteId : Option Uuid
  desiredRevision : Nat
  appliedRevision : Nat
  deriving DecidableEq

def domainReference (domain : DomainRecord) : Except Failure Domain := do
  let id ← uuid domain.id "domainId"
  let websiteId ← optionalUuid domain.websiteId "websiteId"
  let desiredRevision ← revision domain.desiredRevision "Domain desired"
  let appliedRevision ← revision domain.appliedRevision "Domain applied" true
  return { id, websiteId, desiredRevision, appliedRevision }

structure BindingRecord where
  serverId : String
  id : String
  revision : Int
  databaseName : String
  websiteId : String
  applicationId : String
  deriving DecidableEq, Repr

structure Binding where
  id : Uuid
  revision : Nat
  databaseName : String
  websiteId : Uuid
  applicationId : Uuid
  deriving DecidableEq

def databaseBindingReference (binding : BindingRecord) :
    Except Failure Binding := do
  Result.ensure (refuse "backup_dependency_database_binding_invalid"
      "Database binding dependency state is invalid")
    (1 ≤ Text.length binding.databaseName
      && Text.length binding.databaseName ≤ 64)
  let id ← uuid binding.id "databaseBindingId"
  let revision ← revision binding.revision "Database binding"
  let websiteId ← uuid binding.websiteId "websiteId"
  let applicationId ← uuid binding.applicationId "applicationId"
  return { id, revision, databaseName := binding.databaseName, websiteId,
           applicationId }

structure MailDomainRecord where
  managementMode : String
  webDomainId : Option String
  id : String
  revision : Int
  deriving DecidableEq, Repr

structure MailDomain where
  id : Uuid
  revision : Nat
  webDomainId : Uuid
  deriving DecidableEq

def mailDomainReference (mailDomain : MailDomainRecord) :
    Except Failure MailDomain := do
  let webDomainId ← Result.demand
    (refuse "backup_dependency_mail_domain_invalid"
      "Mail Domain dependency state is invalid") mailDomain.webDomainId
  let id ← uuid mailDomain.id "mailDomainId"
  let revision ← revision mailDomain.revision "Mail Domain"
  let webDomainId ← uuid webDomainId "domainId"
  return { id, revision, webDomainId }

-- ====== inventory

/-- The entries of a list that are of the server, each as it is referred to,
in the order of their identifiers. -/
def readSorted {α β : Type} (label : String) (isScoped : α → Bool)
    (reference : α → Except Failure β) (id : β → Uuid) (duplicated : Failure)
    (values : List α) : Except Failure (List β) := do
  let values ← boundedArray values label
  let read ← (values.filter isScoped).mapM reference
  let sorted := Text.collateOn (fun entry => (id entry).text) read
  Result.ensure duplicated (decide (sorted.map id).Nodup)
  return sorted

structure Input where
  serverId : String
  resources : List Resource
  websites : List WebsiteRecord
  domains : List DomainRecord
  databaseBindings : List BindingRecord
  mailDomains : List MailDomainRecord

/-- What was read of the input. -/
structure Inventory where
  serverId : Uuid
  resources : List Resource
  websites : List Website
  domains : List Domain
  bindings : List Binding
  mailDomains : List MailDomain

def readResources (serverId : Uuid) (resources : List Resource) :
    Except Failure (List Resource) := do
  let resources ← boundedArray resources "Backup resource"
  let read ← resources.mapM (resourceRecord serverId)
  Result.ensure (refuse "backup_dependency_resource_duplicate"
      "Backup dependency resources are duplicated")
    (decide (read.map Resource.identity).Nodup)
  return read

section inventory

variable (toLowerCase : String → String)

/-- `applicationIds.has(id)` -/
def hasApplication (resources : List Resource) (id : String) : Bool :=
  resources.any fun resource => resource.kind == .application id

/-- `databaseNames.has(name.toLowerCase())` -/
def hasDatabase (resources : List Resource) (name : String) : Bool :=
  resources.any fun resource =>
    match resource.kind with
    | .database other => toLowerCase other == toLowerCase name
    | _ => false

/-- `mailResourceIds.has(id)` -/
def hasMail (resources : List Resource) (id : String) : Bool :=
  resources.any fun resource =>
    match resource.kind with
    | .mailData "domain" _ mailDomainId => mailDomainId == id
    | _ => false

def readWebsites (serverId : Uuid) (resources : List Resource)
    (websites : List WebsiteRecord) : Except Failure (List Website) := do
  let websiteList ← readSorted "Website"
    (fun website : WebsiteRecord => website.serverId == serverId.text)
    websiteReference Website.id
    (refuse "backup_dependency_website_duplicate"
      "Website dependency identities are duplicated") websites
  Result.ensure (refuse "backup_dependency_application_missing"
      "Website Application backup dependency is unavailable")
    (websiteList.all fun website => website.applicationId.all fun id =>
      hasApplication resources id.text)
  return websiteList

def readDomains (serverId : Uuid) (websites : List Website)
    (domains : List DomainRecord) : Except Failure (List Domain) := do
  let domainList ← readSorted "Domain"
    (fun domain : DomainRecord => domain.serverId == serverId.text)
    domainReference Domain.id
    (refuse "backup_dependency_domain_duplicate"
      "Domain dependency identities are duplicated") domains
  Result.ensure (refuse "backup_dependency_website_missing"
      "Domain Website dependency is unavailable")
    (domainList.all fun domain => domain.websiteId.all fun id =>
      websites.any fun website => website.id == id)
  return domainList

def readBindings (serverId : Uuid) (resources : List Resource)
    (websites : List Website) (bindings : List BindingRecord) :
    Except Failure (List Binding) := do
  let bindingList ← readSorted "Database binding"
    (fun binding : BindingRecord => binding.serverId == serverId.text)
    databaseBindingReference Binding.id
    (refuse "backup_dependency_database_binding_duplicate"
      "Database binding identities are duplicated") bindings
  bindingList.forM fun binding => do
    Result.ensure (refuse "backup_dependency_database_binding_stale"
        "Database binding ownership is stale")
      (websites.any fun website => website.id == binding.websiteId
        && website.applicationId == some binding.applicationId)
    Result.ensure (refuse "backup_dependency_database_resource_missing"
        "Bound database backup resource is unavailable")
      (hasDatabase toLowerCase resources binding.databaseName)
  return bindingList

def readMailDomains (resources : List Resource) (domains : List Domain)
    (mailDomains : List MailDomainRecord) :
    Except Failure (List MailDomain) := do
  let mailDomainList ← readSorted "Mail Domain"
    (fun mailDomain : MailDomainRecord => mailDomain.managementMode == "local"
      && mailDomain.webDomainId.isSome)
    mailDomainReference MailDomain.id
    (refuse "backup_dependency_mail_domain_duplicate"
      "Mail Domain identities are duplicated") mailDomains
  mailDomainList.forM fun mailDomain => do
    Result.ensure (refuse "backup_dependency_mail_domain_stale"
        "Mail Domain web-domain dependency is unavailable")
      (domains.any fun domain => domain.id == mailDomain.webDomainId)
    Result.ensure (refuse "backup_dependency_mail_resource_missing"
        "Mail Domain backup resource is unavailable")
      (hasMail resources mailDomain.id.text)
  return mailDomainList

def readInventory (input : Input) : Except Failure Inventory := do
  let serverId ← uuid input.serverId "serverId"
  let resources ← readResources serverId input.resources
  let websites ← readWebsites serverId resources input.websites
  let domains ← readDomains serverId websites input.domains
  let bindings ← readBindings toLowerCase serverId resources websites
    input.databaseBindings
  let mailDomains ← readMailDomains resources domains input.mailDomains
  return { serverId, resources, websites, domains, bindings, mailDomains }

-- ====== impacts

inductive ReferenceType where
  | website | domain | databaseBinding | mailDomain
  deriving DecidableEq, Repr

def ReferenceType.text : ReferenceType → String
  | .website => "website"
  | .domain => "domain"
  | .databaseBinding => "database_binding"
  | .mailDomain => "mail_domain"

structure Reference where
  type : ReferenceType
  id : Uuid
  revision : Nat
  appliedRevision : Option Nat
  deriving DecidableEq

/-- `${type}:${id}` -/
def Reference.key (r : Reference) : String := r.type.text ++ ":" ++ r.id.text

def Website.reference (website : Website) : Reference :=
  ⟨.website, website.id, website.revision, none⟩

def Domain.reference (domain : Domain) : Reference :=
  ⟨.domain, domain.id, domain.desiredRevision, some domain.appliedRevision⟩

/-- `websiteIds`, `domainIds` and `references` of one resource. -/
structure Found where
  websiteIds : List Uuid
  domainIds : List Uuid
  references : List Reference

/-- `domainsByWebsite.get(website.id) ?? []` -/
def Inventory.domainsOf (inventory : Inventory) (website : Website) :
    List Domain :=
  inventory.domains.filter fun domain => domain.websiteId == some website.id

/-- What is found with some websites and all of their domains. -/
def Inventory.withDomains (inventory : Inventory) (websites : List Website) :
    Found where
  websiteIds := websites.map Website.id
  domainIds := websites.flatMap fun website =>
    (inventory.domainsOf website).map Domain.id
  references := websites.flatMap fun website =>
    website.reference :: (inventory.domainsOf website).map Domain.reference

def mailStale : Failure :=
  refuse "backup_dependency_mail_resource_stale"
    "Mail backup resource dependency is stale"

/-- The body of the loop over the resources. The look-ups of a website and
of a domain by the identifier of another entry find it: that was checked
before. -/
def Inventory.find (inventory : Inventory) (kind : Kind) :
    Except Failure Found :=
  match kind with
  | .application applicationId =>
      .ok (inventory.withDomains (inventory.websites.filter fun website =>
        website.applicationId.map Uuid.text == some applicationId))
  | .database databaseName =>
      match inventory.bindings.find? fun binding =>
          toLowerCase binding.databaseName == toLowerCase databaseName with
      | none => .ok ⟨[], [], []⟩
      | some binding =>
          let website := inventory.websites.find? fun website =>
            website.id == binding.websiteId
          let found := inventory.withDomains website.toList
          .ok { found with
            references := ⟨.databaseBinding, binding.id, binding.revision, none⟩
              :: found.references }
  | .dockerStorage projectId =>
      .ok (inventory.withDomains (inventory.websites.filter fun website =>
        website.dockerProjectId.map Uuid.text == some projectId))
  | .mailData scope resourceId mailDomainId => do
      let mailDomain ← Result.demand mailStale (inventory.mailDomains.find?
        fun candidate => candidate.id.text == mailDomainId)
      Result.ensure mailStale
        (scope == "domain" && resourceId == mailDomain.id.text)
      let domain := inventory.domains.find? fun domain =>
        domain.id == mailDomain.webDomainId
      let website := (domain.bind Domain.websiteId).bind fun id =>
        inventory.websites.find? fun website => website.id == id
      return {
        websiteIds := website.toList.map Website.id
        domainIds := domain.toList.map Domain.id
        references := ⟨.mailDomain, mailDomain.id, mailDomain.revision, none⟩
          :: (domain.toList.map Domain.reference
            ++ website.toList.map Website.reference) }

structure Impact where
  resourceIdentity : String
  resourceType : String
  websiteIds : List String
  domainIds : List String
  references : List Reference
  deriving DecidableEq

/-- `[...new Set(values)].sort()` -/
def uniqueSorted (values : List String) : List String :=
  Text.sort values.dedup

def sortedReferences (values : List Reference) :
    Except Failure (List Reference) :=
  let ordered := Text.collateOn Reference.key values
  if (ordered.map Reference.key).Nodup then .ok ordered
  else
    .error (refuse "backup_dependency_reference_duplicate"
      "Backup dependency references are duplicated")

def Inventory.impact (inventory : Inventory) (resource : Resource) :
    Except Failure Impact := do
  let found ← inventory.find toLowerCase resource.kind
  let references ← sortedReferences found.references
  return {
    resourceIdentity := resource.identity
    resourceType := resource.kind.text
    websiteIds := uniqueSorted (found.websiteIds.map Uuid.text)
    domainIds := uniqueSorted (found.domainIds.map Uuid.text)
    references }

structure Counts where
  resources : Nat
  associatedResources : Nat
  websites : Nat
  domains : Nat
  deriving DecidableEq

structure Graph where
  serverId : Uuid
  impacts : List Impact
  counts : Counts
  deriving DecidableEq

/-- `createBackupDependencyGraph(input)`; `toLowerCase` is the function of a
text. -/
def createBackupDependencyGraph (input : Input) : Except Failure Graph := do
  let inventory ← readInventory toLowerCase input
  let impacts ← (Text.collateOn Resource.identity inventory.resources).mapM
    (inventory.impact toLowerCase)
  return {
    serverId := inventory.serverId
    impacts
    counts := {
      resources := impacts.length
      associatedResources := impacts.countP fun impact =>
        !impact.websiteIds.isEmpty || !impact.domainIds.isEmpty
      websites := (impacts.flatMap Impact.websiteIds).dedup.length
      domains := (impacts.flatMap Impact.domainIds).dedup.length } }

end inventory

end Yunpanel.Backup.DependencyGraph
