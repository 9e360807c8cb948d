/-
The domain registry: the changes that look at more than one record, and the
machine all changes make.

# How a call is split

As in the job registry, a call runs from its last wait to its write without
another call in between. One call looks a record up before such a wait and
changes it after: `bindWebsite`, whose record may have been removed in the
meantime (`bindRemoved`).

# Where the store is read

`init` is the loader: it takes the file's records or refuses to start. A
refused start changes nothing.
-/
import Yunpanel.Domains.Changes
import Yunpanel.Lib.Machine

namespace Yunpanel.Domains

open Lib

-- ====== parents

/-- `normalizeReparentId` -/
def normalizeReparentId (code field value : String) :
    Except Failure String :=
  if isOperationId value then .ok value
  else .error (refuse code (field ++ " is invalid"))

/-- `normalizeReparentId` with `nullable: true` -/
def normalizeNullableId (code field : String) :
    Option String → Except Failure (Option String)
  | none => .ok none
  | some value => (normalizeReparentId code field value).map some

def reparentDigest (platform : Platform) (domainId : String)
    (currentParentDomainId nextParentDomainId : Option String)
    (hierarchy : Json) : String :=
  platform.sha256 (.obj [("version", .num 1), ("domainId", .str domainId),
    ("currentParentDomainId", Target.textJson currentParentDomainId),
    ("nextParentDomainId", Target.textJson nextParentDomainId),
    ("hierarchy", hierarchy)])

/-- `buildReparentPreview`, with the position of the domain. -/
def buildReparentPreview (platform : Platform) (domains : List Domain)
    (domainId : String) (parentDomainId : Option String) :
    Except Failure (Nat × Domain × ReparentPreview) := do
  let domainId ← normalizeReparentId "invalid_domain_id" "domainId" domainId
  let parentDomainId ← normalizeNullableId "invalid_parent_domain_id"
    "parentDomainId" parentDomainId
  let (i, domain) ← requireDomain domains domainId
  if domain.parentDomainId = parentDomainId then
    throw (refuse "domain_reparent_no_changes"
      "Domain already has the selected parent" 409)
  validateDomainParent domains { domain.place with parentDomainId }
  let descendants := descendantsOf platform domains domain.id
  let previewDigest := reparentDigest platform domain.id
    domain.parentDomainId parentDomainId (hierarchySnapshot platform domains)
  return (i, domain,
    { domainId := domain.id
      currentParentDomainId := domain.parentDomainId
      nextParentDomainId := parentDomainId
      previewDigest
      confirmation := "reparent:" ++ domain.id ++ ":"
        ++ parentDomainId.getD "root" ++ ":" ++ previewDigest
      impact :=
        { websiteId := domain.websiteId
          certificateId := domain.certificateId
          descendantCount := descendants.length
          descendants } })

def Domain.reparented (parentDomainId : Option String) (now : Instant)
    (domain : Domain) : Domain :=
  { domain with parentDomainId, updatedAt := now }

def reparentDomain (platform : Platform) (domainId : String)
    (parentDomainId : Option String) (previewDigest : String)
    (now : Instant) (domains : List Domain) : DomainEffect :=
  if !isSha256 previewDigest then
    .refused (refuse "invalid_domain_reparent_digest"
      "A current Domain reparent preview digest is required")
  else
    match buildReparentPreview platform domains domainId parentDomainId with
    | .error e => .refused e
    | .ok (i, domain, preview) =>
        if preview.previewDigest ≠ previewDigest then
          .refused (refuse "domain_reparent_preview_stale"
            ("Domain hierarchy changed after preview; request a new "
              ++ "preview") 409)
        else
          let next := domain.reparented preview.nextParentDomainId now
          .written (domains.set i next) fun domains =>
            .ok (.reparented (publicDomain (current next domains)) preview)

-- ====== updates

/-- `UPDATE_FIELDS` -/
def updateFields : List String :=
  ["primaryDomain", "aliases", "httpsMode", "httpsRedirect",
    "canonicalRedirect", "nginxSettings"]

/-- A string, or what no check accepts. -/
def textOf : Json → String
  | .str s => s
  | _ => ""

/-- `normalizeDomains` of whatever a caller sent as names. -/
def requestedNames (net : Net) (primaryDomain aliases : Json) :
    Except Failure DomainSet := do
  let _ ← assertDomainName net (textOf primaryDomain)
  match aliases with
  | .arr names =>
      normalizeDomains net (textOf primaryDomain) (names.map textOf)
  | _ =>
      throw (refuse "invalid_aliases" "Domain aliases must be an array")

def httpsModeOf : Json → Option HttpsMode
  | .str s => HttpsMode.ofText? s
  | _ => none

/-- `httpsRedirect` of an update: with the mode where only the mode
changes. -/
def requestedRedirect (domain : Domain) (changes : Json)
    (httpsMode : HttpsMode) : Json :=
  if (keysOf changes).contains "httpsMode" && httpsMode != domain.httpsMode
      && !(keysOf changes).contains "httpsRedirect" then
    .bool (httpsMode == .managed)
  else orElse (field "httpsRedirect" changes) (.bool domain.httpsRedirect)

def invalidRedirectPolicy : Failure :=
  refuse "invalid_redirect_policy"
    "Redirect policy is invalid for the selected HTTPS mode"

def invalidHttpsMode : Failure :=
  refuse "invalid_https_mode" "httpsMode must be off or managed"

def normalizedUpdate (net : Net) (domain : Domain) (changes : Json) :
    Except Failure Routing := do
  if !changes.isObject || (keysOf changes).isEmpty
      || (keysOf changes).any (fun key => !updateFields.contains key) then
    throw (refuse "invalid_domain_update"
      ("Domain changes must contain only canonical hostname, HTTPS, "
        ++ "redirect or Nginx settings"))
  let names ← requestedNames net
    (orElse (field "primaryDomain" changes) (.str domain.primaryDomain))
    (orElse (field "aliases" changes) (.arr (domain.aliases.map .str)))
  match httpsModeOf
      (orElse (field "httpsMode" changes) (.str domain.httpsMode.text)) with
  | none => throw invalidHttpsMode
  | some httpsMode =>
      match requestedRedirect domain changes httpsMode,
          orElse (field "canonicalRedirect" changes)
            (.bool domain.canonicalRedirect) with
      | .bool httpsRedirect, .bool canonicalRedirect =>
          if httpsMode = .off ∧ httpsRedirect = true then
            throw invalidRedirectPolicy
          let nginxSettings ←
            match field "nginxSettings" changes with
            | some settings =>
                normalizeNginxSettings domain.targetType settings
                  (some domain.nginxSettings.toJson)
            | none =>
                normalizeNginxSettings domain.targetType
                  domain.nginxSettings.toJson none
          return { primaryDomain := names.primary
                   aliases := names.aliases
                   httpsMode
                   httpsRedirect
                   canonicalRedirect
                   nginxSettings }
      | _, _ => throw invalidRedirectPolicy

def Routing.toJson (next : Routing) : Json :=
  .obj [("primaryDomain", .str next.primaryDomain),
    ("aliases", .arr (next.aliases.map .str)),
    ("httpsMode", .str next.httpsMode.text),
    ("httpsRedirect", .bool next.httpsRedirect),
    ("canonicalRedirect", .bool next.canonicalRedirect),
    ("nginxSettings", next.nginxSettings.toJson)]

def updateDigest (platform : Platform) (domain : Domain) (next : Routing)
    (hierarchy : Json) : String :=
  platform.sha256 (.obj [("version", .num 1), ("domainId", .str domain.id),
    ("currentRevision", .num domain.desiredRevision),
    ("currentCertificateId", Target.textJson domain.certificateId),
    ("appliedPrimaryDomain", Target.textJson domain.appliedPrimaryDomain),
    ("next", next.toJson), ("hierarchy", hierarchy)])

/-- One field of the settings, for comparing. -/
inductive SettingValue where
  | int (n : Option Int)
  | flag (b : Bool)
  | headers (hs : List Header)
  deriving DecidableEq

def NginxSettings.values : NginxSettings → List (String × SettingValue)
  | forwarded size timeout websocket hs =>
      [("clientMaxBodySizeMb", .int size),
        ("proxyTimeoutSeconds", .int timeout),
        ("websocket", .flag websocket), ("headers", .headers hs)]
  | served size spaFallback cache hs =>
      [("clientMaxBodySizeMb", .int size),
        ("spaFallback", .flag spaFallback),
        ("staticAssetCacheSeconds", .int cache), ("headers", .headers hs)]
  | plain size hs =>
      [("clientMaxBodySizeMb", .int size), ("headers", .headers hs)]

def changedFields (next current : NginxSettings) : List String :=
  (next.values.filter fun (name, value) =>
    current.values.lookup name ≠ some value).map Prod.fst

/-- The domain with new names, where the hierarchy is concerned. -/
def Domain.renamed (next : Routing) (domain : Domain) : Domain :=
  { domain with primaryDomain := next.primaryDomain, aliases := next.aliases }

def domainConflict : Failure :=
  refuse "domain_conflict" "A domain or alias is already managed" 409

/-- Another domain owns one of the names. -/
def conflicts (domains : List Domain) (id : String) (names : List String) :
    Bool :=
  domains.any fun candidate => candidate.id != id
    && (ownedNames candidate).any names.contains

/-- The checks of an update that changes the names. -/
def checkRename (domains : List Domain) (domain : Domain) (next : Routing) :
    Except Failure Unit := do
  if conflicts domains domain.id (next.primaryDomain :: next.aliases) then
    throw domainConflict
  validateDomainHierarchy (domains.map fun candidate =>
    if candidate.id = domain.id then candidate.renamed next else candidate)

def Routing.hostnameChanged (next : Routing) (domain : Domain) : Bool :=
  next.primaryDomain != domain.primaryDomain
    || next.aliases != domain.aliases

def Routing.policyChanged (next : Routing) (domain : Domain) : Bool :=
  next.httpsMode != domain.httpsMode
    || next.httpsRedirect != domain.httpsRedirect
    || next.canonicalRedirect != domain.canonicalRedirect

def Routing.certificateDetached (next : Routing) (domain : Domain) : Bool :=
  domain.certificateId.isSome
    && (next.hostnameChanged domain || next.httpsMode == .off)

def updateImpact (platform : Platform) (domains : List Domain)
    (domain : Domain) (next : Routing) : UpdateImpact :=
  let certificateDetached := next.certificateDetached domain
  { hostnameChanged := next.hostnameChanged domain
    policyChanged := next.policyChanged domain
    settingsChanged := next.nginxSettings != domain.nginxSettings
    currentSettings := domain.nginxSettings
    nextSettings := next.nginxSettings
    changedFields := changedFields next.nginxSettings domain.nginxSettings
    activeConfigRename := domain.appliedPrimaryDomain.any
      (· ≠ next.primaryDomain)
    certificateId := domain.certificateId
    certificateDetached
    certificateReason :=
      if certificateDetached then
        some (if next.httpsMode = .off then "https_disabled"
          else "hostname_set_changed")
      else none
    descendants := descendantsOf platform domains domain.id }

/-- `buildDomainUpdatePreview`, with the position of the domain. -/
def buildDomainUpdatePreview (platform : Platform) (domains : List Domain)
    (domainId : String) (changes : Json) :
    Except Failure (Nat × Domain × UpdatePreview) := do
  let domainId ← normalizeReparentId "invalid_domain_id" "domainId" domainId
  let (i, domain) ← requireDomain domains domainId
  if domain.state = .suspended then
    throw (refuse "domain_suspended_update_blocked"
      "Resume the Domain before changing routing settings" 409)
  let next ← normalizedUpdate platform.toNet domain changes
  if !next.hostnameChanged domain && !next.policyChanged domain
      && next.nginxSettings == domain.nginxSettings then
    throw (refuse "domain_update_no_changes"
      "Domain already has the requested routing settings" 409)
  if next.hostnameChanged domain then checkRename domains domain next
  let previewDigest := updateDigest platform domain next
    (hierarchySnapshot platform domains)
  return (i, domain,
    { domainId := domain.id
      currentRevision := domain.desiredRevision
      nextRevision := domain.desiredRevision + 1
      next
      previewDigest
      confirmation := "update-domain:" ++ domain.id ++ ":" ++ previewDigest
      impact := updateImpact platform domains domain next })

/-- The routing of an update, its certificate included. -/
def Domain.rerouted (next : Routing) (domain : Domain) : Domain :=
  { domain with
    primaryDomain := next.primaryDomain
    aliases := next.aliases
    httpsMode := next.httpsMode
    httpsRedirect := next.httpsRedirect
    canonicalRedirect := next.canonicalRedirect
    nginxSettings := next.nginxSettings
    target := targetWithSettings domain.target next.nginxSettings
    certificateId :=
      if next.certificateDetached domain then none
      else domain.certificateId }

def updateDomain (platform : Platform) (domainId : String)
    (changes : Json) (previewDigest : String) (now : Instant)
    (domains : List Domain) : DomainEffect :=
  if !isSha256 previewDigest then
    .refused (refuse "invalid_domain_update_digest"
      "A current Domain update preview digest is required")
  else
    match buildDomainUpdatePreview platform domains domainId changes with
    | .error e => .refused e
    | .ok (i, domain, preview) =>
        if preview.previewDigest ≠ previewDigest then
          .refused (refuse "domain_update_preview_stale"
            ("Domain routing state changed after preview; request a new "
              ++ "preview") 409)
        else
          let next :=
            (domain.rerouted preview.next).redrafted preview.nextRevision now
          .written (domains.set i next) fun domains =>
            .ok (.updated (publicDomain (current next domains)) preview)

-- ====== creation

/-- The id a new domain gets. -/
def newDomainId (env : Env) : Option String → Except Failure String
  | none => .ok env.randomUUID.text
  | some id =>
      match assertUuid id with
      | some id => .ok id
      | none =>
          .error (refuse "invalid_domain_id" "domainId must be a valid UUID")

/-- Applications are reached through the website that owns them. -/
def requireApplicationBinding (targetType : TargetType)
    (websiteId : Option String) : Except Failure Unit :=
  match targetType, websiteId with
  | .passenger, none =>
      .error (refuse "passenger_website_binding_required"
        ("Passenger Domain targets require an explicit Website binding")
        409)
  | .php, none =>
      .error (refuse "php_website_binding_required"
        "PHP Domain targets require an explicit Website binding" 409)
  | .python, none =>
      .error (refuse "python_website_binding_required"
        "Python Domain targets require an explicit Website binding" 409)
  | _, _ => .ok ()

/-- The redirect policy of a request. -/
def requestedPolicy (req : NewDomain) :
    Except Failure (HttpsMode × Bool) := do
  match HttpsMode.ofText? req.httpsMode with
  | none => throw invalidHttpsMode
  | some httpsMode =>
      let httpsRedirect := req.httpsRedirect.getD (httpsMode == .managed)
      if httpsMode = .off ∧ httpsRedirect = true then
        throw invalidRedirectPolicy
      return (httpsMode, httpsRedirect)

/-- The identity of a new domain: its id, its website and its names. -/
def newIdentity (net : Net) (env : Env) (domains : List Domain)
    (req : NewDomain) :
    Except Failure (String × Option String × DomainSet) := do
  let id ← newDomainId env req.domainId
  let websiteId ← requireWebsiteBinding env req.websiteId req.serverId
  if websiteId = none ∧ env.websiteBindingRequired = true then
    throw (refuse "website_binding_required"
      "New managed domains require an explicit Website binding" 409)
  let names ← normalizeDomains net req.primaryDomain req.aliases
  validateDomainParent domains
    { id
      serverId := req.serverId
      primaryDomain := names.primary
      parentDomainId := req.parentDomainId }
  if conflicts domains id (names.primary :: names.aliases) then
    throw domainConflict
  return (id, websiteId, names)

/-- What answers a new domain's requests, and how. -/
def newTarget (net : Net) (req : NewDomain) (websiteId : Option String) :
    Except Failure (TargetType × Target × NginxSettings) := do
  match TargetType.ofText? req.targetType with
  | none =>
      throw (refuse "invalid_target_type"
        "targetType must be static, proxy, passenger, php or python")
  | some targetType =>
      let target ← validateTarget net targetType req.target
      requireApplicationBinding targetType websiteId
      let seed ← settingsFromTarget targetType target
      let nginxSettings ← normalizeNginxSettings targetType
        (orElse req.nginxSettings (.obj [])) (some seed.toJson)
      return (targetType, targetWithSettings target nginxSettings,
        nginxSettings)

/-- A domain nothing has been rendered of. -/
def draftDomain (id : String) (websiteId : Option String)
    (names : DomainSet) (policy : HttpsMode × Bool)
    (routing : TargetType × Target × NginxSettings) (req : NewDomain)
    (now : Instant) : Domain :=
  { id
    serverId := req.serverId
    websiteId
    primaryDomain := names.primary
    parentDomainId := req.parentDomainId
    aliases := names.aliases
    targetType := routing.1
    target := routing.2.1
    nginxSettings := routing.2.2
    httpsMode := policy.1
    httpsRedirect := policy.2
    canonicalRedirect := req.canonicalRedirect
    certificateId := none
    appliedPrimaryDomain := none
    state := .draft
    desiredRevision := 1
    stagedRevision := 0
    stagedChecksum := none
    stagedConfigName := none
    lastStagedAt := none
    appliedRevision := 0
    lastAppliedAt := none
    lastError := none
    suspensionOperationId := none
    suspendedAt := none
    suspendedChecksum := none
    lastSuspensionOperationId := none
    lastResumedAt := none
    createdAt := now
    updatedAt := now }

/-- The record a request describes, once it has passed every check. -/
def newDomain (net : Net) (env : Env) (domains : List Domain)
    (req : NewDomain) : Except Failure Domain := do
  if req.serverId = "" then
    throw (refuse "invalid_server" "serverId is required")
  if !env.serverExists then
    throw (refuse "server_not_found" "Target server does not exist" 404)
  let policy ← requestedPolicy req
  let (id, websiteId, names) ← newIdentity net env domains req
  let routing ← newTarget net req websiteId
  return draftDomain id websiteId names policy routing req env.now

/-- The existing domain of the same id is the one requested. -/
def sameRequest (req : NewDomain) (existing domain : Domain) : Bool :=
  req.domainId.isSome && existing.serverId == domain.serverId
    && existing.websiteId == domain.websiteId
    && existing.primaryDomain == domain.primaryDomain
    && existing.parentDomainId == domain.parentDomainId
    && existing.aliases == domain.aliases
    && existing.targetType == domain.targetType
    && existing.target == domain.target
    && existing.httpsMode == domain.httpsMode
    && existing.nginxSettings == domain.nginxSettings
    && existing.httpsRedirect == domain.httpsRedirect
    && existing.canonicalRedirect == domain.canonicalRedirect

def createDomain (net : Net) (env : Env) (req : NewDomain)
    (domains : List Domain) : DomainEffect :=
  match newDomain net env domains req with
  | .error e => .refused e
  | .ok domain =>
      match domains.find? fun candidate => candidate.id == domain.id with
      | some existing =>
          if sameRequest req existing domain then
            .replied (.domain (publicDomain existing))
          else
            .refused (refuse "domain_identity_conflict"
              "Domain identity conflicts with existing state" 409)
      | none =>
          .written (domains ++ [domain]) fun domains =>
            .ok (.domain (publicDomain (current domain domains)))

-- ====== provisioning

def provisionedDomainsInvalid (message : String) : Failure :=
  refuse "provisioned_domains_invalid" message

/-- The loop of `provisioningDomains`. -/
def provisioningEntries (seen : List String) :
    List ProvisionedDomain → Except Failure (List ProvisionedDomain)
  | [] => .ok []
  | entry :: rest =>
      match assertUuid entry.domainId with
      | none =>
          .error (provisionedDomainsInvalid
            "Provisioned Domain identity is invalid")
      | some domainId =>
          if domainId ∈ seen ∨ isRevision entry.expectedRevision = false then
            .error (provisionedDomainsInvalid
              "Provisioned Domain evidence is invalid")
          else do
            let others ← provisioningEntries (domainId :: seen) rest
            return { entry with domainId } :: others

def provisioningDomains (platform : Platform)
    (value : List ProvisionedDomain) :
    Except Failure (List ProvisionedDomain) := do
  if value.length < 1 ∨ 2 < value.length then
    throw (provisionedDomainsInvalid
      "Provisioned Domain evidence must contain one or two Domains")
  let entries ← provisioningEntries [] value
  return entries.mergeSort fun left right =>
    platform.localeLE left.domainId right.domainId

/-- The domain is active on the given configuration. -/
def Domain.activeOn (revision : Int) (checksum configName : String)
    (domain : Domain) : Bool :=
  domain.stagedRevision == revision && domain.appliedRevision == revision
    && domain.stagedChecksum == some checksum
    && domain.stagedConfigName == some configName
    && domain.appliedPrimaryDomain == some domain.primaryDomain
    && domain.state == .active && domain.lastError.isNone

/-- The domain is as it was created. -/
def Domain.pristine (domain : Domain) : Bool :=
  domain.certificateId.isNone && domain.stagedRevision == 0
    && domain.appliedRevision == 0 && domain.stagedChecksum.isNone
    && domain.stagedConfigName.isNone && domain.lastStagedAt.isNone
    && domain.lastAppliedAt.isNone && domain.appliedPrimaryDomain.isNone
    && domain.state == .draft && domain.lastError.isNone

/-- A domain of a provisioning: where it stands, the record, and whether it
is already what it should become. -/
structure ProvisionTarget where
  index : Nat
  domain : Domain
  settled : Bool

/-- How one of the two provisioning calls tells what to do with a
domain: `settled` leaves it, `ready` changes it, anything else is `drift`. -/
structure ProvisionRule where
  settled : ProvisionedDomain → Domain → Bool
  ready : ProvisionedDomain → Domain → Bool
  identityDrift : Failure
  stateDrift : Failure
  changed : Instant → Domain → Domain

/-- The loop over the domains a provisioning names. -/
def provisionTargets (rule : ProvisionRule) (websiteId : String)
    (domains : List Domain) :
    List ProvisionedDomain → Except Failure (List ProvisionTarget)
  | [] => .ok []
  | entry :: rest => do
      let (index, domain) ← requireDomain domains entry.domainId
      if domain.websiteId ≠ some websiteId
          ∨ domain.desiredRevision ≠ entry.expectedRevision then
        throw rule.identityDrift
      if !rule.settled entry domain && !rule.ready entry domain then
        throw rule.stateDrift
      let others ← provisionTargets rule websiteId domains rest
      return { index, domain, settled := rule.settled entry domain } :: others

/-- Every target that is not settled is changed. -/
def provision (rule : ProvisionRule) (now : Instant) :
    List ProvisionTarget → List Domain → List Domain
  | [], domains => domains
  | target :: rest, domains =>
      provision rule now rest
        (if target.settled then domains
        else domains.set target.index (rule.changed now target.domain))

/-- The checks both provisioning calls make of their argument. -/
def checkProvisioning (platform : Platform) (req : Provisioning) :
    Except Failure (String × List ProvisionedDomain) := do
  match ← normalizeWebsiteId req.websiteId with
  | none =>
      throw (refuse "provisioned_domains_website_invalid"
        "Provisioned Domains require a Website identity")
  | some websiteId =>
      let expected ← provisioningDomains platform req.domains
      if !isSha256 req.checksum then
        throw (refuse "invalid_staged_checksum"
          "Provisioned Domain checksum is invalid")
      if !isConfigName req.configName then
        throw (refuse "invalid_staged_config"
          "Provisioned Domain config name is invalid")
      return (websiteId, expected)

/-- `activateProvisionedDomains` and `resetProvisionedDomains`, which
differ in their rule. -/
def provisionDomains (platform : Platform) (rule : ProvisionRule)
    (req : Provisioning) (now : Instant) (domains : List Domain) :
    DomainEffect :=
  match checkProvisioning platform req with
  | .error e => .refused e
  | .ok (websiteId, expected) =>
      match provisionTargets rule websiteId domains expected with
      | .error e => .refused e
      | .ok targets =>
          let reply (domains : List Domain) : Reply :=
            .domains (targets.map fun target =>
              publicDomain (current target.domain domains))
          if targets.all ProvisionTarget.settled then
            .replied (reply domains)
          else
            .written (provision rule now targets domains) fun domains =>
              .ok (reply domains)

def Domain.activated (checksum configName : String) (now : Instant)
    (domain : Domain) : Domain :=
  (domain.staged checksum configName now).applied now

def activationRule (req : Provisioning) : ProvisionRule :=
  { settled := fun entry domain =>
      domain.activeOn entry.expectedRevision req.checksum req.configName
    ready := fun _ domain => domain.pristine
    identityDrift := refuse "provisioned_domain_state_drift"
      ("Provisioned Domain identity or desired revision changed before "
        ++ "activation") 409
    stateDrift := refuse "provisioned_domain_state_drift"
      "Provisioned Domain routing state changed before activation" 409
    changed := Domain.activated req.checksum req.configName }

def activateProvisionedDomains (platform : Platform) (req : Provisioning) :
    Instant → List Domain → DomainEffect :=
  provisionDomains platform (activationRule req) req

def Domain.reset (now : Instant) (domain : Domain) : Domain :=
  { domain.redrafted domain.desiredRevision now with
    appliedRevision := 0
    appliedPrimaryDomain := none
    lastAppliedAt := none }

def resetRule (req : Provisioning) : ProvisionRule :=
  { settled := fun _ domain => domain.pristine
    ready := fun entry domain => domain.certificateId.isNone
      && domain.activeOn entry.expectedRevision req.checksum req.configName
    identityDrift := refuse "provisioned_domain_compensation_drift"
      ("Provisioned Domain identity or desired revision changed before "
        ++ "compensation") 409
    stateDrift := refuse "provisioned_domain_compensation_drift"
      "Provisioned Domain routing state changed after activation" 409
    changed := Domain.reset }

def resetProvisionedDomains (platform : Platform) (req : Provisioning) :
    Instant → List Domain → DomainEffect :=
  provisionDomains platform (resetRule req) req

-- ====== removal

def removalConfirmation (domainId : String) (evidence : Evidence) : String :=
  "finalize-domain-remove:" ++ domainId ++ ":" ++ evidence.operationId
    ++ ":" ++ toString evidence.expectedRevision ++ ":" ++ evidence.checksum

def Domain.asRemoved (domain : Domain) : RemovedDomain :=
  { id := domain.id
    serverId := domain.serverId
    primaryDomain := domain.primaryDomain
    parentDomainId := domain.parentDomainId
    desiredRevision := domain.desiredRevision
    suspensionOperationId := domain.suspensionOperationId
    suspendedChecksum := domain.suspendedChecksum }

/-- The checks of `finalizeDomainRemoval`: the domain to be removed. -/
def removableDomain (platform : Platform) (domains : List Domain)
    (domainId : String) (evidence : Evidence) (confirmation : String) :
    Except Failure Domain := do
  let domainId ← normalizeReparentId "invalid_domain_id" "domainId" domainId
  let (_, domain) ← requireDomain domains domainId
  let _ ← suspensionOperationId evidence.operationId
  let _ ← suspensionChecksum evidence.checksum
  if !isRevision evidence.expectedRevision then
    throw (refuse "invalid_domain_removal_revision"
      "Domain removal expected revision is invalid")
  if confirmation ≠ removalConfirmation domain.id evidence then
    throw (refuse "domain_removal_confirmation_invalid"
      "Domain removal finalization confirmation is invalid" 409)
  if descendantsOf platform domains domain.id ≠ [] then
    throw (refuse "domain_removal_descendants_present"
      "Domain cannot be finalized while child Domains remain" 409)
  if domain.websiteId ≠ none then
    throw (refuse "domain_removal_website_binding_present"
      "Domain cannot be finalized while Website binding remains" 409)
  if domain.certificateId ≠ none then
    throw (refuse "domain_removal_certificate_present"
      "Domain cannot be finalized while certificate binding remains" 409)
  if !domain.suspendedOn evidence then
    throw (refuse "domain_removal_suspension_evidence_invalid"
      ("Domain removal finalization requires exact suspended routing "
        ++ "evidence") 409)
  return domain

def finalizeDomainRemoval (platform : Platform) (domainId : String)
    (evidence : Evidence) (confirmation : String) (domains : List Domain) :
    DomainEffect :=
  match removableDomain platform domains domainId evidence confirmation with
  | .error e => .refused e
  | .ok domain =>
      let rest := domains.filter fun candidate => candidate.id != domain.id
      -- the list is already replaced when this check throws
      match validateDomainHierarchy rest with
      | .error e => .spoiled rest e
      | .ok () =>
          .written rest fun _ =>
            .ok (.removed domain.asRemoved
              (removalConfirmation domain.id evidence))

-- ====== reads

/-- `hydrateDomain` and `publicDomain` of each. -/
def listDomains (net : Net) (domains : List Domain) :
    Except Failure (List PublicDomain) :=
  domains.mapM fun domain => publicDomain <$> hydrateDomain net 4 domain

def getDomain (net : Net) (domainId : String) (domains : List Domain) :
    Except Failure (Option PublicDomain) :=
  match domains.find? fun candidate => candidate.id == domainId with
  | none => .ok none
  | some domain => (some ∘ publicDomain) <$> hydrateDomain net 4 domain

-- ====== loading

/-- `normalizeWebsiteId` of every record. -/
def checkWebsiteIds : List Domain → Except Failure Unit
  | [] => .ok ()
  | domain :: rest => do
      let _ ← normalizeWebsiteId domain.websiteId
      checkWebsiteIds rest

/-- The website checks of `init`, where the registry has a lookup. -/
def checkBindings (env : Env) : List Domain → Except Failure Unit
  | [] => .ok ()
  | domain :: rest => do
      let _ ← requireWebsiteBinding env domain.websiteId domain.serverId
      checkBindings env rest

/-- `init`: the records of a store written by version `version`. -/
def init (net : Net) (env : Env) (version : Int) (stored : List Domain) :
    Except Failure (List Domain) := do
  if !([1, 2, 3, 4].contains version) then throw .invalidStore
  validateDomainHierarchy stored
  let domains ← stored.mapM (hydrateDomain net version)
  checkWebsiteIds domains
  if env.getWebsite.isSome then checkBindings env domains
  return domains

-- ====== machine

/-- A call of the registry. -/
inductive Call where
  | listDomains
  | getDomain (domainId : String)
  | previewDomainReparent (domainId : String)
      (parentDomainId : Option String)
  | reparentDomain (domainId : String) (parentDomainId : Option String)
      (previewDigest : String)
  | previewDomainUpdate (domainId : String) (changes : Json)
  | updateDomain (domainId : String) (changes : Json)
      (previewDigest : String)
  | createDomain (req : NewDomain)
  | bindWebsite (domainId : String) (websiteId : Option String)
      (removed : Option Domain)
  | rollbackWebsiteBinding (domainId : String) (websiteId : Option String)
  | detachWebsiteForRemoval (domainId : String)
      (expectedWebsiteId : Option String) (evidence : Evidence)
  | detachCertificateForRemoval (domainId expectedCertificateId : String)
      (evidence : Evidence)
  | attachCertificate (domainId certificateId : String)
      (domains : Option (List String))
  | activateProvisionedDomains (req : Provisioning)
  | resetProvisionedDomains (req : Provisioning)
  | markStaged (domainId checksum configName : String)
  | markApplied (domainId checksum : String)
  | markSuspended (domainId : String) (evidence : Evidence)
  | markResumed (domainId : String) (evidence : Evidence)
  | finalizeDomainRemoval (domainId : String) (evidence : Evidence)
      (confirmation : String)
  | markFailed (domainId errorCode : String)

def Call.effect (platform : Platform) (env : Env) :
    Call → List Domain → DomainEffect
  | listDomains => fun domains =>
      .ofResult (Reply.domains <$> Domains.listDomains platform.toNet domains)
  | getDomain domainId => fun domains =>
      .ofResult (Reply.found
        <$> Domains.getDomain platform.toNet domainId domains)
  | previewDomainReparent domainId parentDomainId => fun domains =>
      .ofResult ((fun found => Reply.reparentPreview found.2.2)
        <$> buildReparentPreview platform domains domainId parentDomainId)
  | reparentDomain domainId parentDomainId previewDigest =>
      Domains.reparentDomain platform domainId parentDomainId previewDigest
        env.now
  | previewDomainUpdate domainId changes => fun domains =>
      .ofResult ((fun found => Reply.updatePreview found.2.2)
        <$> buildDomainUpdatePreview platform domains domainId changes)
  | updateDomain domainId changes previewDigest =>
      Domains.updateDomain platform domainId changes previewDigest env.now
  | createDomain req => Domains.createDomain platform.toNet env req
  | bindWebsite domainId websiteId none =>
      onDomain domainId (Domains.bindWebsite platform.toNet env websiteId)
  | bindWebsite _ websiteId (some removed) =>
      bindRemoved platform.toNet env websiteId removed
  | rollbackWebsiteBinding domainId websiteId =>
      onDomain domainId
        (Domains.rollbackWebsiteBinding platform.toNet env.now websiteId)
  | detachWebsiteForRemoval domainId expectedWebsiteId evidence =>
      onDomain domainId
        (Domains.detachWebsiteForRemoval expectedWebsiteId evidence env.now)
  | detachCertificateForRemoval domainId expectedCertificateId evidence =>
      onDomain domainId
        (Domains.detachCertificateForRemoval expectedCertificateId evidence
          env.now)
  | attachCertificate domainId certificateId names =>
      onDomain domainId
        (Domains.attachCertificate platform.toNet certificateId names
          env.now)
  | activateProvisionedDomains req =>
      Domains.activateProvisionedDomains platform req env.now
  | resetProvisionedDomains req =>
      Domains.resetProvisionedDomains platform req env.now
  | markStaged domainId checksum configName =>
      onDomain domainId (Domains.markStaged checksum configName env.now)
  | markApplied domainId checksum =>
      onDomain domainId (Domains.markApplied checksum env.now)
  | markSuspended domainId evidence =>
      onDomain domainId (Domains.markSuspended evidence env.now)
  | markResumed domainId evidence =>
      onDomain domainId (Domains.markResumed evidence env.now)
  | finalizeDomainRemoval domainId evidence confirmation =>
      Domains.finalizeDomainRemoval platform domainId evidence confirmation
  | markFailed domainId errorCode =>
      onDomain domainId (Domains.markFailed errorCode env.now)

/-- The registry in memory, its file, and the writes between them. -/
abbrev Registry := Store (List Domain) Failure Reply

/-- What happens next: a call, the write at the head of the chain settling,
or the control plane starting again from the file. -/
inductive Event where
  | call (env : Env) (c : Call)
  | settle (ok : Bool)
  | restart (env : Env)

def Registry.step (platform : Platform) (r : Registry) :
    Event → Registry × Outcome Failure Reply
  | .call env c => r.call (c.effect platform env)
  | .settle ok => r.settle .store ok
  | .restart env =>
      match init platform.toNet env 4 r.file with
      | .ok domains => (Store.opened domains, .idle)
      | .error e => (r, .rejected e)

def machine (platform : Platform) :
    Machine Registry Event (Outcome Failure Reply) where
  step := Registry.step platform

end Yunpanel.Domains
