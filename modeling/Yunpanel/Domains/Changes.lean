/-
What a call can do to one domain record.

A change of one record is a function from the record to a `Verdict`: it
throws, or finds nothing to change, or says what the record becomes and
what the caller is told once that is written. `onDomain` runs such a
function against the list; each change has its own record update
(`Domain.staged`, `Domain.suspended`, …), written once.

What a call waits for before its record's turn (the server and website
lookups) is answered by `Env`.
-/
import Yunpanel.Domains.Hierarchy
import Yunpanel.Lib.Table
import Yunpanel.Lib.WriteChain

namespace Yunpanel.Domains

open Lib

-- ====== requests

/-- What the environment answers a call. -/
structure Env where
  now : Instant
  randomUUID : Uuid
  serverExists : Bool
  /-- `getWebsite`, where the registry was given one: the server of each
  website there is. -/
  getWebsite : Option (String → Option String)
  websiteBindingRequired : Bool

/-- The argument of `createDomain`, its defaults aside. -/
structure NewDomain where
  domainId : Option String
  serverId : String
  primaryDomain : String
  aliases : List String
  targetType : String
  target : Json
  httpsMode : String
  httpsRedirect : Option Bool
  canonicalRedirect : Bool
  nginxSettings : Option Json
  parentDomainId : Option String
  websiteId : Option String

/-- On what configuration a suspension rests. -/
structure Evidence where
  expectedRevision : Int
  checksum : String
  operationId : String
  deriving DecidableEq, Repr

structure ProvisionedDomain where
  domainId : String
  expectedRevision : Int
  deriving DecidableEq, Repr

/-- The argument of `activateProvisionedDomains` and
`resetProvisionedDomains`. -/
structure Provisioning where
  websiteId : Option String
  domains : List ProvisionedDomain
  checksum : String
  configName : String

-- ====== replies

structure ReparentImpact where
  websiteId : Option String
  certificateId : Option String
  descendantCount : Nat
  descendants : List Descendant

structure ReparentPreview where
  domainId : String
  currentParentDomainId : Option String
  nextParentDomainId : Option String
  previewDigest : String
  confirmation : String
  impact : ReparentImpact

/-- What an update makes of the routing of a domain. -/
structure Routing where
  primaryDomain : String
  aliases : List String
  httpsMode : HttpsMode
  httpsRedirect : Bool
  canonicalRedirect : Bool
  nginxSettings : NginxSettings

structure UpdateImpact where
  hostnameChanged : Bool
  policyChanged : Bool
  settingsChanged : Bool
  currentSettings : NginxSettings
  nextSettings : NginxSettings
  changedFields : List String
  activeConfigRename : Bool
  certificateId : Option String
  certificateDetached : Bool
  certificateReason : Option String
  descendants : List Descendant

structure UpdatePreview where
  domainId : String
  currentRevision : Int
  nextRevision : Int
  next : Routing
  previewDigest : String
  confirmation : String
  impact : UpdateImpact

structure RemovedDomain where
  id : String
  serverId : String
  primaryDomain : String
  parentDomainId : Option String
  desiredRevision : Int
  suspensionOperationId : Option String
  suspendedChecksum : Option String

inductive Reply where
  | domain (domain : PublicDomain)
  | found (domain : Option PublicDomain)
  | domains (domains : List PublicDomain)
  | reparentPreview (preview : ReparentPreview)
  | reparented (domain : PublicDomain) (preview : ReparentPreview)
  | updatePreview (preview : UpdatePreview)
  | updated (domain : PublicDomain) (preview : UpdatePreview)
  | detached (changed : Bool) (domain : PublicDomain) (detachedId : String)
      (suspension : Evidence)
  | removed (domain : RemovedDomain) (confirmation : String)

/-- What a synchronous part does to the domains. -/
abbrev DomainEffect := Effect (List Domain) Failure Reply

-- ====== one record's turn

/-- What a change of one record comes to. -/
inductive Verdict where
  /-- There is nothing to change. -/
  | answered (reply : Reply)
  /-- The record becomes `next`; once that is written the caller is told
  `reply` of the record as it is by then. -/
  | changed (next : Domain) (reply : Domain → Reply)

/-- `return publicDomain(domain)` -/
def answer (domain : Domain) : Except Failure Verdict :=
  .ok (.answered (.domain (publicDomain domain)))

/-- `await persist(); return publicDomain(domain)` -/
def change (next : Domain) : Except Failure Verdict :=
  .ok (.changed next fun domain => .domain (publicDomain domain))

/-- The record a caller holds on to, as it is by now. -/
def current (domain : Domain) (domains : List Domain) : Domain :=
  (domains.find? fun candidate => candidate.id == domain.id).getD domain

def domainNotFound : Failure := refuse "domain_not_found" "Domain not found" 404

/-- `requireDomain`, with the position of the record. -/
def requireDomain (domains : List Domain) (domainId : String) :
    Except Failure (Nat × Domain) :=
  match locate (fun candidate => candidate.id == domainId) domains with
  | some found => .ok found
  | none => .error domainNotFound

def onDomain (domainId : String) (turn : Domain → Except Failure Verdict)
    (domains : List Domain) : DomainEffect :=
  match requireDomain domains domainId with
  | .error e => .refused e
  | .ok (i, domain) =>
      match turn domain with
      | .error e => .refused e
      | .ok (.answered reply) => .replied reply
      | .ok (.changed next reply) =>
          .written (domains.set i next) fun domains =>
            .ok (reply (current next domains))

-- ====== staging, applying

/-- `stagedConfigName` of a request: 1 to 300 units. -/
def isConfigName (name : String) : Bool :=
  decide (1 ≤ Text.length name) && decide (Text.length name ≤ 300)

def Domain.staged (checksum configName : String) (now : Instant)
    (domain : Domain) : Domain :=
  { domain with
    stagedRevision := domain.desiredRevision
    stagedChecksum := some checksum
    stagedConfigName := some configName
    lastStagedAt := some now
    state := .staged
    lastError := none
    updatedAt := now }

def markStaged (checksum configName : String) (now : Instant)
    (domain : Domain) : Except Failure Verdict :=
  if domain.state = .suspended then
    .error (refuse "domain_suspended_stage_blocked"
      "Resume the Domain before staging routing changes" 409)
  else if !isSha256 checksum then
    .error (refuse "invalid_staged_checksum"
      "Staged domain checksum is invalid")
  else if !isConfigName configName then
    .error (refuse "invalid_staged_config"
      "Staged domain config name is invalid")
  else change (domain.staged checksum configName now)

def Domain.applied (now : Instant) (domain : Domain) : Domain :=
  { domain with
    appliedRevision := domain.desiredRevision
    appliedPrimaryDomain := some domain.primaryDomain
    state := .active
    lastAppliedAt := some now
    lastError := none
    updatedAt := now }

def markApplied (checksum : String) (now : Instant) (domain : Domain) :
    Except Failure Verdict :=
  if domain.state = .suspended then
    .error (refuse "domain_suspended_activation_blocked"
      ("Resume the Domain through the suspension lifecycle before "
        ++ "activation") 409)
  else if domain.stagedRevision ≠ domain.desiredRevision
      ∨ (domain.stagedChecksum.filter (· ≠ "")).isNone then
    .error (refuse "staged_revision_required"
      "Current desired domain revision has not been staged" 409)
  else if some checksum ≠ domain.stagedChecksum then
    .error (refuse "staged_checksum_mismatch"
      "Activated checksum does not match staged desired state" 409)
  else change (domain.applied now)

def Domain.failed (code : String) (now : Instant) (domain : Domain) :
    Domain :=
  { domain with
    state := .error
    lastError := some code
    updatedAt := now }

def markFailed (errorCode : String) (now : Instant) (domain : Domain) :
    Except Failure Verdict :=
  if domain.state = .suspended then
    .error (refuse "domain_suspended_failure_blocked"
      ("Suspended Domain state can be changed only through the resume "
        ++ "lifecycle") 409)
  else
    change (domain.failed
      (if isErrorCode errorCode then errorCode else "apply_failed") now)

-- ====== suspension

/-- `suspensionChecksum` -/
def suspensionChecksum (value : String) : Except Failure String :=
  if isSha256 value then .ok value
  else
    .error (refuse "invalid_domain_suspension_checksum"
      "Domain suspension checksum is invalid")

/-- `suspensionOperationId` -/
def suspensionOperationId (value : String) : Except Failure String :=
  if isOperationId value then .ok value
  else
    .error (refuse "invalid_domain_suspension_operation_id"
      "Domain suspension operation id is invalid")

/-- `Number.isSafeInteger(n) && n >= 1` -/
def isRevision (n : Int) : Bool :=
  decide (1 ≤ n) && decide (n ≤ 9007199254740991)

/-- The configuration a request expects is the one desired, staged and
applied, and nothing went wrong with it. -/
def Domain.servesExactly (revision : Int) (checksum : String)
    (domain : Domain) : Bool :=
  domain.desiredRevision == revision && domain.stagedRevision == revision
    && domain.appliedRevision == revision
    && domain.stagedChecksum == some checksum
    && domain.appliedPrimaryDomain == some domain.primaryDomain
    && domain.lastError.isNone

/-- `assertSuspendable` -/
def assertSuspendable (domain : Domain) (evidence : Evidence) :
    Except Failure Unit :=
  if !isRevision evidence.expectedRevision
      || !domain.servesExactly evidence.expectedRevision evidence.checksum
  then
    .error (refuse "domain_suspension_state_drift"
      "Domain routing state changed before suspension" 409)
  else .ok ()

def Domain.suspended (evidence : Evidence) (now : Instant)
    (domain : Domain) : Domain :=
  { domain with
    state := .suspended
    suspensionOperationId := some evidence.operationId
    suspendedAt := some now
    suspendedChecksum := some evidence.checksum
    updatedAt := now }

def markSuspended (evidence : Evidence) (now : Instant)
    (domain : Domain) : Except Failure Verdict := do
  let checksum ← suspensionChecksum evidence.checksum
  let operationId ← suspensionOperationId evidence.operationId
  if domain.state = .suspended then
    if domain.desiredRevision ≠ evidence.expectedRevision
        ∨ domain.suspendedChecksum ≠ some checksum
        ∨ domain.suspensionOperationId ≠ some operationId then
      throw (refuse "domain_suspension_state_drift"
        "Domain is already suspended by different routing evidence" 409)
    answer domain
  else
    if domain.state ≠ .active then
      throw (refuse "domain_suspension_active_required"
        "Only an active Domain can be suspended" 409)
    assertSuspendable domain evidence
    change (domain.suspended evidence now)

/-- The domain is suspended on exactly this evidence. -/
def Domain.suspendedOn (evidence : Evidence) (domain : Domain) : Bool :=
  domain.state == .suspended
    && domain.servesExactly evidence.expectedRevision evidence.checksum
    && domain.suspendedChecksum == some evidence.checksum
    && domain.suspensionOperationId == some evidence.operationId

/-- The domain was resumed from exactly this evidence. -/
def Domain.resumedFrom (evidence : Evidence) (domain : Domain) : Bool :=
  domain.state == .active && domain.suspensionOperationId.isNone
    && domain.suspendedAt.isNone && domain.suspendedChecksum.isNone
    && domain.lastSuspensionOperationId == some evidence.operationId
    && domain.servesExactly evidence.expectedRevision evidence.checksum

def Domain.resumed (evidence : Evidence) (now : Instant)
    (domain : Domain) : Domain :=
  { domain with
    state := .active
    suspensionOperationId := none
    suspendedAt := none
    suspendedChecksum := none
    lastSuspensionOperationId := some evidence.operationId
    lastResumedAt := some now
    lastAppliedAt := some now
    updatedAt := now }

def markResumed (evidence : Evidence) (now : Instant) (domain : Domain) :
    Except Failure Verdict := do
  let _ ← suspensionChecksum evidence.checksum
  let _ ← suspensionOperationId evidence.operationId
  if domain.resumedFrom evidence then answer domain
  else
    if !domain.suspendedOn evidence then
      throw (refuse "domain_resume_state_drift"
        "Domain suspension state changed before resume" 409)
    change (domain.resumed evidence now)

-- ====== websites

/-- `requireWebsiteBinding` -/
def requireWebsiteBinding (env : Env) (websiteId : Option String)
    (serverId : String) : Except Failure (Option String) := do
  match ← normalizeWebsiteId websiteId with
  | none => return none
  | some id =>
      match env.getWebsite with
      | none =>
          throw (refuse "website_registry_unavailable"
            "Website registry is required for an explicit domain binding"
            503)
      | some getWebsite =>
          match getWebsite id with
          | none =>
              throw (refuse "website_not_found" "Website does not exist" 404)
          | some owner =>
              if owner ≠ serverId then
                throw (refuse "website_server_mismatch"
                  "Domain and Website must belong to the same server" 409)
              return some id

def Domain.bound (websiteId : Option String) (now : Instant)
    (domain : Domain) : Domain :=
  { domain with websiteId, updatedAt := now }

def bindWebsite (net : Net) (env : Env) (websiteId : Option String)
    (domain : Domain) : Except Failure Verdict := do
  let domain ← hydrateDomain net 4 domain
  match ← requireWebsiteBinding env websiteId domain.serverId with
  | none =>
      throw (refuse "website_binding_required"
        "A Website ID is required for domain migration")
  | some id =>
      if domain.websiteId = some id then answer domain
      else if domain.websiteId ≠ none then
        throw (refuse "domain_website_rebind_requires_preview"
          ("Changing an existing Domain Website binding requires an impact "
            ++ "preview") 409)
      else change (domain.bound (some id) env.now)

/-- `bindWebsite` where the record was removed while the website was
looked up: the caller changes what it holds, and the list is written as it
is. -/
def bindRemoved (net : Net) (env : Env) (websiteId : Option String)
    (domain : Domain) (domains : List Domain) : DomainEffect :=
  match bindWebsite net env websiteId domain with
  | .error e => .refused e
  | .ok (.answered reply) => .replied reply
  | .ok (.changed next reply) =>
      .written domains fun _ => .ok (reply next)

def rollbackWebsiteBinding (net : Net) (now : Instant)
    (websiteId : Option String) (domain : Domain) :
    Except Failure Verdict := do
  let domain ← hydrateDomain net 4 domain
  match ← normalizeWebsiteId websiteId with
  | none =>
      throw (refuse "website_binding_required"
        "A Website ID is required for migration rollback")
  | some expected =>
      match domain.websiteId with
      | none => answer domain
      | some bound =>
          if bound ≠ expected then
            throw (refuse "domain_website_rollback_mismatch"
              ("Domain Website binding does not match migration rollback "
                ++ "identity") 409)
          change (domain.bound none now)

/-- `assertRemovalSuspension` -/
def assertRemovalSuspension (domain : Domain) (evidence : Evidence) :
    Except Failure Evidence := do
  let checksum ← suspensionChecksum evidence.checksum
  let operationId ← suspensionOperationId evidence.operationId
  if !isRevision evidence.expectedRevision
      || !domain.suspendedOn evidence then
    throw (refuse "domain_removal_suspension_evidence_invalid"
      ("Domain removal dependency changes require exact suspended routing "
        ++ "evidence") 409)
  return { expectedRevision := evidence.expectedRevision
           checksum
           operationId }

def detachWebsiteForRemoval (expectedWebsiteId : Option String)
    (evidence : Evidence) (now : Instant) (domain : Domain) :
    Except Failure Verdict := do
  let suspension ← assertRemovalSuspension domain evidence
  match ← normalizeWebsiteId expectedWebsiteId with
  | none =>
      throw (refuse "domain_removal_website_id_invalid"
        "Domain removal requires the exact Website binding identity")
  | some websiteId =>
      match domain.websiteId with
      | none =>
          return .answered
            (.detached false (publicDomain domain) websiteId suspension)
      | some bound =>
          if bound ≠ websiteId then
            throw (refuse "domain_removal_website_binding_drift"
              "Domain Website binding changed before removal cleanup" 409)
          return .changed (domain.bound none now) fun domain =>
            .detached true (publicDomain domain) websiteId suspension

-- ====== certificates

def Domain.certified (certificateId : Option String) (now : Instant)
    (domain : Domain) : Domain :=
  { domain with certificateId, updatedAt := now }

def detachCertificateForRemoval (expectedCertificateId : String)
    (evidence : Evidence) (now : Instant) (domain : Domain) :
    Except Failure Verdict := do
  let suspension ← assertRemovalSuspension domain evidence
  if Text.length expectedCertificateId < 1
      ∨ 256 < Text.length expectedCertificateId
      ∨ expectedCertificateId.toList.any Text.isControl = true then
    throw (refuse "domain_removal_certificate_id_invalid"
      "Domain removal requires the exact certificate binding identity")
  match domain.certificateId with
  | none =>
      return .answered (.detached false (publicDomain domain)
        expectedCertificateId suspension)
  | some bound =>
      if bound ≠ expectedCertificateId then
        throw (refuse "domain_removal_certificate_binding_drift"
          "Domain certificate binding changed before removal cleanup" 409)
      return .changed (domain.certified none now) fun domain =>
        .detached true (publicDomain domain) expectedCertificateId
          suspension

/-- The desired configuration has changed: what was staged counts no
more. -/
def Domain.redrafted (revision : Int) (now : Instant) (domain : Domain) :
    Domain :=
  { domain with
    desiredRevision := revision
    stagedRevision := 0
    stagedChecksum := none
    stagedConfigName := none
    lastStagedAt := none
    state := .draft
    lastError := none
    updatedAt := now }

/-- The names a certificate covers are the domain's. -/
def coversDomain (net : Net) (names : List String) (domain : Domain) :
    Except Failure Unit := do
  let covered ← normalizeDomains net (names.headD "") names.tail
  if String.intercalate "\n" (covered.primary :: covered.aliases)
      ≠ String.intercalate "\n" (ownedNames domain) then
    throw (refuse "certificate_domain_mismatch"
      "Certificate domains do not match current Domain routing state" 409)

def attachCertificate (net : Net) (certificateId : String)
    (names : Option (List String)) (now : Instant) (domain : Domain) :
    Except Failure Verdict := do
  if domain.state = .suspended then
    throw (refuse "domain_suspended_update_blocked"
      "Resume the Domain before changing certificate routing state" 409)
  if domain.httpsMode ≠ .managed then
    throw (refuse "https_not_managed"
      "Certificate can only be attached to a managed HTTPS domain" 409)
  if certificateId = "" then
    throw (refuse "invalid_certificate" "certificateId is required")
  match names with
  | none => pure ()
  | some names => coversDomain net names domain
  if domain.certificateId = some certificateId then answer domain
  else
    change ((domain.certified (some certificateId) now).redrafted
      (domain.desiredRevision + 1) now)

end Yunpanel.Domains
