/-
The domain record, what the loader asks of it, and what readers are shown.

# What a domain is

A host name with its aliases, what answers its requests, and how far its
Nginx configuration got: `desiredRevision` counts the changes asked for,
`stagedRevision` is the one last rendered on the host and
`appliedRevision` the one traffic is served from. A suspended domain
carries who suspended it, when, and on which configuration.

# What a reader sees

`publicDomain` is the record, whether it is a subdomain, and a diagnosis of
what it still needs.
-/
import Yunpanel.Domains.Settings

namespace Yunpanel.Domains

-- ====== vocabularies

/-- `HTTPS_MODES` -/
inductive HttpsMode where
  | off | managed
  deriving DecidableEq, Repr

namespace HttpsMode

def text : HttpsMode → String
  | off => "off"
  | managed => "managed"

/-- `HTTPS_MODES.has` -/
def ofText? (s : String) : Option HttpsMode :=
  [off, managed].find? fun m => m.text == s

end HttpsMode

/-- `DOMAIN_STATES` -/
inductive DomainState where
  | draft | staged | active | suspended | error
  deriving DecidableEq, Repr

/-- `SHA256_PATTERN` -/
def isSha256 (s : String) : Bool := Text.inClass Text.isHex 64 64 s

/-- `/^[A-Za-z0-9._:-]{1,128}$/`: identities of operations and of domains
named by a caller. -/
def isOperationId (s : String) : Bool := Text.inClass Text.isKeyChar 1 128 s

/-- `/^[a-z0-9_]{1,120}$/` -/
def isErrorCode (s : String) : Bool :=
  Text.inClass (fun c => isAlnum c || c == '_') 1 120 s

-- ====== records

structure Domain where
  id : String
  serverId : String
  websiteId : Option String
  primaryDomain : String
  parentDomainId : Option String
  aliases : List String
  targetType : TargetType
  target : Target
  nginxSettings : NginxSettings
  httpsMode : HttpsMode
  httpsRedirect : Bool
  canonicalRedirect : Bool
  certificateId : Option String
  appliedPrimaryDomain : Option String
  state : DomainState
  desiredRevision : Int
  stagedRevision : Int
  stagedChecksum : Option String
  stagedConfigName : Option String
  lastStagedAt : Option Instant
  appliedRevision : Int
  lastAppliedAt : Option Instant
  lastError : Option String
  suspensionOperationId : Option String
  suspendedAt : Option Instant
  suspendedChecksum : Option String
  lastSuspensionOperationId : Option String
  lastResumedAt : Option Instant
  createdAt : Instant
  updatedAt : Instant
  deriving DecidableEq, Repr

/-- `ownedNames` -/
def ownedNames (domain : Domain) : List String :=
  domain.primaryDomain :: domain.aliases

-- ====== hydrateDomain

def invalidDomainState (message : String) : Failure :=
  refuse "invalid_domain_state" message 409

/-- The fields an older store lacks. -/
def upgradeDomain (sourceVersion : Int) (domain : Domain) :
    Except Failure Domain := do
  let routed :=
    if sourceVersion < 2 then
      { domain with
        canonicalRedirect := false
        httpsRedirect := domain.httpsMode == .managed
        appliedPrimaryDomain :=
          if 0 < domain.appliedRevision then some domain.primaryDomain
          else none
        lastError := domain.lastError.map fun code =>
          if isErrorCode code then code else "apply_failed" }
    else domain
  let settled ←
    if sourceVersion < 3 then do
      let nginxSettings ← settingsFromTarget routed.targetType routed.target
      pure { routed with nginxSettings }
    else pure routed
  if sourceVersion < 4 then
    return { settled with
      suspensionOperationId := none
      suspendedAt := none
      suspendedChecksum := none
      lastSuspensionOperationId := none
      lastResumedAt := none }
  return settled

/-- A suspended domain has its suspension on record and no error; any
other has no suspension on record. -/
def suspensionFits (domain : Domain) : Bool :=
  if domain.state = .suspended then
    domain.suspensionOperationId.isSome && domain.suspendedAt.isSome
      && domain.suspendedChecksum.isSome && domain.lastError.isNone
  else
    domain.suspensionOperationId.isNone && domain.suspendedAt.isNone
      && domain.suspendedChecksum.isNone

/-- The checks of `hydrateDomain`, in their order. -/
def checkDomain (net : Net) (domain : Domain) : Except Failure Unit := do
  let normalized ← normalizeNginxSettings domain.targetType
    domain.nginxSettings.toJson none
  if normalized ≠ domain.nginxSettings
      ∨ (domain.targetType.forwards = true
        ∧ domain.target.websocket ≠ normalized.websocket)
      ∨ (domain.targetType = .static
        ∧ domain.target.spaFallback ≠ normalized.spaFallback) then
    throw (invalidDomainState "Persisted Domain Nginx settings are invalid")
  let _ ← validateTarget net domain.targetType domain.target.toJson
  if domain.httpsMode = .off ∧ domain.httpsRedirect = true then
    throw (invalidDomainState "Persisted Domain routing policy is invalid")
  match domain.appliedPrimaryDomain with
  | none => pure ()
  | some applied =>
      let names ← normalizeDomains net applied []
      if names.primary ≠ applied then
        throw (invalidDomainState
          "Persisted applied Domain identity is invalid")
  if domain.lastError.any (fun code => !isErrorCode code) then
    throw (invalidDomainState "Persisted Domain error metadata is invalid")
  if domain.suspensionOperationId.any (fun id => !isOperationId id)
      || domain.suspendedChecksum.any (fun sum => !isSha256 sum)
      || domain.lastSuspensionOperationId.any (fun id => !isOperationId id)
      || domain.lastSuspensionOperationId.isNone
        != domain.lastResumedAt.isNone
      || !suspensionFits domain then
    throw (invalidDomainState
      "Persisted Domain suspension metadata is invalid")

def hydrateDomain (net : Net) (sourceVersion : Int) (domain : Domain) :
    Except Failure Domain := do
  let domain ← upgradeDomain sourceVersion domain
  checkDomain net domain
  return domain

-- ====== diagnosis

/-- What a domain still needs. -/
structure Diagnosis where
  severity : String
  code : String
  message : String
  action : String
  deriving DecidableEq, Repr

/-- `FALLBACKS.nginx` -/
def nginxFallback : Diagnosis :=
  { severity := "error"
    code := "nginx_operation_failed"
    message := "The Nginx operation failed."
    action := "Inspect the protected Nginx job and host diagnostics before "
      ++ "retrying." }

/-- `ENTRIES.nginx`: a code, what it means and what to do. -/
def nginxEntries : List (String × String × String) :=
  [("invalid_domain_spec", "The Domain configuration is invalid.",
      "Review the Domain target and Nginx settings, then stage a new "
        ++ "revision."),
    ("invalid_target_type", "The Domain target type is invalid.",
      "Select a supported static or proxy target, then stage a new "
        ++ "revision."),
    ("invalid_nginx_target_type",
      "The Nginx settings do not match the Domain target.",
      "Review the target-specific Nginx settings, then stage a new "
        ++ "revision."),
    ("invalid_nginx_settings", "The Nginx settings are invalid.",
      "Review the generated settings and stage a new revision."),
    ("invalid_nginx_setting",
      "An Nginx setting is outside the supported range.",
      "Correct the bounded setting and stage a new revision."),
    ("invalid_nginx_headers", "The Nginx response-header list is invalid.",
      "Correct the response headers and stage a new revision."),
    ("invalid_nginx_header", "An Nginx response header is invalid.",
      "Correct the response header and stage a new revision."),
    ("blocked_nginx_header",
      "An Nginx response header is managed by YunPanel or the protocol.",
      "Remove the protected header and stage a new revision."),
    ("duplicate_nginx_header",
      "Nginx response-header names must be unique.",
      "Remove the duplicate header and stage a new revision."),
    ("invalid_checksum", "The Nginx configuration checksum is invalid.",
      "Stage the current Domain revision again."),
    ("staged_config_missing", "The staged Nginx configuration is missing.",
      "Stage the current Domain revision again."),
    ("staged_config_changed",
      "The staged Nginx configuration changed before activation.",
      "Stage the current Domain revision again; do not reuse the old "
        ++ "checksum."),
    ("staged_config_inspection_failed",
      "The staged Nginx configuration could not be inspected.",
      "Inspect protected filesystem diagnostics, then stage the current "
        ++ "revision again."),
    ("active_config_inspection_failed",
      "The active Nginx configuration could not be inspected.",
      "Inspect protected filesystem diagnostics before changing live "
        ++ "traffic."),
    ("nginx_config_invalid", "Nginx rejected the staged configuration.",
      "Review the generated settings, stage a new revision, then activate "
        ++ "it."),
    ("nginx_activation_prepare_failed",
      "Nginx could not replace the active configuration.",
      "Inspect protected filesystem diagnostics and active configuration "
        ++ "permissions before retrying."),
    ("nginx_reload_failed",
      "Nginx reload failed and the previous configuration was restored.",
      "Inspect protected Nginx service logs, then retry activation."),
    ("nginx_rollback_failed",
      "Nginx reload failed and rollback could not be confirmed.",
      "Inspect Nginx configuration and service health on the Server before "
        ++ "any retry.")]

/-- `operationErrorDiagnosis('nginx', code)` -/
def operationErrorDiagnosis (code : String) : Diagnosis :=
  match nginxEntries.find? fun entry => entry.1 == code with
  | some (_, message, action) =>
      { severity := "error", code, message, action }
  | none => nginxFallback

def actionRequired (code message action : String) : Diagnosis :=
  { severity := "action_required", code, message, action }

def diagnosis (domain : Domain) : Option Diagnosis :=
  if domain.state = .suspended then
    some (actionRequired "domain_suspended" "Domain traffic is suspended."
      "Resume the Domain to restore the retained Nginx configuration.")
  else
    -- an empty error code counts as none
    match domain.lastError.filter (· ≠ "") with
    | some code => some (operationErrorDiagnosis code)
    | none =>
        if domain.stagedRevision ≠ domain.desiredRevision then
          some (actionRequired "domain_stage_required"
            "The desired Domain revision is not staged."
            "Stage the current revision.")
        else if domain.appliedRevision ≠ domain.desiredRevision then
          some (actionRequired "domain_activation_required"
            "The staged Domain revision is not active."
            "Activate the staged revision.")
        else if domain.httpsMode = .managed
            ∧ (domain.certificateId.filter (· ≠ "")).isNone then
          some (actionRequired "domain_certificate_required"
            (if domain.httpsRedirect then
              "Managed HTTPS and redirect are waiting for a certificate."
            else "Managed HTTPS is waiting for a certificate.")
            ("Issue or select a certificate covering the canonical hostname "
              ++ "and every alias."))
        else none

inductive Kind where
  | domain | subdomain
  deriving DecidableEq, Repr

/-- A domain as callers see it. -/
structure PublicDomain where
  domain : Domain
  kind : Kind
  diagnosis : Option Diagnosis
  deriving DecidableEq, Repr

def publicDomain (domain : Domain) : PublicDomain :=
  { domain
    kind := if domain.parentDomainId.isNone then .domain else .subdomain
    diagnosis := diagnosis domain }

end Yunpanel.Domains
