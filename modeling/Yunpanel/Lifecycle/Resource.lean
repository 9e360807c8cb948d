/-
DNS zones and mail domains as the panel tracks them.

One registry serves both kinds. A resource is tracked for another system
(`external`, the only mode of a zone) or run by the panel itself (`onHost`,
which a mail domain may be), and its status belongs to that mode. It may
name a web domain: then it bears that domain's name.

`validatePersisted` is what the loader asks of one record, and
`publicResource` what a reader is shown.
-/
import Yunpanel.Domains.Domain
import Yunpanel.Js.Fields
import Yunpanel.Lib.Result

namespace Yunpanel.Lifecycle

open Lib.Result
open Domains (Net)

-- ====== failures

/-- `new ExternalLifecycleRegistryError(code, message, status)` -/
structure Failure where
  code : String
  message : String
  status : Nat
  deriving DecidableEq, Repr

def refuse (code message : String) (status : Nat := 400) : Failure :=
  ⟨code, message, status⟩

-- ====== vocabularies

inductive ResourceType where
  | dnsZone | mailDomain
  deriving DecidableEq, Repr

namespace ResourceType

/-- `resourceType` and `prefix`, which are one word. -/
def text : ResourceType → String
  | dnsZone => "dns_zone"
  | mailDomain => "mail_domain"

/-- `prefix.replaceAll('_', '-')` -/
def dashed : ResourceType → String
  | dnsZone => "dns-zone"
  | mailDomain => "mail-domain"

end ResourceType

inductive ManagementMode where
  | external | onHost
  deriving DecidableEq, Repr

namespace ManagementMode

def text : ManagementMode → String
  | external => "external"
  | onHost => "local"

def ofText? (s : String) : Option ManagementMode :=
  [external, onHost].find? fun mode => mode.text == s

end ManagementMode

inductive Status where
  | unverified | ready | degraded | disabled | enabled
  deriving DecidableEq, Repr

namespace Status

def text : Status → String
  | unverified => "unverified"
  | ready => "ready"
  | degraded => "degraded"
  | disabled => "disabled"
  | enabled => "enabled"

def ofText? (s : String) : Option Status :=
  [unverified, ready, degraded, disabled, enabled].find? fun status =>
    status.text == s

end Status

/-- `STATUSES` and `LOCAL_MAIL_STATUSES` -/
def ManagementMode.statuses : ManagementMode → List Status
  | external => [.unverified, .ready, .degraded]
  | onHost => [.disabled, .enabled]

/-- `ERROR_CODE_PATTERN` -/
def isErrorCode : String → Bool :=
  Text.headed Domains.isAlnum
    (fun c => Domains.isAlnum c || c == '_' || c == ':' || c == '-') 119

abbrev ErrorCode := Matching isErrorCode

/-- `WEB_DOMAIN_ID_PATTERN` -/
abbrev WebDomainId := Matching Domains.isOperationId

-- ====== records

/-- A zone or a mail domain; `name` is its `zoneName` or `domainName`. -/
structure Resource where
  id : Uuid
  name : String
  webDomainId : Option WebDomainId
  managementMode : ManagementMode
  status : Status
  revision : Nat
  lastObservedAt : Option Instant
  lastErrorCode : Option ErrorCode
  createdAt : Instant
  updatedAt : Instant
  deriving DecidableEq

-- ====== checks

def stateInvalid (type : ResourceType) (message : String) : Failure :=
  refuse s!"{type.text}_state_invalid" message 409

/-- The message of an error of another registry. -/
def messageOf : Domains.Failure → String
  | .registry _ message _ => message
  | .store | .invalidStore => ""

def canonicalName (net : Net) (type : ResourceType) (value : String) :
    Except Failure String :=
  match Domains.normalizeDomains net value [] with
  | .ok names => .ok names.primary
  | .error e => .error (refuse s!"invalid_{type.text}_name" (messageOf e))

/-- A zone is external; a mail domain may be local. -/
def ResourceType.supports (type : ResourceType) (mode : ManagementMode) :
    Bool :=
  mode == .external || type == .mailDomain

def modeUnsupported (type : ResourceType) : Failure :=
  refuse s!"{type.text}_management_mode_unsupported"
    (if type = .mailDomain then
      "Mail domain managementMode must be external or local"
    else "Only explicit external lifecycle tracking is implemented") 409

/-- `errorCode`: a code exactly where the status is `degraded`. -/
def errorCode (type : ResourceType) (status : Status) :
    Json → Except Failure (Option ErrorCode)
  | value =>
      if status = .degraded then
        some <$> demand (refuse s!"invalid_{type.text}_error_code"
          "Degraded status requires a bounded authored error code")
          (Matching.read? value)
      else if value = .null then .ok none
      else
        .error (refuse s!"invalid_{type.text}_error_code"
          "Only degraded status accepts an error code")

/-- `Number.isSafeInteger(n)` of what is not negative. -/
def maxSafeInteger : Nat := 9007199254740991

/-- `validatePersisted`, of a record whose fields have their types. -/
def validatePersisted (net : Net) (type : ResourceType) (r : Resource) :
    Except Failure Resource := do
  ensure (modeUnsupported type) (type.supports r.managementMode)
  ensure (stateInvalid type s!"{type.text} lifecycle state is invalid")
    (r.managementMode.statuses.contains r.status
      && 1 ≤ r.revision && r.revision ≤ maxSafeInteger)
  ensure (stateInvalid type s!"{type.text} observation state is inconsistent")
    (r.managementMode != .external
      || (r.status == .unverified) == r.lastObservedAt.isNone)
  ensure (stateInvalid type
      "Local mail-domain state cannot contain an external observation")
    (r.managementMode != .onHost || r.lastObservedAt.isNone)
  let name ← canonicalName net type r.name
  let lastErrorCode ← errorCode type r.status
    (Json.ofOption Matching.json r.lastErrorCode)
  return { r with name, lastErrorCode }

-- ====== readers

/-- `DNS_OBSERVATION_DIAGNOSES`: a code, what it means and what to do. -/
def dnsObservationDiagnoses : List (String × String × String) :=
  [("dns_expected_address_unavailable",
      "The managed Server does not expose a usable public address.",
      "Inspect the managed Server network inventory."),
    ("dns_resolver_unavailable",
      "Public DNS resolution could not be completed.",
      "Retry DNS readiness after resolver connectivity recovers."),
    ("resolver_timeout", "Public DNS resolution timed out.",
      "Retry DNS readiness after resolver connectivity recovers."),
    ("dns_address_missing", "The web hostname has no public address record.",
      "Publish the required A or AAAA record, then refresh readiness."),
    ("dns_target_mismatch",
      "A public DNS address does not match the managed Server.",
      "Correct the hostname target, then refresh readiness.")]

/-- `dnsObservationDiagnosis` -/
def dnsObservationDiagnosis (r : Resource) : Option Domains.Diagnosis :=
  if r.status = .unverified then
    some { severity := "action_required"
           code := "dns_readiness_required"
           message := "DNS readiness has not been checked."
           action := "Run a DNS readiness refresh for the current zone "
             ++ "revision." }
  else if r.status ≠ .degraded then none
  else
    let code := (r.lastErrorCode.map Matching.text).getD ""
    match dnsObservationDiagnoses.lookup code with
    | some (message, action) =>
        some { severity := "error"
               code
               message
               action }
    | none =>
        some { severity := "error"
               code := "dns_observation_failed"
               message := "The last DNS readiness observation failed."
               action := "Inspect the protected DNS diagnostics and refresh "
                 ++ "readiness." }

structure PublicResource where
  id : Uuid
  resourceType : ResourceType
  name : String
  webDomainId : Option WebDomainId
  managementMode : ManagementMode
  status : Status
  revision : Nat
  lastObservedAt : Option Instant
  lastErrorCode : Option String
  diagnosis : Option Domains.Diagnosis
  createdAt : Instant
  updatedAt : Instant
  deriving DecidableEq

/-- `publicResource`: the error code of a zone is the one of its
diagnosis. -/
def publicResource (type : ResourceType) (r : Resource) : PublicResource :=
  let diagnosis :=
    if type = .dnsZone then dnsObservationDiagnosis r else none
  { id := r.id
    resourceType := type
    name := r.name
    webDomainId := r.webDomainId
    managementMode := r.managementMode
    status := r.status
    revision := r.revision
    lastObservedAt := r.lastObservedAt
    lastErrorCode :=
      if type = .dnsZone then
        (diagnosis.filter fun d => d.severity == "error").map
          Domains.Diagnosis.code
      else r.lastErrorCode.map Matching.text
    diagnosis
    createdAt := r.createdAt
    updatedAt := r.updatedAt }

end Yunpanel.Lifecycle
