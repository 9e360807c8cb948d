/-
The registry of zones or mail domains, next to the registry of domains.

# The registry

A resource that names a web domain is compared with it twice: when it is
created, and when the process starts (`validateReference`). In between the
registry of domains may give the domain another name, or remove it, and
does not ask. Each of `recordObservation`, `transitionLocalStatus` and
`deleteResource` finds its resource and expects the revision it has.

# Control

`Control` is the registry of domains with both registries of resources; a
call is one of any of the three. Only the writes that reach the file count
here: a call is accepted with its store as it leaves it, or refused.
-/
import Yunpanel.Domains.Registry
import Yunpanel.Lifecycle.Resource

namespace Yunpanel.Lifecycle

open Lib Lib.Result
open Domains (Net Platform Domain)

-- ====== references

section References

variable (net : Net) (type : ResourceType) (domains : List Domain)

/-- `validateReference` -/
def validateReference (name : String) (persisted : Bool) :
    Option WebDomainId → Except Failure Unit
  | none => .ok ()
  | some webDomainId =>
      match Domains.getDomain net webDomainId.text domains with
      | .error _ =>
          .error (refuse s!"{type.text}_web_domain_unavailable"
            "Web Domain reference could not be verified" 503)
      | .ok none =>
          .error (refuse s!"{type.text}_web_domain_not_found"
            "Referenced web Domain does not exist"
            (if persisted then 409 else 404))
      | .ok (some found) =>
          ensure (refuse s!"{type.text}_web_domain_mismatch"
              "Lifecycle name must exactly match the referenced web Domain"
              409)
            (found.domain.primaryDomain == name)

-- ====== loading

/-- The loop of `init`, with the identities met so far. -/
def initFrom (ids : List Uuid) (names : List String)
    (references : List WebDomainId) : List Resource → Except Failure Unit
  | [] => .ok ()
  | r :: rest => do
      ensure (stateInvalid type s!"{type.text} identities must be unique")
        (!ids.contains r.id && !names.contains r.name
          && !r.webDomainId.any references.contains)
      validateReference net type domains r.name true r.webDomainId
      initFrom (r.id :: ids) (r.name :: names)
        (r.webDomainId.toList ++ references) rest

/-- `init`, of a file that is a store of typed records. -/
def init (stored : List Resource) : Except Failure (List Resource) := do
  let resources ← stored.mapM (validatePersisted net type)
  initFrom net type domains [] [] [] resources
  return resources

end References

-- ====== calls

/-- The clock, and the id the platform draws. -/
structure Env where
  now : Instant
  randomUUID : Uuid

structure CreateInput where
  resourceId : Json
  name : Json
  webDomainId : Json
  managementMode : Json

def idOf (type : ResourceType) (value : Json) : Except Failure Uuid :=
  demand (refuse s!"invalid_{type.text}_id" s!"{type.text}Id must be a UUID")
    (Uuid.read? value)

/-- The id of a new resource: the one requested, or the platform's. -/
def newId (env : Env) (type : ResourceType) : Json → Except Failure Uuid
  | .null => .ok env.randomUUID
  | value => idOf type value

def managementMode (type : ResourceType) (value : Json) :
    Except Failure ManagementMode :=
  demand (modeUnsupported type)
    ((value.str?.bind ManagementMode.ofText?).filter type.supports)

def webDomainId (type : ResourceType) (value : Json) :
    Except Failure (Option WebDomainId) :=
  demand (refuse s!"invalid_{type.text}_web_domain_id"
      "webDomainId must be a safe Domain identity or null")
    (Json.nullable? Matching.read? value)

/-- What the registry tells a caller. -/
inductive Reply where
  | resource (resource : PublicResource)
  | deleted (id : Uuid) (type : ResourceType)

/-- The resources afterwards, and the reply. -/
abbrev Answer := Except Failure (List Resource × Reply)

/-- The status and the fields of a resource nothing is known of. -/
def newResource (env : Env) (id : Uuid) (name : String)
    (webDomainId : Option WebDomainId) (mode : ManagementMode) : Resource :=
  { id
    name
    webDomainId
    managementMode := mode
    status := if mode = .external then .unverified else .disabled
    revision := 1
    lastObservedAt := none
    lastErrorCode := none
    createdAt := env.now
    updatedAt := env.now }

def createResource (net : Net) (env : Env) (type : ResourceType)
    (domains : List Domain) (resources : List Resource)
    (input : CreateInput) : Answer := do
  let mode ← managementMode type input.managementMode
  let id ← newId env type input.resourceId
  let name ← canonicalName net type (Domains.textOf input.name)
  let webDomainId ← webDomainId type input.webDomainId
  validateReference net type domains name false webDomainId
  ensure (refuse s!"{type.text}_id_conflict"
      s!"{type.text} identity is already tracked" 409)
    (!resources.any fun r => r.id == id)
  ensure (refuse s!"{type.text}_name_conflict"
      s!"{type.text} name is already tracked" 409)
    (!resources.any fun r => r.name == name)
  ensure (refuse s!"{type.text}_web_domain_conflict"
      "Web Domain already has this lifecycle relationship" 409)
    (webDomainId.isNone || !resources.any fun r =>
      r.webDomainId == webDomainId)
  let resource := newResource env id name webDomainId mode
  return (resources ++ [resource], .resource (publicResource type resource))

/-- A positive revision. -/
def revisionOf (type : ResourceType) (value : Json) : Except Failure Nat :=
  demand (refuse s!"invalid_{type.text}_revision"
      "A positive expected revision is required")
    (((SafeNat.read? value).map SafeNat.val).filter (1 ≤ ·))

/-- The resource of an id, and where it stands. -/
def requireResource (type : ResourceType) (resources : List Resource)
    (id : Uuid) : Except Failure (Nat × Resource) :=
  demand (refuse s!"{type.text}_not_found" s!"{type.text} was not found" 404)
    (locate (fun r => r.id == id) resources)

structure ObserveInput where
  resourceId : Json
  expectedRevision : Json
  status : Json
  errorCode : Json

/-- The resource after an observation. -/
def Resource.observed (now : Instant) (status : Status)
    (lastErrorCode : Option ErrorCode) (r : Resource) : Resource :=
  { r with
    status
    revision := r.revision + 1
    lastObservedAt := some now
    lastErrorCode
    updatedAt := now }

def recordObservation (env : Env) (type : ResourceType)
    (resources : List Resource) (input : ObserveInput) : Answer := do
  let id ← idOf type input.resourceId
  let (i, r) ← requireResource type resources id
  ensure (refuse s!"{type.text}_observation_not_applicable"
      "Local mail-domain state does not accept external observations" 409)
    (r.managementMode == .external)
  let expected ← revisionOf type input.expectedRevision
  ensure (refuse s!"{type.text}_revision_conflict"
      s!"{type.text} changed before observation" 409)
    (r.revision == expected)
  let status ← demand (refuse s!"invalid_{type.text}_status"
      "Observed status must be ready or degraded")
    ((input.status.str?.bind Status.ofText?).filter fun status =>
      status == .ready || status == .degraded)
  let code ← errorCode type status input.errorCode
  let next := r.observed env.now status code
  return (resources.set i next, .resource (publicResource type next))

structure TransitionInput where
  resourceId : Json
  expectedRevision : Json
  status : Json

/-- The resource after its local status has changed. -/
def Resource.transitioned (now : Instant) (status : Status)
    (r : Resource) : Resource :=
  { r with
    status
    revision := r.revision + 1
    lastObservedAt := none
    lastErrorCode := none
    updatedAt := now }

def transitionLocalStatus (env : Env) (type : ResourceType)
    (resources : List Resource) (input : TransitionInput) : Answer := do
  let id ← idOf type input.resourceId
  let (i, r) ← requireResource type resources id
  ensure (refuse s!"{type.text}_local_status_not_applicable"
      "Only locally managed mail domains have a local lifecycle status" 409)
    (type == .mailDomain && r.managementMode == .onHost)
  let expected ← revisionOf type input.expectedRevision
  ensure (refuse s!"{type.text}_revision_conflict"
      s!"{type.text} changed before local status transition" 409)
    (r.revision == expected)
  let status ← demand (refuse s!"invalid_{type.text}_status"
      "Local mail-domain status must be disabled or enabled")
    ((input.status.str?.bind Status.ofText?).filter
      ManagementMode.onHost.statuses.contains)
  ensure (refuse s!"{type.text}_status_no_change"
      "Local mail-domain status is unchanged" 409)
    (r.status != status)
  let next := r.transitioned env.now status
  return (resources.set i next, .resource (publicResource type next))

structure DeleteInput where
  resourceId : Json
  expectedRevision : Json
  confirmation : Json

def deleteResource (type : ResourceType) (resources : List Resource)
    (input : DeleteInput) : Answer := do
  let id ← idOf type input.resourceId
  let expected ← revisionOf type input.expectedRevision
  let (i, r) ← requireResource type resources id
  ensure (refuse s!"{type.text}_revision_conflict"
      s!"{type.text} changed before deletion" 409)
    (r.revision == expected)
  ensure (refuse "mail_domain_disable_required"
      "Disable the local mail domain before deletion" 409)
    (type != .mailDomain || r.managementMode != .onHost
      || r.status == .disabled)
  ensure (refuse s!"{type.text}_confirmation_mismatch"
      s!"{type.text} deletion confirmation does not match" 409)
    (input.confirmation == .str
      s!"delete-{type.dashed}:{id.text}:{expected}")
  return (resources.eraseIdx i, .deleted id type)

/-- A call of one of the two registries. -/
inductive Call where
  | createResource (input : CreateInput)
  | recordObservation (input : ObserveInput)
  | transitionLocalStatus (input : TransitionInput)
  | deleteResource (input : DeleteInput)

def Call.answer (net : Net) (env : Env) (type : ResourceType)
    (domains : List Domain) (resources : List Resource) : Call → Answer
  | createResource input =>
      Lifecycle.createResource net env type domains resources input
  | recordObservation input =>
      Lifecycle.recordObservation env type resources input
  | transitionLocalStatus input =>
      Lifecycle.transitionLocalStatus env type resources input
  | deleteResource input => Lifecycle.deleteResource type resources input

-- ====== control

/-- The three registries. -/
structure Control where
  domains : List Domain
  dnsZones : List Resource
  mailDomains : List Resource

inductive Rejection where
  | domain (e : Domains.Failure)
  | resource (e : Failure)

inductive ControlCall where
  | domain (env : Domains.Env) (call : Domains.Call)
  | resource (env : Env) (type : ResourceType) (call : Call)

namespace Control

/-- The resources of one kind. -/
def resources (s : Control) : ResourceType → List Resource
  | .dnsZone => s.dnsZones
  | .mailDomain => s.mailDomains

def withResources (s : Control) (type : ResourceType)
    (resources : List Resource) : Control :=
  match type with
  | .dnsZone => { s with dnsZones := resources }
  | .mailDomain => { s with mailDomains := resources }

variable (platform : Platform)

/-- What a call that is accepted leads to. -/
def accept (s : Control) : ControlCall → Except Rejection Control
  | .domain env call =>
      match call.effect platform env s.domains with
      | .refused e => .error (.domain e)
      | .spoiled _ e => .error (.domain e)
      | .replied _ => .ok s
      | .written domains reply =>
          match reply domains with
          | .ok _ => .ok { s with domains }
          | .error e => .error (.domain e)
  | .resource env type call =>
      match call.answer platform.toNet env type s.domains
          (s.resources type) with
      | .ok answer => .ok (s.withResources type answer.1)
      | .error e => .error (.resource e)

def step (s : Control) (c : ControlCall) :
    Control × Except Rejection Unit :=
  match s.accept platform c with
  | .ok s' => (s', .ok ())
  | .error e => (s, .error e)

/-- One call after another, a refused one changing nothing. -/
def machine : Machine Control ControlCall (Except Rejection Unit) where
  step := step platform

/-- What the two registries do when the process starts, with the domains
loaded. -/
def start (s : Control) : Except Failure Unit := do
  let _ ← init platform.toNet .dnsZone s.domains s.dnsZones
  let _ ← init platform.toNet .mailDomain s.domains s.mailDomains
  return ()

/-- Nothing is stored. -/
def empty : Control := ⟨[], [], []⟩

end Control

end Yunpanel.Lifecycle
