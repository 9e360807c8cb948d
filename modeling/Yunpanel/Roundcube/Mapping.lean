/-
Webmail hosts of mail domains: the mapping and its phases.

A mapping is bound as `pending` and `active` once a job has applied the
configuration of its server with it; to delete it, it is `removing`, and
`removed` once a job has applied one without it. Until then it carries the
operation that owns it and, once there is one, the job and what the job is
to have applied: `Phase` says which of these a state has, so that a record
whose evidence contradicts its state cannot be written down.
-/
import Yunpanel.Certificates.Registry
import Yunpanel.Domains.Names
import Yunpanel.Jobs.Registry
import Yunpanel.Lib.Table

namespace Yunpanel.Roundcube

open Json Lib Lib.Result
open Domains (Net)

-- ====== failures

/-- An error of the registry, the service or the configuration, an error
of the job registry, or a write that failed. -/
inductive Failure where
  | refused (code message : String) (status : Nat)
  | job (e : Jobs.Failure)
  | store
  deriving DecidableEq

def refuse (code message : String) (status : Nat := 400) : Failure :=
  .refused code message status

def stateInvalid (message : String) : Failure :=
  refuse "roundcube_mapping_state_invalid"
    ("Roundcube Domain mapping " ++ message) 409

def inProgress : Failure :=
  refuse "roundcube_mapping_operation_in_progress"
    "Roundcube Domain mapping already has an operation in progress" 409

def notFound : Failure :=
  refuse "roundcube_mapping_not_found"
    "Roundcube Domain mapping was not found" 404

-- ====== fields

/-- `uuid(value, field)` -/
def uuid (field : String) (value : Json) : Except Failure Uuid :=
  demand (refuse "roundcube_mapping_identity_invalid" (field ++ " is invalid"))
    (Uuid.read? value)

/-- `SAFE_OPERATION_ID` -/
def isReference (s : String) : Bool :=
  Text.inClass (fun c => Text.isKeyChar c || c == '@') 8 160 s

abbrev Reference := Matching isReference

/-- `optionalReference(value, field)` of a value that is there. -/
def reference (field : String) (value : Json) : Except Failure Reference :=
  demand (stateInvalid (field ++ " is invalid")) (Matching.read? value)

abbrev Revision := Ranged 1 9007199254740991

/-- A fingerprint as the records keep it, in upper case. -/
abbrev Fingerprint := Matching fun s =>
  Certificates.isFingerprint s && Certificates.upper s == s

/-- `FINGERPRINT_PATTERN` and `toUpperCase`. -/
def Fingerprint.ofText? (s : String) : Option Fingerprint :=
  if Certificates.isFingerprint s then Matching.ofText? (Certificates.upper s)
  else none

/-- `hostnameFor` without the name of the host. -/
def domainFor (net : Net) (domainName : String) : Except Failure String :=
  match Domains.normalizeDomains net domainName [] with
  | .ok names => .ok names.primary
  | .error _ => .error (refuse "roundcube_mapping_domain_invalid"
      "Roundcube Domain mapping domain is invalid" 409)

def hostnameOf (domainName : String) : String := "webmail." ++ domainName

-- ====== mappings

/-- The job of an operation and the digests it is to have applied. -/
structure Evidence where
  jobId : Reference
  previewSha256 : Sha256
  nginxSha256 : Sha256
  deriving DecidableEq

/-- The state of a mapping with what a state carries. -/
inductive Phase where
  | pending (operationId : Reference) (evidence : Option Evidence)
  | active
  | removing (operationId : Reference) (evidence : Option Evidence)
  | removed (operationId : Reference) (evidence : Evidence)
  deriving DecidableEq

namespace Phase

def operationId? : Phase → Option Reference
  | pending operationId _ => some operationId
  | active => none
  | removing operationId _ => some operationId
  | removed operationId _ => some operationId

def evidence? : Phase → Option Evidence
  | pending _ evidence => evidence
  | active => none
  | removing _ evidence => evidence
  | removed _ evidence => some evidence

/-- `['pending', 'removing'].includes(mapping.state)` -/
def inFlight : Phase → Bool
  | pending _ _ | removing _ _ => true
  | active | removed _ _ => false

def isPending : Phase → Bool
  | pending _ _ => true
  | _ => false

def isRemoved : Phase → Bool
  | removed _ _ => true
  | _ => false

/-- `{ ...current, applyJobId, expected… }` of a mapping an operation
owns. -/
def attached (evidence : Evidence) : Phase → Phase
  | pending operationId _ => pending operationId (some evidence)
  | active => active
  | removing operationId _ => removing operationId (some evidence)
  | removed operationId _ => removed operationId evidence

/-- What a completed operation leaves, of a mapping with evidence. Only a
mapping that is being removed becomes removed: any other becomes active,
one that is removed already among them. -/
def completed (evidence : Evidence) : Phase → Phase
  | removing operationId _ => removed operationId evidence
  | _ => active

end Phase

/-- A mapping; its host name is that of its domain. -/
structure Mapping where
  id : Uuid
  mailDomainId : Uuid
  webDomainId : Uuid
  serverId : Uuid
  domainName : String
  certificateId : Uuid
  certificateFingerprint256 : Fingerprint
  revision : Revision
  phase : Phase
  createdAt : Instant
  updatedAt : Instant
  deriving DecidableEq

def Mapping.hostname (mapping : Mapping) : String :=
  hostnameOf mapping.domainName

def Mapping.withPhase (mapping : Mapping) (phase : Phase) : Mapping :=
  { mapping with phase }

@[simp] theorem Mapping.withPhase_phase (mapping : Mapping) (phase : Phase) :
    (mapping.withPhase phase).phase = phase := rfl

@[simp] theorem Mapping.withPhase_mailDomainId (mapping : Mapping)
    (phase : Phase) :
    (mapping.withPhase phase).mailDomainId = mapping.mailDomainId := rfl

@[simp] theorem Mapping.withPhase_revision (mapping : Mapping)
    (phase : Phase) :
    (mapping.withPhase phase).revision = mapping.revision := rfl

@[simp] theorem Mapping.withPhase_withPhase (mapping : Mapping)
    (phase phase' : Phase) :
    (mapping.withPhase phase).withPhase phase' = mapping.withPhase phase' :=
  rfl

-- ====== the store

/-- The tests of `validateRelationships`. -/
structure Distinct (mappings : List Mapping) : Prop where
  ids : (mappings.map Mapping.id).Nodup
  mailDomains : (mappings.map Mapping.mailDomainId).Nodup
  webDomains : (mappings.map Mapping.webDomainId).Nodup
  hostnames : (mappings.map Mapping.hostname).Nodup

instance (mappings : List Mapping) : Decidable (Distinct mappings) :=
  decidable_of_iff
    ((mappings.map Mapping.id).Nodup
      ∧ (mappings.map Mapping.mailDomainId).Nodup
      ∧ (mappings.map Mapping.webDomainId).Nodup
      ∧ (mappings.map Mapping.hostname).Nodup)
    ⟨fun ⟨hi, hm, hw, hh⟩ => ⟨hi, hm, hw, hh⟩,
      fun ⟨hi, hm, hw, hh⟩ => ⟨hi, hm, hw, hh⟩⟩

def validateRelationships (mappings : List Mapping) : Except Failure Unit :=
  ensure (stateInvalid "identities are duplicated")
    (decide (Distinct mappings))

/-- The mapping of a mail domain. -/
def getRecordForMailDomain (mailDomainId : Uuid) (mappings : List Mapping) :
    Option Mapping :=
  mappings.find? fun mapping => mapping.mailDomainId == mailDomainId

/-- `mutate(operation)` up to the write: what the operation returns, and
the mappings to be stored. -/
def mutate (operation : List Mapping → Except Failure (Mapping × List Mapping))
    (mappings : List Mapping) : Except Failure (Mapping × List Mapping) := do
  let (result, next) ← operation mappings
  validateRelationships next
  return (result, next)

end Yunpanel.Roundcube
