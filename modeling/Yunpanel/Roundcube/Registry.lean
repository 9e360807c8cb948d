/-
The registry of webmail mappings: previews and mutations.

A binding or a deletion is previewed, confirmed by the digest of the
preview, and written only where the mapping is still as previewed. The
three mutations that follow an operation know its mapping by mail domain
and operation.
-/
import Yunpanel.Roundcube.Mapping

namespace Yunpanel.Roundcube

open Json Lib Lib.Result
open Domains (Net)

-- ====== context

/-- A certificate as its registry knows it. -/
structure Certificate where
  id : Uuid
  domainId : Uuid
  serverId : Uuid
  purpose : String
  state : String
  staging : Bool
  fingerprint256 : String
  updatedAt : Instant
  fullchainPath : Option String
  privateKeyPath : Option String

/-- `getMailDomain` and the fields the registry reads of it. -/
structure MailDomain where
  id : Uuid
  managementMode : String
  status : String
  webDomainId : Option Uuid
  domainName : String
  revision : Nat

structure Domain where
  id : Uuid
  primaryDomain : String
  serverId : Option Uuid
  desiredRevision : Nat

/-- What another registry answers: it may fail, and may know nothing. -/
inductive Lookup (α : Type) where
  | unavailable
  | found (answer : Option α)

/-- `try { … } catch { fail(…) }` -/
def Lookup.read {α : Type} (e : Failure) : Lookup α →
    Except Failure (Option α)
  | unavailable => .error e
  | found answer => .ok answer

/-- What the registry has of the platform: the names of hosts, the text of
a time, and SHA-256 of the text of a value. -/
structure Platform where
  net : Net
  isoDate : Instant → String
  digest : Json → Sha256

def Platform.time (p : Platform) (t : Instant) : Json := .str (p.isoDate t)

/-- What is looked up for a binding; `inspectCertificate` answers with a
fingerprint. -/
structure Lookups where
  mailDomain : Lookup MailDomain
  domain : Lookup Domain
  certificate : Lookup Certificate
  inspected : Lookup String

-- ====== candidates

/-- What a binding binds. -/
structure Candidate where
  mailDomainId : Uuid
  webDomainId : Uuid
  serverId : Uuid
  domainName : String
  hostname : String
  certificateId : Uuid
  certificateFingerprint256 : Fingerprint
  certificateUpdatedAt : Instant
  mailDomainRevision : Nat
  domainRevision : Nat
  deriving DecidableEq

def Candidate.fields (p : Platform) (candidate : Candidate) : Json.Fields :=
  [("mailDomainId", candidate.mailDomainId.json),
    ("webDomainId", candidate.webDomainId.json),
    ("serverId", candidate.serverId.json),
    ("domainName", .str candidate.domainName),
    ("hostname", .str candidate.hostname),
    ("certificateId", candidate.certificateId.json),
    ("certificateFingerprint256", candidate.certificateFingerprint256.json),
    ("certificateUpdatedAt", p.time candidate.certificateUpdatedAt),
    ("mailDomainRevision", .num candidate.mailDomainRevision),
    ("domainRevision", .num candidate.domainRevision)]

/-- `resolveCandidate(mailDomainIdValue, certificateIdValue)` -/
def resolveCandidate (p : Platform) (lookups : Lookups)
    (mailDomainId certificateId : Json) : Except Failure Candidate := do
  let mailDomainId ← uuid "mailDomainId" mailDomainId
  let certificateId ← uuid "certificateId" certificateId
  let mailDomain ← lookups.mailDomain.read
    (refuse "roundcube_mapping_mail_domain_unavailable"
      "Roundcube mapping Mail Domain could not be verified" 503)
  let mailDomain ← demand
    (refuse "mail_domain_not_found" "Mail Domain was not found" 404)
    (mailDomain.filter fun mailDomain => mailDomain.id == mailDomainId)
  let notReady := refuse "roundcube_mapping_mail_domain_not_ready"
    "Roundcube mapping requires an enabled local Mail Domain" 409
  ensure notReady (mailDomain.managementMode == "local"
    && mailDomain.status == "enabled")
  let webDomainId ← demand notReady mailDomain.webDomainId
  let domain ← lookups.domain.read
    (refuse "roundcube_mapping_domain_unavailable"
      "Roundcube mapping web Domain could not be verified" 503)
  let stale := refuse "roundcube_mapping_domain_drift"
    "Roundcube mapping Domain ownership is stale" 409
  let domain ← demand stale (domain.filter fun domain =>
    domain.id == webDomainId && domain.primaryDomain == mailDomain.domainName)
  let serverId ← demand stale domain.serverId
  let certificate ← lookups.certificate.read
    (refuse "roundcube_mapping_certificate_unavailable"
      "Roundcube mapping certificate could not be verified" 503)
  let certificate ← demand
    (refuse "roundcube_mapping_certificate_not_ready"
      ("Roundcube mapping requires an active webmail certificate owned by "
        ++ "the Domain") 409)
    (certificate.filter fun certificate => certificate.id == certificateId
      && certificate.domainId == domain.id && certificate.serverId == serverId
      && certificate.purpose == "webmail" && !certificate.staging
      && certificate.state == "active")
  let domainName ← domainFor p.net domain.primaryDomain
  let inspected ← lookups.inspected.read
    (refuse "roundcube_mapping_certificate_hostname_mismatch"
      "Roundcube mapping certificate does not cover the webmail hostname" 409)
  let fingerprint ← demand
    (refuse "roundcube_mapping_certificate_drift"
      ("Roundcube mapping certificate material does not match registry "
        ++ "evidence") 409)
    ((inspected.bind Fingerprint.ofText?).filter fun fingerprint =>
      fingerprint.text == Certificates.upper certificate.fingerprint256)
  return {
    mailDomainId
    webDomainId
    serverId
    domainName := domain.primaryDomain
    hostname := hostnameOf domainName
    certificateId
    certificateFingerprint256 := fingerprint
    certificateUpdatedAt := certificate.updatedAt
    mailDomainRevision := mailDomain.revision
    domainRevision := domain.desiredRevision }

-- ====== binding

/-- What a binding is confirmed by: the candidate and the mapping it
replaces, which is one that was removed. -/
structure BindPreview where
  currentRevision : Nat
  currentUpdatedAt : Option Instant
  candidate : Candidate
  deriving DecidableEq

namespace BindPreview

def previewDigest (p : Platform) (preview : BindPreview) : Sha256 :=
  p.digest (.obj ([("version", .num 1),
    ("operation", .str "roundcube_domain_mapping_bind"),
    ("currentRevision", .num preview.currentRevision),
    ("currentUpdatedAt", ofOption p.time preview.currentUpdatedAt)]
    ++ preview.candidate.fields p))

def confirmation (p : Platform) (preview : BindPreview) : String :=
  "bind-roundcube-domain:" ++ preview.candidate.mailDomainId.text ++ ":"
    ++ toString preview.currentRevision ++ ":"
    ++ (preview.previewDigest p).text

end BindPreview

/-- Whether a mapping binds what a candidate would bind. -/
def Mapping.unchanged (mapping : Mapping) (candidate : Candidate) : Bool :=
  mapping.webDomainId == candidate.webDomainId
    && mapping.serverId == candidate.serverId
    && mapping.hostname == candidate.hostname
    && mapping.certificateId == candidate.certificateId
    && mapping.certificateFingerprint256
      == candidate.certificateFingerprint256

/-- `previewBind({ mailDomainId, certificateId })` -/
def previewBind (p : Platform) (lookups : Lookups)
    (mailDomainId certificateId : Json) (mappings : List Mapping) :
    Except Failure BindPreview := do
  let candidate ← resolveCandidate p lookups mailDomainId certificateId
  match getRecordForMailDomain candidate.mailDomainId mappings with
  | none => return ⟨0, none, candidate⟩
  | some current =>
      match current.phase with
      | .removed _ _ =>
          return ⟨current.revision.val.toNat, some current.updatedAt, candidate⟩
      | .active =>
          if current.unchanged candidate then
            .error (refuse "roundcube_mapping_no_change"
              "Roundcube Domain mapping is unchanged" 409)
          else .error (refuse "roundcube_mapping_rebind_requires_delete"
            ("Delete the current Roundcube Domain mapping before binding "
              ++ "another certificate") 409)
      | _ => .error inProgress

/-- What a caller sends to begin a binding. -/
structure BindInput where
  mailDomainId : Json
  certificateId : Json
  previewDigest : Json
  confirmation : Json
  operationId : Option Json

/-- The operation identifier asked for, or a fresh one. -/
def ownedOperation (requested : Option Json) (randomUUID : Uuid) :
    Except Failure Reference :=
  match requested with
  | none => reference "operationId" randomUUID.json
  | some value => reference "operationId" value

/-- `beginBind(input)` up to the mutation. -/
def checkBind (p : Platform) (lookups : Lookups) (randomUUID : Uuid)
    (input : BindInput) (mappings : List Mapping) :
    Except Failure (BindPreview × Reference) := do
  let preview ← previewBind p lookups input.mailDomainId input.certificateId
    mappings
  let operationId ← ownedOperation input.operationId randomUUID
  ensure (refuse "roundcube_mapping_confirmation_invalid"
      ("Roundcube Domain mapping preview is stale or confirmation is "
        ++ "invalid") 409)
    ((preview.previewDigest p).json == input.previewDigest
      && .str (preview.confirmation p) == input.confirmation)
  return (preview, operationId)

def revisionConflict : Failure :=
  refuse "roundcube_mapping_revision_conflict"
    "Roundcube Domain mapping changed after preview" 409

/-- The mapping to be replaced is as it was previewed. -/
def BindPreview.current (preview : BindPreview) (existing : Option Mapping) :
    Bool :=
  match existing with
  | none => preview.currentRevision == 0 && preview.currentUpdatedAt.isNone
  | some mapping =>
      mapping.phase.isRemoved && decide (0 < preview.currentRevision)
        && mapping.revision.val == preview.currentRevision
        && some mapping.updatedAt == preview.currentUpdatedAt

/-- The mutation of `beginBind`. -/
def bindMapping (p : Platform) (preview : BindPreview)
    (operationId : Reference) (randomUUID : Uuid) (now : Instant)
    (mappings : List Mapping) : Except Failure (Mapping × List Mapping) := do
  let candidate := preview.candidate
  let existing := getRecordForMailDomain candidate.mailDomainId mappings
  ensure revisionConflict (preview.current existing)
  let revision ← demand (stateInvalid "state is invalid")
    (Ranged.read? (.num (preview.currentRevision + 1)))
  let domainName ← domainFor p.net candidate.domainName
  let record : Mapping := {
    id := randomUUID
    mailDomainId := candidate.mailDomainId
    webDomainId := candidate.webDomainId
    serverId := candidate.serverId
    domainName
    certificateId := candidate.certificateId
    certificateFingerprint256 := candidate.certificateFingerprint256
    revision
    phase := .pending operationId none
    createdAt := (existing.map Mapping.createdAt).getD now
    updatedAt := now }
  return (record, upsert
    (fun mapping => mapping.mailDomainId == candidate.mailDomainId)
    (fun _ => record) mappings)

-- ====== deletion

/-- `previewDelete(mailDomainIdValue)`: the mapping that would be
deleted, an active one. -/
def previewDelete (mailDomainId : Json) (mappings : List Mapping) :
    Except Failure Mapping := do
  let id ← uuid "mailDomainId" mailDomainId
  match getRecordForMailDomain id mappings with
  | some mapping =>
      if mapping.phase = .active then return mapping else .error inProgress
  | none => .error notFound

def Mapping.deleteDigest (p : Platform) (mapping : Mapping) : Sha256 :=
  p.digest (.obj [("version", .num 1),
    ("operation", .str "roundcube_domain_mapping_delete"),
    ("id", mapping.id.json),
    ("mailDomainId", mapping.mailDomainId.json),
    ("webDomainId", mapping.webDomainId.json),
    ("serverId", mapping.serverId.json),
    ("hostname", .str mapping.hostname),
    ("certificateId", mapping.certificateId.json),
    ("certificateFingerprint256", mapping.certificateFingerprint256.json),
    ("revision", mapping.revision.json),
    ("updatedAt", p.time mapping.updatedAt)])

def Mapping.deleteConfirmation (p : Platform) (mapping : Mapping) : String :=
  "delete-roundcube-domain:" ++ mapping.id.text ++ ":"
    ++ toString mapping.revision.val ++ ":" ++ (mapping.deleteDigest p).text

/-- What a caller sends to begin a deletion. -/
structure DeleteInput where
  mailDomainId : Json
  expectedRevision : Json
  previewDigest : Json
  confirmation : Json
  operationId : Option Json

/-- `beginDelete(mailDomainIdValue, input)` up to the mutation. -/
def checkDelete (p : Platform) (randomUUID : Uuid) (input : DeleteInput)
    (mappings : List Mapping) : Except Failure (Mapping × Reference) := do
  let preview ← previewDelete input.mailDomainId mappings
  ensure (refuse "roundcube_mapping_confirmation_invalid"
      ("Roundcube Domain mapping deletion preview is stale or confirmation "
        ++ "is invalid") 409)
    (input.expectedRevision == preview.revision.json
      && input.previewDigest == (preview.deleteDigest p).json
      && input.confirmation == .str (preview.deleteConfirmation p))
  let operationId ← ownedOperation input.operationId randomUUID
  return (preview, operationId)

/-- Change the mapping that a test finds. -/
def modifyMapping (test : Mapping → Bool)
    (change : Mapping → Except Failure Mapping) (mappings : List Mapping) :
    Except Failure (Mapping × List Mapping) := do
  let (i, current) ← demand notFound (locate test mappings)
  let updated ← change current
  return (updated, mappings.set i updated)

/-- The mutation of `beginDelete`. -/
def deleteMapping (preview : Mapping) (operationId : Reference)
    (now : Instant) : List Mapping → Except Failure (Mapping × List Mapping) :=
  modifyMapping (fun mapping => mapping.id == preview.id) fun current => do
    ensure revisionConflict (current.phase == .active
      && current.revision == preview.revision
      && current.updatedAt == preview.updatedAt)
    let revision ← demand (stateInvalid "state is invalid")
      (Ranged.read? (.num (current.revision.val + 1)))
    return { current with
      revision
      phase := .removing operationId none
      updatedAt := now }

-- ====== operations

def operationStale (message : String) : Failure :=
  refuse "roundcube_mapping_operation_stale"
    ("Roundcube Domain mapping " ++ message) 409

/-- Change the mapping of a mail domain that an operation owns. -/
def modifyOwned (mailDomainId : Uuid) (operationId : Reference)
    (stale : Failure) (change : Mapping → Except Failure Phase) :
    List Mapping → Except Failure (Mapping × List Mapping) :=
  modifyMapping (fun mapping => mapping.mailDomainId == mailDomainId)
    fun current => do
      ensure stale (current.phase.operationId? == some operationId)
      let phase ← change current
      return current.withPhase phase

/-- `attachApplyJob(mailDomainIdValue, input)` -/
def attachApplyJob (mailDomainId : Uuid) (operationId : Reference)
    (evidence : Evidence) :
    List Mapping → Except Failure (Mapping × List Mapping) :=
  modifyOwned mailDomainId operationId (operationStale "operation is stale")
    fun current => do
      ensure (refuse "roundcube_mapping_apply_job_conflict"
          ("Roundcube Domain mapping already references another apply job")
          409)
        (current.phase.evidence?.all (· == evidence))
      return current.phase.attached evidence

/-- `replaceFailedApplyJob(mailDomainIdValue, input)` -/
def replaceFailedApplyJob (mailDomainId : Uuid) (operationId : Reference)
    (previousJobId : Reference) (evidence : Evidence) :
    List Mapping → Except Failure (Mapping × List Mapping) :=
  let stale := operationStale "retry operation is stale"
  modifyOwned mailDomainId operationId stale fun current => do
    ensure stale
      (current.phase.evidence?.map Evidence.jobId == some previousJobId)
    return current.phase.attached evidence

/-- `exactSuccessfulJob(mapping, job)` of a mapping with evidence. -/
def exactSuccessfulJob (mapping : Mapping) (evidence : Evidence)
    (job : Jobs.PublicJob) : Bool :=
  let result := (job.result.bind Json.object?).getD []
  job.id.text == evidence.jobId.text
    && job.serverId == mapping.serverId.text
    && job.operation == .roundcubeConfigApply
    && job.resourceType == .server
    && job.resourceId == mapping.serverId.text
    && job.status == .succeeded
    && result.get "previewSha256" == evidence.previewSha256.json
    && result.get "nginxSha256" == evidence.nginxSha256.json
    && result.get "httpHealthy" == .bool true
    && result.get "applied" == .bool true

/-- `completeApply(mailDomainIdValue, { operationId, job })` -/
def completeApply (mailDomainId : Uuid) (operationId : Reference)
    (job : Jobs.PublicJob) :
    List Mapping → Except Failure (Mapping × List Mapping) :=
  modifyOwned mailDomainId operationId (operationStale "completion is stale")
    fun current => do
      let evidence ← demand (refuse "roundcube_mapping_apply_evidence_invalid"
          ("Roundcube apply job does not prove the exact mapping desired "
            ++ "state") 409)
        (current.phase.evidence?.filter fun evidence =>
          exactSuccessfulJob current evidence job)
      return current.phase.completed evidence

end Yunpanel.Roundcube
