/-
The webmail configuration of a server, as it is to be applied.

It is made of the mail identity of the server, the secret of Roundcube and
the mappings that are neither removed nor being removed, each with a
certificate that is looked up again. Its digest is what an apply job is
asked for and what it reports.
-/
import Yunpanel.Js.Collation
import Yunpanel.Roundcube.Registry

namespace Yunpanel.Roundcube

open Json Lib Lib.Result

-- ====== mappings

/-- What the configuration says of a mapping. -/
structure PublicMapping where
  id : Uuid
  mailDomainId : Uuid
  webDomainId : Uuid
  hostname : String
  certificateId : Uuid
  certificateFingerprint256 : Fingerprint
  revision : Revision
  updatedAt : Instant
  deriving DecidableEq

def Mapping.shown (mapping : Mapping) : PublicMapping where
  id := mapping.id
  mailDomainId := mapping.mailDomainId
  webDomainId := mapping.webDomainId
  hostname := mapping.hostname
  certificateId := mapping.certificateId
  certificateFingerprint256 := mapping.certificateFingerprint256
  revision := mapping.revision
  updatedAt := mapping.updatedAt

def PublicMapping.json (p : Platform) (mapping : PublicMapping) : Json :=
  .obj [("id", mapping.id.json),
    ("mailDomainId", mapping.mailDomainId.json),
    ("webDomainId", mapping.webDomainId.json),
    ("hostname", .str mapping.hostname),
    ("certificateId", mapping.certificateId.json),
    ("certificateFingerprint256", mapping.certificateFingerprint256.json),
    ("revision", mapping.revision.json),
    ("updatedAt", p.time mapping.updatedAt)]

structure NginxMapping where
  hostname : String
  fullchainPath : String
  privateKeyPath : String
  deriving DecidableEq

/-- `listMappings({ serverId })` -/
def listMappings (serverId : Uuid) (mappings : List Mapping) : List Mapping :=
  (mappings.filter fun mapping => mapping.serverId == serverId
    && match mapping.phase with
      | .removing _ _ | .removed _ _ => false
      | _ => true).insertionSort
    fun a b => Text.localeCompare a.hostname b.hostname ≠ .gt

/-- The certificate of a mapping, and what is stored of it for a host. -/
structure CertificateLookups where
  getCertificate : Uuid → Lookup Certificate
  inspectStored : Uuid → String → Lookup String

/-- What the loop of `materializeMappings` makes of a mapping. -/
def materializeMapping (certificates : CertificateLookups) (mapping : Mapping) :
    Except Failure (PublicMapping × NginxMapping) := do
  let certificate ← (certificates.getCertificate mapping.certificateId).read
    (refuse "roundcube_mapping_certificate_unavailable"
      "Roundcube Domain mapping certificate could not be read" 503)
  let certificate ← demand (refuse "roundcube_mapping_certificate_drift"
      "Roundcube Domain mapping certificate state changed after binding" 409)
    (certificate.filter fun certificate =>
      certificate.id == mapping.certificateId
        && certificate.domainId == mapping.webDomainId
        && certificate.serverId == mapping.serverId
        && certificate.purpose == "webmail"
        && certificate.state == "active" && !certificate.staging
        && Certificates.upper certificate.fingerprint256
          == mapping.certificateFingerprint256.text)
  let material ←
    (certificates.inspectStored certificate.id mapping.hostname).read
      (refuse "roundcube_mapping_certificate_material_invalid"
        ("Roundcube Domain mapping certificate material no longer covers its "
          ++ "hostname") 409)
  let drifted := refuse "roundcube_mapping_certificate_material_drift"
    "Roundcube Domain mapping certificate material changed after binding" 409
  ensure drifted (material.any fun fingerprint =>
    Certificates.upper fingerprint == mapping.certificateFingerprint256.text)
  let fullchainPath ← demand drifted certificate.fullchainPath
  let privateKeyPath ← demand drifted certificate.privateKeyPath
  return (mapping.shown,
    ⟨mapping.hostname, fullchainPath, privateKeyPath⟩)

/-- `materializeMappings(id)`, of the mappings as they were listed. -/
def materializeMappings (certificates : CertificateLookups)
    (mappings : List Mapping) :
    Except Failure (List PublicMapping × List NginxMapping) := do
  let made ← mappings.mapM (materializeMapping certificates)
  return ((made.map Prod.fst).insertionSort
      fun a b => Text.localeCompare a.hostname b.hostname ≠ .gt,
    (made.map Prod.snd).insertionSort
      fun a b => Text.localeCompare a.hostname b.hostname ≠ .gt)

-- ====== configuration

/-- The mail service of a server. -/
structure MailIdentity where
  hostname : String
  certificateId : Uuid
  certificateFingerprint256 : String
  fullchainPath : String
  privateKeyPath : String
  revision : Nat
  deriving DecidableEq

structure Secret where
  desKey : String
  revision : Nat
  deriving DecidableEq

/-- What the templates render: the digests of the files, and the paths and
units they name. -/
structure Rendered where
  configSha256 : Sha256
  fpmSha256 : Sha256
  nginxSha256 : Sha256
  databasePath : String
  publicRoot : String
  fpmSocketPath : String
  fpmServiceUnit : String
  nginxServiceUnit : String
  webEndpoint : String
  deriving DecidableEq

/-- The platform, the templates and the protocol of jobs; a template may
throw. -/
structure Context extends Platform where
  render : MailIdentity → Secret → List NginxMapping → Option Rendered
  proto : Jobs.Protocol

/-- `identityRecord` -/
structure Configuration where
  serverId : Uuid
  identity : MailIdentity
  secretRevision : Nat
  rendered : Rendered
  mappings : List PublicMapping
  deriving DecidableEq

namespace Configuration

def json (p : Platform) (config : Configuration) : Json :=
  .obj [("version", .num 1),
    ("serverId", config.serverId.json),
    ("mailHostname", .str config.identity.hostname),
    ("certificateId", config.identity.certificateId.json),
    ("certificateFingerprint256",
      .str config.identity.certificateFingerprint256),
    ("mailServiceIdentityRevision", .num config.identity.revision),
    ("roundcubeSecretRevision", .num config.secretRevision),
    ("configSha256", config.rendered.configSha256.json),
    ("fpmSha256", config.rendered.fpmSha256.json),
    ("nginxSha256", config.rendered.nginxSha256.json),
    ("databasePath", .str config.rendered.databasePath),
    ("publicRoot", .str config.rendered.publicRoot),
    ("fpmSocketPath", .str config.rendered.fpmSocketPath),
    ("fpmServiceUnit", .str config.rendered.fpmServiceUnit),
    ("nginxServiceUnit", .str config.rendered.nginxServiceUnit),
    ("webEndpoint", .str config.rendered.webEndpoint),
    ("mappings", .arr (config.mappings.map (PublicMapping.json p)))]

/-- `digest(identityRecord)` -/
def sha256 (p : Platform) (config : Configuration) : Sha256 :=
  p.digest (config.json p)

/-- What a job that applies the configuration is to prove. -/
def evidence (p : Platform) (config : Configuration) (jobId : Reference) :
    Evidence :=
  ⟨jobId, config.sha256 p, config.rendered.nginxSha256⟩

/-- `previewIncludesPendingMapping(preview, mapping)` -/
def includes (config : Configuration) (mapping : Mapping) : Bool :=
  (config.mappings.filter (· == mapping.shown)).length == 1

/-- `previewExcludesRemovingMapping(preview, mapping)` -/
def excludes (config : Configuration) (mapping : Mapping) : Bool :=
  !config.mappings.any fun candidate => candidate.id == mapping.id
    || candidate.mailDomainId == mapping.mailDomainId
    || candidate.hostname == mapping.hostname

/-- Whether a configuration is what the operation under way of a mapping
wants. -/
def fulfils (config : Configuration) (mapping : Mapping) : Bool :=
  match mapping.phase with
  | .pending _ _ => config.includes mapping
  | .removing _ _ => config.excludes mapping
  | .active | .removed _ _ => false

end Configuration

/-- What the other registries hand out for a configuration; each may fail
with an error of its own. -/
structure Materials where
  identity : Except Failure MailIdentity
  secret : Except Failure Secret
  certificates : CertificateLookups

/-- An error of a status is handed on, any other is wrapped. -/
def previewUnavailable : Failure :=
  refuse "roundcube_mapping_preview_unavailable"
    "Roundcube desired state could not be materialized" 503

/-- `materializeCurrent(id)`, of the mappings as they were listed. -/
def materializeCurrent (c : Context) (materials : Materials)
    (serverId : Uuid) (mappings : List Mapping) :
    Except Failure Configuration := do
  let identity ← materials.identity
  let secret ← materials.secret
  let (publicMappings, nginxMappings) ←
    materializeMappings materials.certificates mappings
  let rendered ← demand previewUnavailable
    (c.render identity secret nginxMappings)
  return {
    serverId
    identity
    secretRevision := secret.revision
    rendered
    mappings := publicMappings }

end Yunpanel.Roundcube
