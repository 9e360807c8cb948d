/-
The records of the certificate store, and how they are read back.

# What is kept

A certificate belongs to one domain of one server. Its names, the material
it was issued or imported as, and what became of it: retired with its
domain, or replaced by another. Where its state says that there is
material, its three paths are the ones of its directory.

# Earlier stores

A record of an earlier version gets what that version did not have yet
before it is checked; whatever stands in those fields is overwritten.
-/
import Yunpanel.Js.Fields
import Yunpanel.Js.Path
import Yunpanel.Domains.Names

namespace Yunpanel.Certificates

open Domains (Net)

-- ====== failures

/-- Why a call rejects: `CertificateRegistryError`, a write that failed, or
a file that is no store of certificates. -/
inductive Failure where
  | registry (code message : String) (status : Nat)
  | store
  | invalidStore
  deriving DecidableEq, Repr

/-- `new CertificateRegistryError(code, message, status)` -/
def refuse (code message : String) (status : Nat := 400) : Failure :=
  .registry code message status

def ensure (e : Failure) (condition : Bool) : Except Failure Unit :=
  if condition then .ok () else .error e

def demand {α : Type} (e : Failure) : Option α → Except Failure α
  | some a => .ok a
  | none => .error e

-- ====== records

/-- `CERT_STATES` -/
inductive State where
  | pending
  | validating
  | validated
  | issuing
  | active
  | renewing
  | superseded
  | retired
  | error
  deriving DecidableEq, Repr

/-- `CERTIFICATE_SOURCES` -/
inductive Source where
  | acme
  | custom
  deriving DecidableEq, Repr

/-- `RENEWAL_MODES` -/
inductive RenewalMode where
  | automatic
  | manual
  deriving DecidableEq, Repr

/-- `CERTIFICATE_PURPOSES` -/
inductive Purpose where
  | web
  | webmail
  deriving DecidableEq, Repr

inductive Challenge where
  | http01
  | dns01 (credentialId dnsZoneId : Uuid) (propagationSeconds : Ranged 10 120)
  deriving DecidableEq

structure Certificate where
  id : String
  domainId : String
  serverId : String
  certName : String
  domains : List String
  certificateNames : List String
  challenge : Option Challenge
  email : Option String
  staging : Bool
  source : Source
  purpose : Purpose
  renewalMode : RenewalMode
  state : State
  certificatePath : Option String
  fullchainPath : Option String
  privateKeyPath : Option String
  subject : Option String
  issuer : Option String
  subjectAltName : Option String
  validFrom : Option Instant
  validTo : Option Instant
  fingerprint256 : Option String
  lastValidatedAt : Option Instant
  lastIssuedAt : Option Instant
  lastRenewedAt : Option Instant
  lastImportedAt : Option Instant
  provisioningOperationId : Option String
  retirementOperationId : Option String
  retiredAt : Option Instant
  retiredFromState : Option State
  retiredFromUpdatedAt : Option Instant
  materialPurgedAt : Option Instant
  materialDigest : Option String
  lastError : Option String
  createdAt : Instant
  updatedAt : Instant
  deriving DecidableEq

/-- The directories material is kept under. -/
structure Roots where
  acmeLiveRoot : String
  customRoot : String

-- ====== checks

/-- `SAFE_OPERATION_ID` -/
def isSafeOperationId (s : String) : Bool :=
  Text.inClass
    (fun c => Text.isAlnum c || ['.', '_', ':', '@', '-'].contains c) 1 160 s

/-- `UUID_PATTERN` -/
def isUuid (s : String) : Bool := (Uuid.ofText? s).isSome

/-- `normalizeDomains` -/
def normalizeDomains (net : Net) (domains : List String) :
    Except Failure (List String) :=
  let invalid := refuse "invalid_certificate_domains"
    "Certificate domains are invalid"
  match domains with
  | [] => .error invalid
  | primary :: aliases =>
      if 20 < aliases.length then .error invalid
      else
        match Domains.normalizeDomains net primary aliases with
        | .ok names => .ok (names.primary :: names.aliases)
        | .error _ => .error invalid

/-- `domain.startsWith('*.')` -/
def isWildcard (domain : String) : Bool :=
  ['*', '.'].isPrefixOf domain.toList

/-- One name of a certificate; nothing where it is none. -/
def normalizeCertificateName (net : Net) (domain : String) :
    Option String :=
  if isWildcard domain then
    match Domains.assertDomainName net
        (String.ofList (domain.toList.drop 2)) with
    | .ok name => some ("*." ++ name)
    | .error _ => none
  else if domain.toList.contains '*' then none
  else (Domains.assertDomainName net domain).toOption

/-- `normalizeCertificateNames`; `dns` is whether the challenge is one over
DNS. -/
def normalizeCertificateNames (net : Net) (domains : List String)
    (dns : Bool) : Except Failure (List String) := do
  let invalid := refuse "invalid_certificate_domains"
    "Certificate names are invalid"
  ensure invalid (decide (1 ≤ domains.length ∧ domains.length ≤ 21))
  let values ← demand invalid (domains.mapM (normalizeCertificateName net))
  ensure invalid (decide values.Nodup && !values.head?.any isWildcard)
  ensure (refuse "wildcard_not_supported"
      "Wildcard certificates require DNS-01" 409)
    (!values.any isWildcard || dns)
  return values

def Challenge.isDns : Option Challenge → Bool
  | some (.dns01 _ _ _) => true
  | _ => false

/-- `normalizeChallenge`, of a challenge that was read. -/
def normalizeChallenge (custom : Bool) (challenge : Option Challenge) :
    Except Failure (Option Challenge) :=
  if custom then
    match challenge with
    | none => .ok none
    | some _ => .error (refuse "invalid_certificate_challenge"
        "Custom certificate challenge must be null")
  else .ok (some (challenge.getD .http01))

/-- The directory of a certificate's material, and a file in it. -/
def Certificate.expectedPath (roots : Roots) (c : Certificate)
    (file : String) : String :=
  let directory :=
    match c.source with
    | .custom => Path.join [roots.customRoot, c.id]
    | .acme => Path.join [roots.acmeLiveRoot, c.certName]
  Path.join [directory, file]

def validateCertificatePath (roots : Roots) (c : Certificate)
    (value : Option String) (expectedFile : String) :
    Except Failure String := do
  let path ← demand (refuse "invalid_certificate_path"
    "Certificate path metadata is invalid") value
  ensure (refuse "invalid_certificate_path"
      "Certificate path is outside its managed material directory")
    (path == c.expectedPath roots expectedFile)
  return path

/-- The three paths of a certificate. -/
def validatePaths (roots : Roots) (c : Certificate) : Except Failure Unit := do
  let _ ← validateCertificatePath roots c c.certificatePath "cert.pem"
  let _ ← validateCertificatePath roots c c.fullchainPath "fullchain.pem"
  let _ ← validateCertificatePath roots c c.privateKeyPath "privkey.pem"
  return ()

/-- The states that require material. -/
def State.isMaterial : State → Bool
  | .pending | .validating | .validated | .issuing | .error => false
  | .active | .renewing | .superseded | .retired => true

/-- The state that says whether there is material: the one before the
retirement of a retired certificate. -/
def Certificate.materialState (c : Certificate) : State :=
  if c.state = .retired then c.retiredFromState.getD .retired else c.state

-- ====== migration

/-- What a record of a version gets that it did not have yet. -/
def migrate (version : Nat) (c : Certificate) : Certificate :=
  let c :=
    if version < 2 then
      { c with
        source := .acme
        renewalMode := .automatic
        materialDigest := none
        lastImportedAt := none }
    else c
  let c :=
    if version < 3 then
      { c with
        certificateNames := c.domains
        challenge :=
          match c.source with
          | .acme => some .http01
          | .custom => none }
    else c
  let c :=
    if version < 4 then
      { c with
        retirementOperationId := none
        retiredAt := none
        retiredFromState := none
        retiredFromUpdatedAt := none }
    else c
  let c := if version < 5 then { c with provisioningOperationId := none } else c
  let c := if version < 6 then { c with purpose := .web } else c
  if version < 7 then { c with materialPurgedAt := none } else c

def invalidState (message : String) : Failure :=
  refuse "invalid_certificate_state" message 409

/-- Whether a certificate is retired, with all there is to say about it, or
is not, with none of it. -/
def Certificate.retirementAgrees (c : Certificate) : Bool :=
  let evidence := c.retirementOperationId.any isSafeOperationId
    && c.retiredAt.isSome
    && c.retiredFromState.any (· != .retired)
    && c.retiredFromUpdatedAt.isSome
  (c.state == .retired) == evidence
    && (c.state == .retired
      || (c.retirementOperationId.isNone && c.retiredAt.isNone
        && c.retiredFromState.isNone && c.retiredFromUpdatedAt.isNone))

/-- The policy of a source. -/
def Source.mode : Source → RenewalMode
  | .acme => .automatic
  | .custom => .manual

/-- `hydrateCertificate`, after its defaults. -/
def checkCertificate (net : Net) (roots : Roots) (c : Certificate) :
    Except Failure Certificate := do
  ensure (invalidState
      "Persisted certificate material purge evidence is invalid")
    (c.materialPurgedAt.isNone || c.state == .retired)
  ensure (invalidState
      "Persisted certificate provisioning ownership is invalid")
    (c.provisioningOperationId.all isSafeOperationId)
  ensure (invalidState "Persisted certificate source policy is invalid")
    (c.renewalMode == c.source.mode)
  ensure (invalidState "Persisted certificate retirement evidence is invalid")
    c.retirementAgrees
  ensure (invalidState "Persisted custom certificate identity is invalid")
    (c.source != .custom || isUuid c.id)
  let challenge ← normalizeChallenge (c.source == .custom) c.challenge
  let certificateNames ← normalizeCertificateNames net c.certificateNames
    (Challenge.isDns challenge)
  let c := { c with challenge, certificateNames }
  if c.materialState.isMaterial then validatePaths roots c
  return c

def hydrateCertificate (net : Net) (roots : Roots) (sourceVersion : Nat)
    (c : Certificate) : Except Failure Certificate :=
  checkCertificate net roots (migrate sourceVersion c)

/-- `STORE_VERSION` -/
def storeVersion : Nat := 7

/-- `init`, of a store of a version. -/
def init (net : Net) (roots : Roots) (version : Nat)
    (stored : List Certificate) : Except Failure (List Certificate) := do
  ensure .invalidStore ([1, 2, 3, 4, 5, storeVersion].contains version)
  stored.mapM (hydrateCertificate net roots version)

end Yunpanel.Certificates
