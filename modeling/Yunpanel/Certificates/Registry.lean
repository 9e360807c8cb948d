/-
The certificate registry: its calls, and the machine they make.

# How a call is split

A call runs from its last wait to its write without another call in
between. A certificate that is imported and cannot be saved is taken out of
memory again: the chain remembers beside each write which certificate that
would be.

# How the routes call it

Most calls may come at any time with any arguments. `setState` may not: the
routes and the renewal sweep set a certificate to be renewed, or active
again after a dry run, only once they have found it active. `Routes` keeps
which certificates that were.
-/
import Yunpanel.Lib.WriteChain
import Yunpanel.Lib.Table
import Yunpanel.Lib.Result
import Yunpanel.Certificates.Certificate

namespace Yunpanel.Certificates

open Lib Json
open Domains (Net)

-- ====== texts

/-- `s.slice(0, n)`; half a character is none. -/
def takeUnits : Nat → List Char → List Char
  | _, [] => []
  | n, c :: cs =>
      if Text.units c ≤ n then c :: takeUnits (n - Text.units c) cs else []

def shorten (n : Nat) (s : String) : String :=
  String.ofList (takeUnits n s.toList)

/-- A hexadecimal digit of either case. -/
def isHexDigit (c : Char) : Bool := Text.isHex c || ('A' ≤ c && c ≤ 'F')

/-- `SHA256_FINGERPRINT`: thirty-two pairs of digits with colons between
them. -/
def isFingerprint (s : String) : Bool :=
  Text.shape
    (((List.replicate 31 [isHexDigit, isHexDigit, (· == ':')]).flatten)
      ++ [isHexDigit, isHexDigit]) s.toList

def upper (s : String) : String := String.ofList (s.toList.map Char.toUpper)

/-- `/^[^\s@]+@[^\s@]+\.[^\s@]+$/` -/
def isEmail (s : String) : Bool :=
  let plain := fun c => !Text.isSpace c && c != '@'
  let name := s.toList.takeWhile plain
  match s.toList.dropWhile plain with
  | '@' :: host =>
      !name.isEmpty && host.all plain && (host.drop 1).dropLast.contains '.'
  | _ => false

def validateEmail (email : Json) : Except Failure String := do
  let text ← demand (refuse "invalid_acme_email"
      "ACME account email is invalid")
    (email.str?.filter fun s => decide (Text.length s ≤ 254) && isEmail s)
  return String.ofList (Text.lower text.toList)

-- ====== requests

/-- `normalizeChallenge`, of a request. -/
def readChallenge (value : Json) : Except Failure Challenge :=
  let invalid := refuse "invalid_certificate_challenge"
    "DNS certificate challenge is invalid"
  match value with
  | .null => .ok .http01
  | .obj fields =>
      if Fields.get fields "type" = .str "http-01" ∧ fields.length = 1 then
        .ok .http01
      else do
        let fields ← demand invalid (Json.exactObject
          ["type", "provider", "credentialId", "dnsZoneId",
            "propagationSeconds"] (.obj fields))
        ensure invalid (Fields.get fields "type" == .str "dns-01"
          && Fields.get fields "provider" == .str "cloudflare")
        let credentialId ← demand invalid
          (fields.read "credentialId" Uuid.read?)
        let dnsZoneId ← demand invalid (fields.read "dnsZoneId" Uuid.read?)
        let propagationSeconds ← demand invalid
          (fields.read "propagationSeconds" Ranged.read?)
        return .dns01 credentialId dnsZoneId propagationSeconds
  | _ => .error (refuse "invalid_certificate_challenge"
      "Certificate challenge is invalid")

def Purpose.ofText? : String → Option Purpose
  | "web" => some web
  | "webmail" => some webmail
  | _ => none

def State.ofText? : String → Option State
  | "pending" => some pending
  | "validating" => some validating
  | "validated" => some validated
  | "issuing" => some issuing
  | "active" => some active
  | "renewing" => some renewing
  | "superseded" => some superseded
  | "retired" => some retired
  | "error" => some error
  | _ => none

/-- What a call finds around it. -/
structure Env where
  now : Instant
  randomUUID : Uuid

inductive Reply where
  | certificate (c : Certificate)
  | change (changed : Bool) (c : Certificate)
  | found (c : Option Certificate)
  | certificates (cs : List Certificate)

abbrev CertificateEffect := Effect (List Certificate) Failure Reply

/-- The record of an id, or the one a call left where it is gone by now. -/
def current (c : Certificate) (certs : List Certificate) : Certificate :=
  (certs.find? fun candidate => candidate.id == c.id).getD c

/-- `requireCertificate`, and what a call then does with it. -/
def onCertificate (certificateId : String)
    (f : Nat → Certificate → CertificateEffect) (certs : List Certificate) :
    CertificateEffect :=
  match locate (fun c => c.id == certificateId) certs with
  | none => .refused
      (refuse "certificate_not_found" "Certificate not found" 404)
  | some (i, c) => f i c

/-- Write a certificate and answer with it. -/
def saved (certs : List Certificate) (i : Nat) (c : Certificate) :
    CertificateEffect :=
  .written (certs.set i c) fun certs => .ok (.certificate (current c certs))

-- ====== creating

structure NewCertificate where
  domainId : String
  serverId : String
  domains : List String
  certificateNames : Option (List String)
  challenge : Json
  email : Json
  staging : Bool
  replaceExisting : Json
  provisioningOperationId : Json
  purpose : String

/-- Whether a certificate is in the way of a new one. -/
def NewCertificate.blockedBy (input : NewCertificate) (purpose : Purpose)
    (replaceExisting : Bool) (c : Certificate) : Bool :=
  if c.domainId ≠ input.domainId ∨ c.purpose ≠ purpose
      ∨ c.state ∈ [.error, .superseded, .retired] then false
  else if input.staging then
    c.staging && [State.pending, .validating].contains c.state
  else if c.staging then false
  else if c.state ∈ [.pending, .issuing, .renewing] then true
  else !replaceExisting

/-- An operation id, or none. -/
def readOperationId : Json → Option (Option String)
  | .null => some none
  | .str s => if isSafeOperationId s then some (some s) else none
  | _ => none

/-- The record of a new certificate, once its request is checked. -/
def newCertificate (net : Net) (env : Env) (input : NewCertificate)
    (certs : List Certificate) : Except Failure Certificate := do
  ensure (refuse "invalid_domain" "domainId is required")
    (input.domainId != "")
  ensure (refuse "invalid_server" "serverId is required")
    (input.serverId != "")
  let domains ← normalizeDomains net input.domains
  let purpose ← demand (refuse "invalid_certificate_purpose"
    "Certificate purpose is invalid") (Purpose.ofText? input.purpose)
  let challenge ← readChallenge input.challenge
  let certificateNames ← normalizeCertificateNames net
    (input.certificateNames.getD input.domains)
    (Challenge.isDns (some challenge))
  let replaceExisting ← demand (refuse "invalid_certificate_replacement"
    "Certificate replacement policy is invalid") input.replaceExisting.bool?
  let provisioningOperationId ←
    demand (refuse "invalid_certificate_provisioning_operation"
      "Certificate provisioning operation identity is invalid")
      (readOperationId input.provisioningOperationId)
  ensure
    (if input.staging then
      refuse "certificate_validation_in_progress"
        "A certificate validation is already in progress" 409
    else
      refuse "certificate_exists"
        "Domain already has a managed production certificate record" 409)
    (!certs.any (input.blockedBy purpose replaceExisting))
  let email ← validateEmail input.email
  return {
    id := env.randomUUID.text
    domainId := input.domainId
    serverId := input.serverId
    certName := certificateNames.headD ""
    domains
    certificateNames
    challenge := some challenge
    email := some email
    staging := input.staging
    source := .acme
    purpose
    renewalMode := .automatic
    state := .pending
    certificatePath := none
    fullchainPath := none
    privateKeyPath := none
    subject := none
    issuer := none
    subjectAltName := none
    validFrom := none
    validTo := none
    fingerprint256 := none
    lastValidatedAt := none
    lastIssuedAt := none
    lastRenewedAt := none
    lastImportedAt := none
    provisioningOperationId
    retirementOperationId := none
    retiredAt := none
    retiredFromState := none
    retiredFromUpdatedAt := none
    materialPurgedAt := none
    materialDigest := none
    lastError := none
    createdAt := env.now
    updatedAt := env.now }

def createForDomain (net : Net) (env : Env) (input : NewCertificate)
    (certs : List Certificate) : CertificateEffect :=
  match newCertificate net env input certs with
  | .error e => .refused e
  | .ok c =>
      .written (certs ++ [c]) fun certs =>
        .ok (.certificate (current c certs))

-- ====== states

def alreadyRetired : Failure :=
  refuse "certificate_retired" "Retired certificate state is immutable" 409

/-- The state a call of `setState` asks for. -/
def Certificate.requestedState (c : Certificate) (nextState : String) :
    Option State :=
  let nextState := if c.staging ∧ nextState = "issuing" then "validating"
    else nextState
  (State.ofText? nextState).filter (· != .retired)

def setState (now : Instant) (nextState : String) (certs : List Certificate)
    (i : Nat) (c : Certificate) : CertificateEffect :=
  if c.state = .retired then .refused alreadyRetired
  else
    match c.requestedState nextState with
    | none => .refused (refuse "invalid_certificate_state"
        "Certificate state is invalid")
    | some state => saved certs i { c with state, updatedAt := now }

/-- What the host reports of a certificate; dates as they parse. -/
structure Result where
  certName : Option String
  domains : Option (List String)
  status : Option String
  staging : Option Bool
  validFrom : Option Instant
  validTo : Option Instant
  fingerprint256 : Option String
  certificatePath : Option String
  fullchainPath : Option String
  privateKeyPath : Option String
  subject : Option String
  issuer : Option String
  subjectAltName : Option String

def assertResultIdentity (net : Net) (c : Certificate)
    (result : Option Result) : Except Failure Result := do
  let result ← demand (refuse "invalid_certificate_result"
    "Certificate result is invalid") result
  ensure (refuse "certificate_name_mismatch"
      "Certificate name does not match desired state" 409)
    (result.certName == some c.certName)
  let names ← normalizeCertificateNames net
    (result.domains.getD c.certificateNames) (Challenge.isDns c.challenge)
  ensure (refuse "certificate_domain_mismatch"
      "Certificate domains do not match desired state" 409)
    ("\n".intercalate names == "\n".intercalate c.certificateNames)
  return result

/-- The record `markValidated` writes. -/
def validated (net : Net) (now : Instant) (result : Option Result)
    (c : Certificate) : Except Failure Certificate := do
  ensure alreadyRetired (c.state != .retired)
  ensure (refuse "validation_record_required"
      "Only validation records can be marked validated" 409) c.staging
  let result ← assertResultIdentity net c result
  ensure (refuse "invalid_validation_result"
      "ACME validation result is invalid")
    (result.status == some "validated" && result.staging == some true)
  return { c with
    state := .validated
    lastValidatedAt := some now
    lastError := none
    updatedAt := now }

/-- The record of a checked change, or its error. -/
def savedResult (certs : List Certificate) (i : Nat) :
    Except Failure Certificate → CertificateEffect
  | .ok c => saved certs i c
  | .error e => .refused e

def markValidated (net : Net) (now : Instant) (result : Option Result)
    (certs : List Certificate) (i : Nat) (c : Certificate) :
    CertificateEffect :=
  savedResult certs i (validated net now result c)

def invalidMetadata (message : String) : Failure :=
  refuse "invalid_certificate_metadata" message

def validateDate (value : Option Instant) (fieldName : String) :
    Except Failure Instant :=
  demand (invalidMetadata (fieldName ++ " is invalid")) value

/-- The record `markActive` writes. -/
def activated (net : Net) (roots : Roots) (now : Instant) (renewal : Bool)
    (result : Option Result) (c : Certificate) :
    Except Failure Certificate := do
  ensure (refuse "managed_certificate_required"
      ("Only managed ACME certificates can reconcile issue or renewal "
        ++ "results") 409)
    (c.source == .acme)
  let result ← assertResultIdentity net c result
  let validFrom ← validateDate result.validFrom "validFrom"
  let validTo ← validateDate result.validTo "validTo"
  ensure (invalidMetadata "Certificate validity window is invalid")
    (decide (validFrom.ms < validTo.ms))
  let fingerprint256 ← demand
    (invalidMetadata "Certificate fingerprint is invalid")
    (result.fingerprint256.filter isFingerprint)
  let certificatePath ← validateCertificatePath roots c
    result.certificatePath "cert.pem"
  let fullchainPath ← validateCertificatePath roots c
    result.fullchainPath "fullchain.pem"
  let privateKeyPath ← validateCertificatePath roots c
    result.privateKeyPath "privkey.pem"
  return { c with
    state := .active
    certificatePath := some certificatePath
    fullchainPath := some fullchainPath
    privateKeyPath := some privateKeyPath
    subject := result.subject.map (shorten 500)
    issuer := result.issuer.map (shorten 500)
    subjectAltName := result.subjectAltName.map (shorten 2000)
    validFrom := some validFrom
    validTo := some validTo
    fingerprint256 := some (upper fingerprint256)
    lastError := none
    updatedAt := now
    lastRenewedAt := if renewal then some now else c.lastRenewedAt
    lastIssuedAt := if renewal then c.lastIssuedAt else some now }

def markActive (net : Net) (roots : Roots) (now : Instant) (renewal : Bool)
    (result : Option Result) (certs : List Certificate) (i : Nat)
    (c : Certificate) : CertificateEffect :=
  if c.state = .retired then .refused alreadyRetired
  else if c.staging then markValidated net now result certs i c
  else savedResult certs i (activated net roots now renewal result c)

def markFailed (now : Instant) (errorCode : Json) (certs : List Certificate)
    (i : Nat) (c : Certificate) : CertificateEffect :=
  if c.state = .retired then .refused alreadyRetired
  else
    saved certs i { c with
      state := .error
      lastError := some ((errorCode.str?.map (shorten 120)).getD
        "certificate_operation_failed")
      updatedAt := now }

-- ====== imports

structure CustomCertificate where
  certificateId : String
  domainId : String
  serverId : String
  domains : List String
  certificatePath : Option String
  fullchainPath : Option String
  privateKeyPath : Option String
  subject : Option String
  issuer : Option String
  subjectAltName : Option String
  validFrom : Option Instant
  validTo : Option Instant
  fingerprint256 : Option String
  materialDigest : Option String
  purpose : String

/-- The record of an imported certificate, once it is checked. -/
def customCertificate (net : Net) (roots : Roots) (now : Instant)
    (input : CustomCertificate) (certs : List Certificate) :
    Except Failure Certificate := do
  let id ← demand (refuse "invalid_certificate_id"
    "Custom certificate ID is invalid") (Uuid.ofText? input.certificateId)
  ensure (refuse "certificate_identity_conflict"
      "Certificate ID already exists" 409)
    (!certs.any fun c => c.id == id.text)
  ensure (refuse "invalid_domain" "domainId is required")
    (input.domainId != "")
  ensure (refuse "invalid_server" "serverId is required")
    (input.serverId != "")
  let domains ← normalizeDomains net input.domains
  let purpose ← demand (refuse "invalid_certificate_purpose"
    "Certificate purpose is invalid") (Purpose.ofText? input.purpose)
  let validFrom ← validateDate input.validFrom "validFrom"
  let validTo ← validateDate input.validTo "validTo"
  let invalid := invalidMetadata "Custom certificate metadata is invalid"
  let fingerprint256 ← demand invalid
    (input.fingerprint256.filter isFingerprint)
  let materialDigest ← demand invalid
    (input.materialDigest.filter Text.isSha256)
  ensure invalid (decide (validFrom.ms < validTo.ms))
  let c : Certificate := {
    id := id.text
    domainId := input.domainId
    serverId := input.serverId
    certName := domains.headD ""
    domains
    certificateNames := domains
    challenge := none
    email := none
    staging := false
    source := .custom
    purpose
    renewalMode := .manual
    state := .active
    certificatePath := none
    fullchainPath := none
    privateKeyPath := none
    subject := input.subject.map (shorten 500)
    issuer := input.issuer.map (shorten 500)
    subjectAltName := input.subjectAltName.map (shorten 2000)
    validFrom := some validFrom
    validTo := some validTo
    fingerprint256 := some (upper fingerprint256)
    lastValidatedAt := none
    lastIssuedAt := none
    lastRenewedAt := none
    lastImportedAt := some now
    provisioningOperationId := none
    retirementOperationId := none
    retiredAt := none
    retiredFromState := none
    retiredFromUpdatedAt := none
    materialPurgedAt := none
    materialDigest := some materialDigest
    lastError := none
    createdAt := now
    updatedAt := now }
  let certificatePath ← validateCertificatePath roots c
    input.certificatePath "cert.pem"
  let fullchainPath ← validateCertificatePath roots c
    input.fullchainPath "fullchain.pem"
  let privateKeyPath ← validateCertificatePath roots c
    input.privateKeyPath "privkey.pem"
  return { c with
    certificatePath := some certificatePath
    fullchainPath := some fullchainPath
    privateKeyPath := some privateKeyPath }

def registerCustom (net : Net) (roots : Roots) (now : Instant)
    (input : CustomCertificate) (certs : List Certificate) :
    CertificateEffect :=
  match customCertificate net roots now input certs with
  | .error e => .refused e
  | .ok c =>
      .written (certs ++ [c]) fun certs =>
        .ok (.certificate (current c certs))

-- ====== selection

def notSelectable : Failure :=
  refuse "certificate_not_selectable" "Certificate is not selectable" 409

def prepareSelection (roots : Roots) (now : Instant)
    (certs : List Certificate) (i : Nat) (c : Certificate) :
    CertificateEffect :=
  if c.purpose ≠ .web ∨ c.staging ∨ ¬(c.state = .active ∨ c.state = .superseded)
      ∨ c.validTo.all (decide <| ·.ms ≤ now.ms) then
    .refused notSelectable
  else
    match validatePaths roots c with
    | .error e => .refused e
    | .ok () =>
        if c.state = .superseded then
          saved certs i
            { c with state := .active, lastError := none, updatedAt := now }
        else .replied (.certificate c)

/-- An active web certificate that serves its domain. -/
def Certificate.serves (c : Certificate) : Bool :=
  c.purpose == .web && !c.staging && c.state == .active

/-- What a selection makes of a certificate. -/
def Certificate.superseded (now : Instant) (selected c : Certificate) :
    Certificate :=
  if c.id ≠ selected.id ∧ c.domainId = selected.domainId ∧ c.serves then
    { c with state := .superseded, updatedAt := now }
  else c

def commitSelection (now : Instant) (certs : List Certificate)
    (selected : Certificate) : CertificateEffect :=
  if !selected.serves then .refused notSelectable
  else if certs.any fun c => c.id != selected.id
      && c.domainId == selected.domainId && c.serves then
    .written (certs.map (Certificate.superseded now selected)) fun certs =>
      .ok (.certificate (current selected certs))
  else .replied (.certificate selected)

-- ====== retirement

structure Retirement where
  expectedDomainId : String
  expectedServerId : String
  expectedState : State
  expectedSource : Source
  expectedRenewalMode : RenewalMode
  expectedStaging : Bool
  expectedValidTo : Option Instant
  expectedUpdatedAt : Instant
  operationId : String

/-- What a retirement expects of a certificate besides its state. -/
def Retirement.owns (r : Retirement) (c : Certificate) : Bool :=
  c.domainId == r.expectedDomainId && c.serverId == r.expectedServerId
    && c.source == r.expectedSource && c.renewalMode == r.expectedRenewalMode
    && c.staging == r.expectedStaging && c.validTo == r.expectedValidTo

def retireForDomainRemoval (now : Instant) (r : Retirement)
    (certs : List Certificate) (i : Nat) (c : Certificate) :
    CertificateEffect :=
  if !isSafeOperationId r.operationId then
    .refused (refuse "certificate_retirement_operation_invalid"
      ("Certificate retirement requires an exact Domain removal operation "
        ++ "identity"))
  else if c.state = .retired then
    if r.owns c && c.retirementOperationId == some r.operationId
        && c.retiredFromState == some r.expectedState
        && c.retiredFromUpdatedAt == some r.expectedUpdatedAt then
      .replied (.change false c)
    else
      .refused (refuse "certificate_retirement_ownership_drift"
        ("Certificate retirement is owned by different Domain removal "
          ++ "evidence") 409)
  else if r.owns c && c.state == r.expectedState
      && c.updatedAt == r.expectedUpdatedAt then
    let next := { c with
      retiredFromState := some c.state
      retiredFromUpdatedAt := some c.updatedAt
      state := .retired
      retirementOperationId := some r.operationId
      retiredAt := some now
      lastError := none
      updatedAt := now }
    .written (certs.set i next) fun certs =>
      .ok (.change true (current next certs))
  else
    .refused (refuse "certificate_retirement_intent_drift"
      "Certificate state changed after Domain removal planning" 409)

def markMaterialPurged (purgedAt : Option Instant)
    (certs : List Certificate) (i : Nat) (c : Certificate) :
    CertificateEffect :=
  if c.state ≠ .retired then
    .refused (refuse "certificate_not_retired"
      "Only retired certificates can have material purged" 409)
  else
    match validateDate purgedAt "purgedAt" with
    | .error e => .refused e
    | .ok purgedAt =>
        if c.materialPurgedAt.isSome then .replied (.change false c)
        else
          let next := { c with
            materialPurgedAt := some purgedAt
            updatedAt := purgedAt }
          .written (certs.set i next) fun certs =>
            .ok (.change true (current next certs))

-- ====== machine

/-- A call of the registry. -/
inductive Call where
  | createForDomain (input : NewCertificate)
  | setState (certificateId nextState : String)
  | markValidated (certificateId : String) (result : Option Result)
  | markActive (certificateId : String) (result : Option Result)
      (renewal : Bool)
  | registerCustom (input : CustomCertificate)
  | prepareSelection (certificateId : String)
  | commitSelection (certificateId : String)
  | markFailed (certificateId : String) (errorCode : Json)
  | retireForDomainRemoval (certificateId : String) (r : Retirement)
  | markMaterialPurged (certificateId : String) (purgedAt : Option Instant)
  | getCertificate (certificateId : String)
  | getForDomain (domainId : String)
  | listCertificates

def Call.effect (net : Net) (roots : Roots) (env : Env) :
    Call → List Certificate → CertificateEffect
  | createForDomain input => Certificates.createForDomain net env input
  | setState certificateId nextState => fun certs =>
      onCertificate certificateId
        (Certificates.setState env.now nextState certs) certs
  | markValidated certificateId result => fun certs =>
      onCertificate certificateId
        (Certificates.markValidated net env.now result certs) certs
  | markActive certificateId result renewal => fun certs =>
      onCertificate certificateId
        (Certificates.markActive net roots env.now renewal result certs) certs
  | registerCustom input =>
      Certificates.registerCustom net roots env.now input
  | prepareSelection certificateId => fun certs =>
      onCertificate certificateId
        (Certificates.prepareSelection roots env.now certs) certs
  | commitSelection certificateId => fun certs =>
      onCertificate certificateId
        (fun _ c => Certificates.commitSelection env.now certs c) certs
  | markFailed certificateId errorCode => fun certs =>
      onCertificate certificateId
        (Certificates.markFailed env.now errorCode certs) certs
  | retireForDomainRemoval certificateId r => fun certs =>
      onCertificate certificateId
        (Certificates.retireForDomainRemoval env.now r certs) certs
  | markMaterialPurged certificateId purgedAt => fun certs =>
      onCertificate certificateId
        (Certificates.markMaterialPurged purgedAt certs) certs
  | getCertificate certificateId => fun certs =>
      .replied (.found (certs.find? fun c => c.id == certificateId))
  | getForDomain domainId => fun certs =>
      .replied (.found (certs.reverse.find? fun c =>
        c.domainId == domainId && c.purpose == .web))
  | listCertificates => fun certs => .replied (.certificates certs)

/-- The certificate a call takes out of memory again where its write
fails. -/
def Call.takesBack : Call → Option String
  | registerCustom input => (Uuid.ofText? input.certificateId).map Uuid.text
  | _ => none

/-- The certificates a call may make active, besides one it imports. -/
def Call.activates (id : String) : Call → Bool
  | setState certificateId nextState =>
      certificateId == id && nextState == "active"
  | markActive certificateId _ _ => certificateId == id
  | prepareSelection certificateId => certificateId == id
  | _ => false

/-- The registry in memory, its file, the writes between them with what
each takes back, and the certificates the routes found active before they
asked for a renewal. -/
structure Routes where
  store : Store (List Certificate) Failure Reply
  undo : List (Option String)
  seen : List String

namespace Routes

def opened (certs : List Certificate) : Routes :=
  { store := Store.opened certs, undo := [], seen := [] }

/-- What is held in memory. -/
def mem (r : Routes) : List Certificate := r.store.mem

/-- What is in the file. -/
def file (r : Routes) : List Certificate := r.store.file

end Routes

/-- What happens next: a call, a route that looks whether a certificate is
active, the write at the head of the chain settling, or the control plane
starting again from the file. -/
inductive Event where
  | call (env : Env) (c : Call)
  | look (certificateId : String)
  | settle (ok : Bool)
  | restart

/-- The write at the head of the chain settles; where it fails, what it was
to import is taken out of memory. -/
def Routes.settle (r : Routes) (ok : Bool) :
    Routes × Outcome Failure Reply :=
  let (store, outcome) := r.store.settle .store ok
  match r.undo with
  | some id :: undo =>
      let mem :=
        if store.broken then store.mem.filter fun c => c.id != id
        else store.mem
      ({ r with store := { store with mem }, undo }, outcome)
  | _ => ({ r with store, undo := r.undo.drop 1 }, outcome)

def Routes.call (net : Net) (roots : Roots) (r : Routes) (env : Env)
    (c : Call) : Routes × Outcome Failure Reply :=
  let (store, outcome) := r.store.call (c.effect net roots env)
  let queued := decide (r.store.queue.length < store.queue.length)
  ({ r with
      store
      undo := if queued then r.undo ++ [c.takesBack] else r.undo }, outcome)

def Routes.step (net : Net) (roots : Roots) (r : Routes) :
    Event → Routes × Outcome Failure Reply
  | .call env c => r.call net roots env c
  | .look certificateId =>
      match locate (fun c => c.id == certificateId) r.mem with
      | some (_, c) =>
          if c.state = .active then
            ({ r with seen := certificateId :: r.seen }, .idle)
          else (r, .idle)
      | none => (r, .idle)
  | .settle ok => r.settle ok
  | .restart =>
      match init net roots storeVersion r.file with
      | .ok certs => ({ Routes.opened certs with seen := r.seen }, .idle)
      | .error e => (r, .rejected e)

def machine (net : Net) (roots : Roots) :
    Machine Routes Event (Outcome Failure Reply) where
  step := Routes.step net roots

/-- What the routes and the platform promise of an event: a state is set
only to `issuing`, or of a certificate that was found active; a random id
is one that was never met; and nothing that was answered for is lost in a
restart. -/
def Event.routed (e : Event) (r : Routes) : Bool :=
  match e with
  | .call env (.createForDomain _) =>
      !r.seen.contains env.randomUUID.text
        && !(r.mem.map Certificate.id).contains env.randomUUID.text
  | .call _ (.setState certificateId nextState) =>
      nextState == "issuing"
        || ((nextState == "renewing" || nextState == "active")
          && r.seen.contains certificateId)
  | .restart => decide (r.file = r.mem)
  | _ => true

end Yunpanel.Certificates
