/-
The registry of SFTP keys: what each call does to the keys in memory.

A key belongs to a website and carries the website's identity of the moment
it was added. It is never taken away: a key that is revoked, or replaced by
another, stays as revoked.
-/
import Yunpanel.Databases.Binding
import Yunpanel.Lib.Table
import Yunpanel.Sftp.PublicKey

namespace Yunpanel.Sftp

open Json Lib.Result
open Databases (SiteUser isSiteUser)

-- ====== records

abbrev Revision := Ranged 1 9007199254740991

/-- A label with nothing to trim, of 1 to 80 printable characters. -/
def isLabel (s : String) : Bool :=
  Text.trim s.toList == s.toList && 1 ≤ Text.length s && Text.length s ≤ 80
    && !s.toList.any Text.isControl

/-- `label(value)` -/
def label (value : Json) : Except Failure (Matching isLabel) :=
  demand (refuse "sftp_key_label_invalid"
      "SFTP key label must be a printable string up to 80 characters")
    (value.str?.bind fun s =>
      if s.toList.any Text.isControl then none
      else Matching.ofText? (String.ofList (Text.trim s.toList)))

/-- A record of the registry; it is active while it has not been revoked.
The revision is a number of the platform, which a change adds one to. -/
structure Key where
  id : Uuid
  websiteId : Uuid
  applicationId : Uuid
  unixUser : SiteUser
  label : Matching isLabel
  key : PublicKey
  revision : Nat
  createdAt : Instant
  updatedAt : Instant
  revokedAt : Option Instant
  deriving DecidableEq

/-- `record.status === 'active'` -/
def Key.active (record : Key) : Bool := record.revokedAt.isNone

-- ====== websites

/-- A website as its registry knows it. -/
structure Site where
  runtimeType : String
  applicationId : Option Uuid
  unixUser : Option String

/-- The websites there are and the hashes of the platform. -/
structure Context extends Hashes where
  getWebsite : Uuid → Option Site

structure Identity where
  websiteId : Uuid
  applicationId : Uuid
  unixUser : SiteUser
  deriving DecidableEq

def uuid (field code : String) (value : Json) : Except Failure Uuid :=
  demand (refuse code (field ++ " is invalid")) (Uuid.read? value)

/-- The runtimes whose websites may have keys. -/
def keyRuntimeTypes : List String := ["static", "node", "php"]

/-- `requireWebsite(websiteId)` -/
def requireWebsite (c : Context) (websiteId : Uuid) :
    Except Failure Identity := do
  let site ← demand (refuse "website_not_found" "Website not found" 404)
    (c.getWebsite websiteId)
  let unsupported := refuse "sftp_key_website_unsupported"
    "Website does not have a managed SFTP Unix identity" 409
  ensure unsupported (keyRuntimeTypes.contains site.runtimeType)
  let applicationId ← demand unsupported site.applicationId
  let unixUser ← demand unsupported (site.unixUser.bind Matching.ofText?)
  return { websiteId, applicationId, unixUser }

-- ====== mutations

/-- What a call finds around it: the time and a fresh identifier. -/
structure Moment where
  now : Option Instant
  randomUUID : Uuid

def nowIso (m : Moment) : Except Failure Instant :=
  demand (refuse "sftp_key_clock_invalid"
    "SFTP key registry clock is invalid" 503) m.now

/-- `MAX_KEYS_PER_WEBSITE` -/
def maxKeysPerWebsite : Nat := 50

/-- `createRecord(website, input, time, { replacingId })` -/
def createRecord (c : Context) (website : Identity) (m : Moment)
    (labelValue publicKey : Json) (time : Instant)
    (replacingId : Option Uuid) (keys : List Key) : Except Failure Key := do
  let parsed ← parsePublicKey c.toHashes publicKey
  let others := keys.filter fun entry =>
    entry.websiteId == website.websiteId && some entry.id != replacingId
  ensure (refuse "sftp_key_duplicate"
      "This SFTP public key is already registered for the Website" 409)
    (!others.any fun entry => entry.key.fingerprint == parsed.fingerprint)
  ensure (refuse "sftp_key_limit_reached"
      "Website SFTP key limit has been reached" 409)
    ((others.filter Key.active).length < maxKeysPerWebsite)
  let label ← label labelValue
  return {
    id := m.randomUUID
    websiteId := website.websiteId
    applicationId := website.applicationId
    unixUser := website.unixUser
    label
    key := parsed
    revision := 1
    createdAt := time
    updatedAt := time
    revokedAt := none }

/-- A call of the service. -/
inductive Call where
  | add (websiteId label publicKey : Json)
  | revoke (websiteId keyId expectedRevision : Json)
  | rotate (websiteId keyId expectedRevision label publicKey : Json)
  | reconcile (websiteId : Json)

def Call.websiteId : Call → Json
  | add websiteId _ _ => websiteId
  | revoke websiteId _ _ => websiteId
  | rotate websiteId _ _ _ _ => websiteId
  | reconcile websiteId => websiteId

/-- `addKey(input)` -/
def addKey (c : Context) (website : Identity) (m : Moment)
    (label publicKey : Json) (keys : List Key) :
    Except Failure (List Key) := do
  let time ← nowIso m
  let record ← createRecord c website m label publicKey time none keys
  return keys ++ [record]

/-- The record a call names, as the website and the caller know it. -/
def requireRecord (website : Identity) (keyId expectedRevision : Json)
    (keys : List Key) : Except Failure (Nat × Key) := do
  let id ← uuid "sftpKeyId" "invalid_sftp_key_id" keyId
  let (i, record) ← demand
    (refuse "sftp_key_not_found" "SFTP key not found" 404)
    (Lib.locate (fun entry => entry.id == id
      && entry.websiteId == website.websiteId) keys)
  ensure (refuse "sftp_key_website_drift"
      "SFTP key Website identity no longer matches managed state" 409)
    (record.applicationId == website.applicationId
      && record.unixUser == website.unixUser)
  let expected : Revision ← demand (refuse "sftp_key_revision_invalid"
    "A positive expectedRevision is required")
    (Ranged.read? expectedRevision)
  ensure (refuse "sftp_key_revision_conflict"
      "SFTP key changed after it was loaded" 409)
    ((record.revision : Int) == expected.val)
  return (i, record)

def Key.revoked (record : Key) (time : Instant) : Key :=
  { record with
    revision := record.revision + 1
    revokedAt := some time
    updatedAt := time }

/-- `revokeKey(input)`: nothing to change where the key was revoked
before. -/
def revokeKey (website : Identity) (m : Moment)
    (keyId expectedRevision : Json) (keys : List Key) :
    Except Failure (Option (List Key)) := do
  let (i, record) ← requireRecord website keyId expectedRevision keys
  if record.active then do
    let time ← nowIso m
    return some (keys.set i (record.revoked time))
  else return none

/-- `rotateKey(input)` -/
def rotateKey (c : Context) (website : Identity) (m : Moment)
    (keyId expectedRevision label publicKey : Json) (keys : List Key) :
    Except Failure (List Key) := do
  let (i, current) ← requireRecord website keyId expectedRevision keys
  ensure (refuse "sftp_key_rotation_revoked"
    "Revoked SFTP keys cannot be rotated" 409) current.active
  let parsed ← parsePublicKey c.toHashes publicKey
  ensure (refuse "sftp_key_rotation_no_change"
      "Rotation requires a different SFTP public key" 409)
    (parsed.fingerprint != current.key.fingerprint)
  let time ← nowIso m
  let replacement ← createRecord c website m label publicKey time
    (some current.id) keys
  return keys.set i (current.revoked time) ++ [replacement]

/-- What a call does to the keys of its website: it changes them, or finds
them as wanted. -/
def Call.mutate (c : Context) (website : Identity) (m : Moment)
    (keys : List Key) : Call → Except Failure (Option (List Key))
  | add _ label publicKey =>
      (addKey c website m label publicKey keys).map some
  | revoke _ keyId expectedRevision =>
      revokeKey website m keyId expectedRevision keys
  | rotate _ keyId expectedRevision label publicKey =>
      (rotateKey c website m keyId expectedRevision label publicKey keys).map
        some
  | reconcile _ => .ok none

-- ====== intent

/-- By time of creation, then by identifier. -/
def sortKeys (keys : List Key) : List Key :=
  keys.insertionSort fun a b =>
    (compare a.createdAt.ms b.createdAt.ms).then
      (Text.localeCompare a.id.text b.id.text) ≠ .gt

def activeKeys (keys : List Key) (websiteId : Uuid) : List Key :=
  sortKeys (keys.filter fun entry =>
    entry.websiteId == websiteId && entry.active)

/-- `materialRecord(record)`; the revision of a key that is handed out is
a safe integer or the host refuses it. -/
def materialRecord (record : Key) : Except Failure Material := do
  let revision ← demand (refuse "sftp_authorized_key_invalid"
    "Managed SFTP key metadata is invalid") (Ranged.read? (.num record.revision))
  return {
    id := record.id
    publicKey := record.key.type.text ++ " " ++ record.key.keyData
    fingerprint := record.key.fingerprint
    revision }

/-- `listActiveMaterial(websiteId)` -/
def listActiveMaterial (website : Identity) (keys : List Key) :
    Except Failure (List Key) :=
  (activeKeys keys website.websiteId).mapM fun entry => do
    ensure (refuse "sftp_key_website_drift"
        "SFTP key Website identity no longer matches managed state" 409)
      (entry.applicationId == website.applicationId
        && entry.unixUser == website.unixUser)
    return entry

/-- What the host is to hold for a website. -/
structure Spec where
  websiteId : Uuid
  unixUser : SiteUser
  keys : List Material
  deriving DecidableEq

def Spec.content (spec : Spec) : String := authorizedKeys spec.keys

/-- `createApplicationIdentity(applicationId).unixUser` -/
def applicationUnixUser (c : Context) (applicationId : Uuid) : String :=
  String.ofList ("yunapp-".toList
    ++ (c.sha256 applicationId.text).text.toList.take 12)

/-- `normalizeIntent` of the keys of a website. -/
def normalizeIntent (c : Context) (website : Identity)
    (material : List Key) : Except Failure Spec := do
  ensure (refuse "sftp_authorized_keys_identity_mismatch"
      "SFTP authorized-keys Unix identity does not match the Application")
    (website.unixUser.text == applicationUnixUser c website.applicationId)
  let keys ← material.mapM fun record => do
    let value ← materialRecord record
    normalizeKey c.toHashes value
  ensure (refuse "sftp_authorized_keys_duplicate"
      "SFTP authorized-keys intent contains duplicate keys")
    (decide (keys.map Material.id).Nodup
      && decide (keys.map Material.fingerprint).Nodup)
  return ⟨website.websiteId, website.unixUser, sortMaterial keys⟩

/-- What the keys in memory ask of the host for a website: `desiredIntent`
and `normalizeIntent`. -/
def desired (c : Context) (website : Identity) (keys : List Key) :
    Except Failure Spec := do
  let material ← listActiveMaterial website keys
  normalizeIntent c website material

end Yunpanel.Sftp
