/-
Authoritative zones: what PowerDNS hosts, what the zone manager reads of it,
and the changes it makes.

A zone is a list of RRsets with distinct keys. The panel writes a comment on
every RRset that is its own (`commentFor`); an RRset without one is manual
and is nobody's but the caller's. The changes of the manager speak of whole
RRsets: `changesFor` brings a zone to desired records,
`rollbackSnapshotPlan` back to a snapshot.

# What is asked of the platform

The digest, the collation, and the text of a comment, which is the base64url
form of a JSON text. The collation orders the keys of RRsets, which it tells
apart: a name is printed in small letters of ASCII and ends in a dot, a type
starts with a capital.
-/
import Yunpanel.Js.Collation
import Yunpanel.Dns.Record
import Yunpanel.Lib.Keyed

namespace Yunpanel.Dns

open Lib

-- ====== texts

/-- `text.toUpperCase()` -/
def upper (cs : List Char) : List Char := cs.map Char.toUpper

/-- A text in small letters. -/
def lowerText (s : String) : String := String.ofList (Text.lower s.toList)

def upperText (s : String) : String := String.ofList (upper s.toList)

/-- `fqdn` of a text. -/
def fqdnText (s : String) : String := String.ofList (fqdn s.toList)

/-- `parseInt(text, 10)`, for a text that does not start with a space. -/
def parseInt (text : List Char) : Option Int :=
  let digits (cs : List Char) : Option Nat :=
    let digits := cs.takeWhile Text.isDigit
    if digits.isEmpty then none else some (Nat.ofDigitChars 10 digits 0)
  match text with
  | '-' :: cs => (digits cs).map fun n => -(n : Int)
  | '+' :: cs => (digits cs).map Int.ofNat
  | cs => (digits cs).map Int.ofNat

/-- `Number.MAX_SAFE_INTEGER` -/
def maxSafeInteger : Int := 9007199254740991

/-- A name as PowerDNS prints it. -/
structure IsName (name : String) : Prop where
  printed : ∀ c ∈ name.toList, 0x21 ≤ c.toNat ∧ c.toNat ≤ 0x7e
  absolute : name.toList.getLast? = some '.'

/-- A record type. -/
structure IsType (type : String) : Prop where
  printed : ∀ c ∈ type.toList, Text.isUpper c = true ∨ Text.isDigit c = true
  capital : type.toList.head?.any Text.isUpper = true

def keyText (name type : String) : String :=
  lowerText name ++ "\x00" ++ upperText type

-- ====== data

/-- What the comment on an RRset of the panel says. -/
structure Managed where
  source : String
  key : String
  templateVersion : Option Int
  deriving DecidableEq, Repr

structure Host extends Platform where
  /-- The digest of a text, in hexadecimal. -/
  sha256 : String → String
  /-- `left.localeCompare(right) <= 0` -/
  localeLE : String → String → Bool
  /-- `Buffer.from(JSON.stringify(metadata)).toString('base64url')` -/
  encodeMetadata : Managed → String
  /-- What a comment is read as: nothing where its text is no base64url form
  of an object with a source and a key. -/
  decodeMetadata : String → Option Managed
  localeLE_total : ∀ a b, localeLE a b = true ∨ localeLE b a = true
  localeLE_trans : ∀ a b c, localeLE a b = true → localeLE b c = true →
    localeLE a c = true
  localeLE_keys : ∀ m n s t, IsName m → IsName n → IsType s → IsType t →
    localeLE (keyText m s) (keyText n t) = true →
    localeLE (keyText n t) (keyText m s) = true → keyText m s = keyText n t
  decode_encode : ∀ m, decodeMetadata (encodeMetadata m) = some m

/-- An entry of `comments`. -/
structure Comment where
  account : String
  content : String
  deriving DecidableEq, Repr

/-- An entry of `records`. -/
structure Entry where
  content : String
  disabled : Bool
  deriving DecidableEq, Repr

structure Rrset where
  name : String
  type : String
  ttl : Option Nat
  records : List Entry
  comments : List Comment
  deriving DecidableEq, Repr

/-- `rrsetKey(rrset)` -/
def rrsetKey (rrset : Rrset) : String := keyText rrset.name rrset.type

/-- One change of a `PATCH`. -/
abbrev Change := Keyed.Change Rrset String

/-- What a snapshot of a zone has. -/
structure ZoneState where
  zoneName : String
  id : String
  kind : Option String
  dnssec : Bool
  rrsets : List Rrset
  deriving DecidableEq, Repr

/-- What `getZone` returns. -/
structure Zone extends ZoneState where
  serial : Option Nat
  notifiedSerial : Option Nat
  deriving DecidableEq, Repr

/-- A zone as PowerDNS hosts it. -/
structure Hosted where
  id : Option String
  kind : Option String
  dnssec : Bool
  notifiedSerial : Option Nat
  rrsets : List Rrset
  identified : id ≠ some ""
  distinct : (rrsets.map rrsetKey).Nodup
  named : ∀ rrset ∈ rrsets, IsName rrset.name
  typed : ∀ rrset ∈ rrsets, IsType rrset.type

inductive Source where
  | template | mail | runtime
  deriving DecidableEq, Repr

def Source.text : Source → String
  | template => "template"
  | mail => "mail"
  | runtime => "runtime"

/-- A record the panel wants in a zone. -/
structure Record where
  key : String
  owner : String
  type : RecordType
  ttl : Nat
  values : List (List Char)
  source : Source
  templateVersion : Option Int
  deriving DecidableEq, Repr

-- ====== comments

def commentPrefix : String := "yunpanel:v1:"

def recordMetadata (record : Record) : Managed where
  source := record.source.text
  key := record.key
  templateVersion := record.templateVersion

section comments

variable (h : Host)

def commentFor (record : Record) : Comment where
  account := "yunpanel"
  content := commentPrefix ++ h.encodeMetadata (recordMetadata record)

/-- The first comment of the panel that can be read. -/
def parseManagedComment (comments : List Comment) : Option Managed :=
  comments.findSome? fun comment =>
    if comment.account = "yunpanel"
        ∧ commentPrefix.toList.isPrefixOf comment.content.toList = true then
      h.decodeMetadata (String.ofList
        (comment.content.toList.drop commentPrefix.length))
    else none

/-- `rrset.managed` -/
def managed (rrset : Rrset) : Option Managed :=
  parseManagedComment h rrset.comments

end comments

-- ====== records

def zoneRecordInvalid : Failure :=
  refuse "powerdns_zone_record_invalid" "PowerDNS managed record is invalid"

def normalizeRecord (record : Record) : Except Failure Record :=
  if record.owner = "" ∨ record.ttl < 60 ∨ 86400 < record.ttl
      ∨ record.values = [] ∨ record.key = "" then
    .error zoneRecordInvalid
  else .ok { record with
    owner := String.ofList (Text.lower (Text.stripDot record.owner.toList)) }

def entryOf (type : RecordType) (value : List Char) : Except Failure Entry := do
  let content ← powerDnsContent type value
  return { content := String.ofList content, disabled := false }

def desiredRrset (h : Host) (record : Record) : Except Failure Rrset := do
  let normalized ← normalizeRecord record
  let records ← normalized.values.mapM (entryOf normalized.type)
  return {
    name := fqdnText normalized.owner
    type := normalized.type.text
    ttl := some normalized.ttl
    records := records
    comments := [commentFor h normalized] }

/-- The loop of `desiredMap`, with what is there so far; `conflict` is what
a second RRset with one key is refused with. -/
def desiredMapFrom (h : Host) (conflict : Failure) (result : List Rrset) :
    List Record → Except Failure (List Rrset)
  | [] => .ok result
  | record :: records => do
      let rrset ← desiredRrset h record
      if (Keyed.get rrsetKey result (rrsetKey rrset)).isSome then
        .error conflict
      else desiredMapFrom h conflict (result ++ [rrset]) records

def desiredMap (h : Host) (records : List Record) :
    Except Failure (List Rrset) :=
  desiredMapFrom h (refuse "powerdns_zone_record_conflict"
    "Desired PowerDNS RRsets are not unique" 409) [] records

-- ====== existing RRsets

def normalizedExistingRrset (rrset : Rrset) : Rrset :=
  { rrset with name := lowerText rrset.name, type := upperText rrset.type }

def recordText (entry : Entry) : String :=
  (if entry.disabled then "1" else "0") ++ "\x00" ++ entry.content

def commentText (comment : Comment) : String :=
  comment.account ++ "\x00" ++ comment.content

def sameRecords (left right : Rrset) : Bool :=
  left.ttl == right.ttl
    && Text.sort (left.records.map recordText)
      == Text.sort (right.records.map recordText)

def sameManagedMetadata (h : Host) (current wanted : Rrset) : Bool :=
  (managed h current).isSome && managed h current == managed h wanted

/-- What two RRsets are compared by. -/
structure RrsetState where
  name : String
  type : String
  ttl : Option Nat
  records : List String
  comments : List String
  deriving DecidableEq, Repr

def rrsetState (rrset : Rrset) : RrsetState where
  name := rrset.name
  type := rrset.type
  ttl := rrset.ttl
  records := Text.sort (rrset.records.map recordText)
  comments := Text.sort (rrset.comments.map commentText)

def sameRrsetState (left right : Option Rrset) : Bool :=
  left.map rrsetState == right.map rrsetState

/-- `values.sort((x, y) => text(x).localeCompare(text(y)))` -/
def sortBy {α : Type} (h : Host) (text : α → String) (values : List α) :
    List α :=
  values.insertionSort fun a b => h.localeLE (text a) (text b) = true

/-- An RRset of a snapshot. -/
def snapshotRrset (h : Host) (rrset : Rrset) : Rrset :=
  { normalizedExistingRrset rrset with
    records := sortBy h recordText rrset.records
    comments := sortBy h commentText rrset.comments }

def zoneSnapshot (h : Host) (zone : ZoneState) : Except Failure ZoneState :=
  if zone.zoneName = "" ∨ zone.id = "" then
    .error (refuse "powerdns_zone_snapshot_invalid"
      "PowerDNS zone snapshot source is invalid" 409)
  else .ok { zone with
    rrsets := sortBy h rrsetKey (zone.rrsets.map (snapshotRrset h)) }

-- ====== reading

def serialFromRrsets (rrsets : List Rrset) (normalizedZone : String) :
    Option Nat :=
  let soa := rrsets.find? fun entry =>
    entry.name = fqdnText normalizedZone ∧ entry.type = "SOA"
  let content := (soa.bind fun rrset => rrset.records.head?).map Entry.content
  let parts := (content.map fun text => splitSpaces text.toList).getD []
  let serial := parseInt (parts.getD 2 [])
  (serial.filter fun n => 0 < n ∧ n ≤ maxSafeInteger).map Int.toNat

/-- What `getZone` makes of the zone hosted under a name. -/
def readZone (normalizedZone : String) (hosted : Hosted) : Zone :=
  let rrsets := hosted.rrsets.map normalizedExistingRrset
  { zoneName := normalizedZone
    id := hosted.id.getD (fqdnText normalizedZone)
    kind := hosted.kind
    dnssec := hosted.dnssec
    rrsets := rrsets
    serial := serialFromRrsets rrsets normalizedZone
    notifiedSerial := hosted.notifiedSerial }

def primaryKind (kind : Option String) : Bool :=
  kind == some "Primary" || kind == some "Master"

-- ====== changing

section changing

variable (h : Host)

/-- What becomes of one desired RRset: nothing where the zone has it. -/
def changeFor (existing : Zone) (allowUnmanagedReplacement : Bool)
    (wanted : Rrset) : Except Failure (Option Change) :=
  match Keyed.get rrsetKey existing.rrsets (rrsetKey wanted) with
  | some current =>
      if (managed h current).isNone && !allowUnmanagedReplacement then
        .error (refuse "powerdns_zone_manual_record_conflict"
          ("Manual DNS RRset conflicts with managed desired state ("
            ++ current.name ++ " " ++ current.type ++ ")") 409)
      else if sameRecords current wanted
          && sameManagedMetadata h current wanted then .ok none
      else .ok (some (.replace wanted))
  | none => .ok (some (.replace wanted))

/-- The managed RRsets that nothing desired has the key of. -/
def obsolete (existing : Zone) (desired : List Rrset) : List Rrset :=
  existing.rrsets.filter fun current =>
    (Keyed.get rrsetKey desired (rrsetKey current)).isNone
      && (managed h current).isSome

def changesFor (existing : Zone) (desired : List Rrset)
    (allowUnmanagedReplacement : Bool := false) :
    Except Failure (List Change) := do
  let changes ← desired.mapM (changeFor h existing allowUnmanagedReplacement)
  return changes.filterMap id
    ++ (obsolete h existing desired).map fun current => .delete (rrsetKey current)

/-- What an inspection finds. -/
inductive Inspection where
  | unsatisfied (reason : String) (rrset : Option String)
  | satisfied (kind : Option String) (serial notifiedSerial : Option Nat)
      (dnssec : Bool) (managedRrsetCount manualRrsetCount : Nat)
  deriving DecidableEq, Repr

/-- What is wrong with one desired RRset. -/
def inspectRrset (existing : Zone) (wanted : Rrset) : Option Inspection :=
  let key := rrsetKey wanted
  match Keyed.get rrsetKey existing.rrsets key with
  | none => some (.unsatisfied "powerdns_zone_record_missing" (some key))
  | some current =>
      if (managed h current).isNone then
        some (.unsatisfied "powerdns_zone_record_not_managed" (some key))
      else if !sameRecords current wanted then
        some (.unsatisfied "powerdns_zone_record_drift" (some key))
      else if !sameManagedMetadata h current wanted then
        some (.unsatisfied "powerdns_zone_record_metadata_drift" (some key))
      else none

def inspectAgainstDesired (existing : Option Zone) (desired : List Rrset)
    (requirePrimary : Bool := false) : Inspection :=
  match existing with
  | none => .unsatisfied "powerdns_zone_missing" none
  | some existing =>
      if requirePrimary && !primaryKind existing.kind then
        .unsatisfied "powerdns_zone_primary_kind_required" none
      else
        match desired.findSome? (inspectRrset h existing) with
        | some found => found
        | none =>
            match obsolete h existing desired with
            | rrset :: _ => .unsatisfied "powerdns_zone_obsolete_managed_record"
                (some (rrsetKey rrset))
            | [] => .satisfied existing.kind existing.serial
                existing.notifiedSerial existing.dnssec desired.length
                (existing.rrsets.filter fun rrset =>
                  (managed h rrset).isNone).length

end changing

-- ====== rolling back

/-- What a restore has to do. -/
structure RollbackPlan where
  changes : List Change
  kindChangeRequired : Bool
  deriving DecidableEq, Repr

def RollbackPlan.satisfied (plan : RollbackPlan) : Bool :=
  plan.changes.isEmpty && !plan.kindChangeRequired

def restoreDrift (message : String) : Failure :=
  refuse "powerdns_zone_restore_drift" message 409

/-- What becomes of one key of the two snapshots. -/
def restoreChange (before after observed : List Rrset) (key : String) :
    Except Failure (Option Change) :=
  let previous := Keyed.get rrsetKey before key
  let applied := Keyed.get rrsetKey after key
  let present := Keyed.get rrsetKey observed key
  if sameRrsetState previous applied then
    if sameRrsetState present previous then .ok none
    else .error (restoreDrift
      "PowerDNS unchanged RRset drifted outside the reapply operation")
  else if sameRrsetState present previous then .ok none
  else if !sameRrsetState present applied then
    .error (restoreDrift
      "PowerDNS RRset is neither the operation before-state nor after-state")
  else .ok (some (match previous with
    | none => .delete key
    | some previous => .replace previous))

/-- Whether the kind of the zone has to go back too. -/
def restoreKind (current before after : Option String) : Except Failure Bool :=
  if before = after then
    if current = before then .ok false
    else .error (restoreDrift
      "PowerDNS zone kind changed outside the reapply operation")
  else if current = after then .ok true
  else if current = before then .ok false
  else .error (restoreDrift
    "PowerDNS zone kind is not owned by the reapply operation")

def rollbackSnapshotPlan (current : Option Zone) (before after : ZoneState) :
    Except Failure RollbackPlan :=
  match current with
  | none => .error (refuse "powerdns_zone_restore_zone_missing"
      "PowerDNS rollback target zone is missing" 409)
  | some current =>
      if before.zoneName ≠ after.zoneName ∨ before.id ≠ after.id
          ∨ before.dnssec ≠ after.dnssec ∨ current.id ≠ before.id
          ∨ current.dnssec ≠ before.dnssec then
        .error (restoreDrift
          "PowerDNS rollback target topology changed outside the reapply operation")
      else do
        let kindChangeRequired ← restoreKind current.kind before.kind after.kind
        let stray := current.rrsets.any fun rrset =>
          (Keyed.get rrsetKey before.rrsets (rrsetKey rrset)).isNone
            && (Keyed.get rrsetKey after.rrsets (rrsetKey rrset)).isNone
        if stray then
          .error (restoreDrift
            "PowerDNS zone contains RRsets created outside the reapply operation")
        else do
          let keys := before.rrsets.map rrsetKey
            ++ ((after.rrsets.map rrsetKey).filter fun key =>
              (Keyed.get rrsetKey before.rrsets key).isNone)
          let changes ← keys.mapM
            (restoreChange before.rrsets after.rrsets current.rrsets)
          return { changes := changes.filterMap id, kindChangeRequired }

end Yunpanel.Dns
