/-
Reapplying the template of a zone: the preview of what changes, and the zone
there should be afterwards.

The preview is made of the zone as it is read (`diffZone`) and of the records
rendered under the serial that comes next. What the zone should be after it
is applied is worked out on its own (`expectedAppliedZoneSnapshot`), from the
snapshot of the zone and not from the changes the zone manager will compute.
-/
import Yunpanel.Dns.DesiredState

namespace Yunpanel.Dns

open Lib

namespace Reapply

-- ====== serials

/-- A date in UTC. -/
structure Day where
  year : Nat
  month : Nat
  day : Nat
  deriving DecidableEq, Repr

/-- The first serial of a day: its digits, and `01`. -/
def Day.serial (day : Day) : Nat :=
  ((day.year * 100 + day.month) * 100 + day.day) * 100 + 1

def serialFloor (today : Day) : Except Failure Nat :=
  if 4294967295 < today.serial then
    .error (refuse "dns_zone_reapply_clock_invalid"
      "DNS zone serial clock is invalid" 503)
  else .ok today.serial

def serialInvalid : Failure :=
  refuse "dns_zone_reapply_serial_invalid"
    "Current authoritative SOA serial is unavailable" 409

def nextSerial (current : Nat) (today : Day) : Except Failure Nat :=
  if current < 1 || 4294967295 < current then .error serialInvalid
  else do
    let floor ← serialFloor today
    let next := if current < floor then floor else current + 1
    if 4294967295 < next then
      .error (refuse "dns_zone_reapply_serial_exhausted"
        "DNS zone serial cannot be advanced safely" 409)
    else .ok next

-- ====== diff

/-- `REAPPLY_MANAGED_SOURCES`, and the source of mail where it is reconciled
too. -/
def reconciledSources (reconcileMail : Bool) : List String :=
  if reconcileMail then ["template", "runtime", "mail"]
  else ["template", "runtime"]

structure PublicRrset where
  owner : String
  type : String
  ttl : Option Nat
  source : String
  key : Option String
  templateVersion : Option Int
  deriving DecidableEq, Repr

def ownerText (name : String) : String :=
  String.ofList (Text.stripDot name.toList)

def publicRrset (h : Host) (rrset : Rrset) : PublicRrset where
  owner := ownerText rrset.name
  type := rrset.type
  ttl := rrset.ttl
  source := ((managed h rrset).map Managed.source).getD "manual"
  key := (managed h rrset).map Managed.key
  templateVersion := (managed h rrset).bind Managed.templateVersion

inductive Action where
  | add | replace | delete
  deriving DecidableEq, Repr

structure Listed where
  action : Action
  rrset : PublicRrset
  previousTemplateVersion : Option Int
  deriving DecidableEq, Repr

/-- An entry of `conflicts` or `blockers`. -/
structure Obstacle where
  code : String
  affectsDesired : Bool
  rrset : PublicRrset
  desiredSource : Option String
  deriving DecidableEq, Repr

/-- What is made of one desired RRset. -/
inductive Verdict where
  | listed (change : Listed)
  | conflict (obstacle : Obstacle)
  | blocker (obstacle : Obstacle)
  | unchanged
  deriving DecidableEq, Repr

namespace Verdict

def change? : Verdict → Option Listed
  | listed change => some change
  | _ => none

def conflict? : Verdict → Option Obstacle
  | conflict obstacle => some obstacle
  | _ => none

def blocker? : Verdict → Option Obstacle
  | blocker obstacle => some obstacle
  | _ => none

end Verdict

/-- `desiredRrsetMap(records)` -/
def desiredRrsetMap (h : Host) (records : List Record) :
    Except Failure (List Rrset) :=
  desiredMapFrom h (refuse "dns_zone_reapply_desired_conflict"
    "Desired DNS RRsets are not unique" 409) [] records

section diff

variable (h : Host)

def verdict (existing : Zone) (wanted : Rrset) : Verdict :=
  match Keyed.get rrsetKey existing.rrsets (rrsetKey wanted) with
  | none => .listed {
      action := .add
      rrset := publicRrset h wanted
      previousTemplateVersion := none }
  | some observed =>
      match managed h observed with
      | none => .conflict {
          code := "manual_rrset_conflict"
          affectsDesired := false
          rrset := publicRrset h observed
          desiredSource := (managed h wanted).map Managed.source }
      | some there =>
          if (managed h wanted).map Managed.source ≠ some there.source then
            .blocker {
              code := "managed_source_conflict"
              affectsDesired := true
              rrset := publicRrset h observed
              desiredSource := (managed h wanted).map Managed.source }
          else if !sameRecords observed wanted
              || !sameManagedMetadata h observed wanted then
            .listed {
              action := .replace
              rrset := publicRrset h wanted
              previousTemplateVersion := there.templateVersion }
          else .unchanged

/-- What is made of an RRset that is not desired. -/
def leftover (reconciled : List String) (observed : Rrset) : Verdict :=
  match managed h observed with
  | none => .unchanged
  | some there =>
      if there.source ∈ reconciled then .listed {
          action := .delete
          rrset := publicRrset h observed
          previousTemplateVersion := none }
      else .blocker {
          code := "managed_source_not_reconciled"
          affectsDesired := false
          rrset := publicRrset h observed
          desiredSource := none }

structure ZoneDiff where
  changes : List Listed
  conflicts : List Obstacle
  blockers : List Obstacle

def diffZone (existing : Zone) (records : List Record)
    (reconciled : List String) : Except Failure ZoneDiff := do
  let desired ← desiredRrsetMap h records
  let verdicts := desired.map (verdict h existing)
    ++ (existing.rrsets.filter fun rrset =>
      (Keyed.get rrsetKey desired (rrsetKey rrset)).isNone).map
        (leftover h reconciled)
  return {
    changes := verdicts.filterMap Verdict.change?
    conflicts := verdicts.filterMap Verdict.conflict?
    blockers := verdicts.filterMap Verdict.blocker? }

end diff

-- ====== topology

structure Topology where
  primaryKindChangeRequired : Bool
  blocker : Option Obstacle

def topologyState (existing : Zone) (secondaryDns : List String) : Topology :=
  if secondaryDns.isEmpty || primaryKind existing.kind then
    { primaryKindChangeRequired := false, blocker := none }
  else if existing.kind = some "Native" then
    { primaryKindChangeRequired := true, blocker := none }
  else
    { primaryKindChangeRequired := false
      blocker := some {
        code := "zone_kind_conflict"
        affectsDesired := true
        rrset := {
          owner := existing.zoneName
          type := "SOA"
          ttl := none
          source := "runtime"
          key := none
          templateVersion := none }
        desiredSource := some "runtime" } }

-- ====== preview

/-- `recordsForDomain(domain, desired)`: the built-in alias only for a domain
that has it, and then at the end. -/
def recordsForDomain (aliases : List String) (zoneName : String)
    (records : List Record) : List Record :=
  let builtIn (entry : Record) : Bool :=
    entry.source = .template && entry.key = "www-alias"
  records.filter (!builtIn ·)
    ++ if ("www." ++ zoneName) ∈ aliases then
        (records.find? builtIn).toList
      else []

/-- What a preview is made from, the zone aside. -/
structure Request where
  intent : Intent
  aliases : List String
  secondaryDns : List String
  /-- Whether there is a resolver of mail intents. -/
  reconcileMail : Bool
  unresolved : reconcileMail = false → intent.mailRecords = []

structure Preview where
  zoneName : String
  zoneKind : Option String
  primaryKindChangeRequired : Bool
  secondaryDns : List String
  observedSerial : Nat
  nextSerial : Nat
  dnssec : Bool
  records : List Record
  changes : List Listed
  conflicts : List Obstacle
  blockers : List Obstacle
  changeRequired : Bool
  applyAllowed : Bool

section preview

variable (h : Host)

def render (request : Request) (serial : Nat) : Except Failure (List Record) := do
  let records ← DesiredState.render h.toPlatform request.intent serial
  return recordsForDomain request.aliases request.intent.zoneName.text records

/-- `buildPreview`, from the zone that was read. -/
def buildPreview (request : Request) (today : Day) (existing : Option Zone) :
    Except Failure Preview :=
  match existing with
  | none => .error (refuse "dns_zone_reapply_zone_missing"
      "Domain does not currently have a local authoritative PowerDNS zone" 409)
  | some existing =>
    match existing.serial with
    | none => .error serialInvalid
    | some observed => do
      let reconciled := reconciledSources request.reconcileMail
      let topology := topologyState existing request.secondaryDns
      let observedRecords ← render h request observed
      let initialDiff ← diffZone h existing observedRecords reconciled
      let changeRequired := !initialDiff.changes.isEmpty
        || !initialDiff.conflicts.isEmpty
        || initialDiff.blockers.any (·.affectsDesired)
        || topology.primaryKindChangeRequired || topology.blocker.isSome
      let serial ← (if changeRequired then nextSerial observed today
        else .ok observed)
      let records ← (if serial = observed then .ok observedRecords
        else render h request serial)
      let zoneDiff ← (if serial = observed then .ok initialDiff
        else diffZone h existing records reconciled)
      let blockers := zoneDiff.blockers ++ topology.blocker.toList
      return {
        zoneName := existing.zoneName
        zoneKind := existing.kind
        primaryKindChangeRequired := topology.primaryKindChangeRequired
        secondaryDns := request.secondaryDns
        observedSerial := observed
        nextSerial := serial
        dnssec := existing.dnssec
        records := records
        changes := zoneDiff.changes
        conflicts := zoneDiff.conflicts
        blockers := blockers
        changeRequired := changeRequired
        applyAllowed := changeRequired && zoneDiff.conflicts.isEmpty
          && blockers.isEmpty }

/-- The RRsets of the snapshot that stay: a managed one of a reconciled
source only where it is desired. -/
def stays (reconciled : List String) (desired : List Rrset) (rrset : Rrset) :
    Bool :=
  !((managed h rrset).any fun there => there.source ∈ reconciled)
    || (Keyed.get rrsetKey desired (rrsetKey rrset)).isSome

def expectedAppliedZoneSnapshot (existing : ZoneState) (preview : Preview)
    (reconcileMail : Bool) : Except Failure ZoneState := do
  let before ← zoneSnapshot h existing
  let desired ← desiredRrsetMap h preview.records
  let kept := before.rrsets.filter
    (stays h (reconciledSources reconcileMail) desired)
  zoneSnapshot h {
    zoneName := before.zoneName
    id := before.id
    kind := if preview.primaryKindChangeRequired then some "Primary"
      else before.kind
    dnssec := before.dnssec
    rrsets := desired.foldl (Keyed.put rrsetKey) kept }

end preview

-- ====== digest

def rrsetJson (rrset : Rrset) : Json := .obj [
  ("name", .str rrset.name), ("type", .str rrset.type),
  ("ttl", (rrset.ttl.map fun n => Json.num n).getD .null),
  ("records", .arr (rrset.records.map fun entry => .obj [
    ("content", .str entry.content), ("disabled", .bool entry.disabled)])),
  ("comments", .arr (rrset.comments.map fun comment => .obj [
    ("account", .str comment.account), ("content", .str comment.content)]))]

def snapshotJson (snapshot : ZoneState) : Json := .obj [
  ("version", .num 1), ("zoneName", .str snapshot.zoneName),
  ("id", .str snapshot.id),
  ("kind", (snapshot.kind.map Json.str).getD .null),
  ("dnssec", .bool snapshot.dnssec),
  ("rrsets", .arr (snapshot.rrsets.map rrsetJson))]

/-- `digest(snapshot)` -/
def digest (h : Host) (snapshot : ZoneState) : String :=
  h.sha256 (String.ofList (Json.stringify (snapshotJson snapshot)))

end Reapply

end Yunpanel.Dns
