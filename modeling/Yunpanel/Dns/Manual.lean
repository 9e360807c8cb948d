/-
RRsets that a caller manages by hand.

A call reads the zone, checks it, and sends one `PATCH` with its RRset and
the SOA record under the next serial; then it reads the zone again and is
confirmed where its change is there under that serial. Each request is a
segment of its own, so other calls come in between. Where secondaries are
configured they are notified before the `PATCH` and after the confirmation,
with three requests each time.
-/
import Yunpanel.Lib.Flight
import Yunpanel.Dns.DesiredState

namespace Yunpanel.Dns

open Lib

-- ====== PowerDNS

instance (name : String) : Decidable (IsName name) :=
  decidable_of_iff
    (name.toList.all (fun c => 0x21 ≤ c.toNat && c.toNat ≤ 0x7e) = true
      ∧ name.toList.getLast? = some '.') <| by
    rw [List.all_eq_true]
    simp only [Bool.and_eq_true, decide_eq_true_eq]
    exact ⟨fun h => ⟨h.1, h.2⟩, fun h => ⟨h.printed, h.absolute⟩⟩

instance (type : String) : Decidable (IsType type) :=
  decidable_of_iff
    (type.toList.all (fun c => Text.isUpper c || Text.isDigit c) = true
      ∧ type.toList.head?.any Text.isUpper = true) <| by
    rw [List.all_eq_true]
    simp only [Bool.or_eq_true]
    exact ⟨fun h => ⟨h.1, h.2⟩, fun h => ⟨h.printed, h.capital⟩⟩

/-- What a `PATCH` makes of a zone; one with a name that is none is
refused. -/
def Hosted.patch (hosted : Hosted) (changes : List Change) : Hosted :=
  let rrsets := Keyed.patch rrsetKey hosted.rrsets changes
  if hproper : ∀ rrset ∈ rrsets, IsName rrset.name ∧ IsType rrset.type then
    { hosted with
      rrsets := rrsets
      distinct := Keyed.nodup_patch hosted.distinct changes
      named := fun rrset hrrset => (hproper rrset hrrset).1
      typed := fun rrset hrrset => (hproper rrset hrrset).2 }
  else hosted

namespace Manual

-- ====== requests

def manualError (code message : String) (status : Nat := 503) : Failure :=
  refuse ("powerdns_manual_" ++ code) message status

/-- A record as `normalizeManualRecord` returns it. -/
structure ManualRecord where
  owner : Owner
  type : RecordType
  ttl : Nat
  values : List (List Char)

inductive Request where
  | apply (record : ManualRecord)
  | remove (owner : Owner) (type : RecordType)

structure Call where
  request : Request
  expectedSerial : Nat
  notifySecondaries : Bool

def Request.owner : Request → Owner
  | apply record => record.owner
  | remove owner _ => owner

def Request.type : Request → RecordType
  | apply record => record.type
  | remove _ type => type

/-- The key `findRrset` looks for. -/
def Request.key (request : Request) : String :=
  keyText (fqdnText request.owner.text) request.type.text

/-- `desiredRrset(record)` of the manual manager: no comments. -/
def desiredRrset (record : ManualRecord) : Except Failure Rrset := do
  let records ← record.values.mapM (entryOf record.type)
  return {
    name := fqdnText record.owner.text
    type := record.type.text
    ttl := some record.ttl
    records := records
    comments := [] }

-- ====== checks

def MAX_SERIAL : Nat := 4294967295

def nextSerial (value : Nat) : Except Failure Nat :=
  if value < 1 ∨ MAX_SERIAL ≤ value then
    .error (manualError "serial_exhausted"
      "Authoritative SOA serial cannot be advanced safely" 409)
  else .ok (value + 1)

def isSoa (zone : Zone) (rrset : Rrset) : Bool :=
  rrset.name = lowerText (fqdnText zone.zoneName) && rrset.type = "SOA"

/-- `bumpSoaRrset(zone)` -/
def bumpSoaRrset (zone : Zone) : Except Failure (Nat × Rrset) :=
  match zone.rrsets.find? (isSoa zone) with
  | some current =>
    match current.records with
    | [{ content, disabled := false }] =>
        let parts := splitSpaces (Text.trim content.toList)
        if parts.length ≠ 7 then
          .error (manualError "soa_invalid"
            "Authoritative SOA record is invalid" 409)
        else
          match zone.serial.filter fun observed =>
              parseInt (parts.getD 2 []) = some (Int.ofNat observed) with
          | none => .error (manualError "soa_serial_invalid"
              "Authoritative SOA serial evidence is inconsistent" 409)
          | some observed => do
              let serial ← nextSerial observed
              return (serial, { current with
                type := "SOA"
                records := [{
                  content := String.ofList
                    (spaced (parts.set 2 (decimal serial)))
                  disabled := false }] })
    | _ => .error (manualError "soa_unavailable"
        "Authoritative SOA record is unavailable for serial advancement" 409)
  | none => .error (manualError "soa_unavailable"
      "Authoritative SOA record is unavailable for serial advancement" 409)

def assertExpectedSerial (zone : Zone) (expected : Nat) : Except Failure Unit :=
  if zone.serial ≠ some expected then
    .error (manualError "serial_conflict"
      "Authoritative zone changed; refresh DNS records before applying this mutation"
      409)
  else .ok ()

def assertManual (h : Host) (current : Option Rrset) : Except Failure Unit :=
  match current.bind (managed h) with
  | some there => .error (manualError "managed_record_conflict"
      ("DNS RRset is managed by YunPanel (" ++ there.source ++ "/" ++ there.key
        ++ ")") 409)
  | none => .ok ()

def assertCnameCoexistence (zone : Zone) (owner : Owner) (type : RecordType) :
    Except Failure Unit :=
  let siblings := zone.rrsets.filter fun entry =>
    Text.stripDot entry.name.toList = owner.text.toList
      && rrsetKey entry ≠ keyText (fqdnText owner.text) type.text
  if (type = .cname ∧ siblings ≠ [])
      ∨ (type ≠ .cname ∧ siblings.any (fun entry => entry.type = "CNAME")) then
    .error (manualError "cname_conflict"
      "CNAME owner cannot coexist with another DNS record type" 409)
  else .ok ()

-- ====== plans

/-- What a call is about to write: the RRset it wants, or none, and the SOA
record under the next serial. -/
structure Plan where
  key : String
  wanted : Option Rrset
  base : Nat
  serial : Nat
  soa : Rrset

def Plan.changes (plan : Plan) : List Change :=
  [match plan.wanted with
    | some wanted => .replace wanted
    | none => .delete plan.key,
    .replace plan.soa]

/-- What a call makes of the zone it has read: nothing to do, or a plan. -/
def prepare (h : Host) (zone : Zone) (call : Call) :
    Except Failure (Option Plan) := do
  assertExpectedSerial zone call.expectedSerial
  let key := call.request.key
  let current := Keyed.get rrsetKey zone.rrsets key
  match call.request with
  | .apply record => do
      assertManual h current
      assertCnameCoexistence zone record.owner record.type
      let wanted ← desiredRrset record
      if current.any (sameRecords · wanted) then return none
      else do
        let soa ← bumpSoaRrset zone
        return some {
          key := key
          wanted := some wanted
          base := call.expectedSerial
          serial := soa.1
          soa := soa.2 }
  | .remove _ _ =>
      if current.isNone then return none
      else do
        assertManual h current
        let soa ← bumpSoaRrset zone
        return some {
          key := key
          wanted := none
          base := call.expectedSerial
          serial := soa.1
          soa := soa.2 }

/-- Whether the zone that is read after the `PATCH` has the change. -/
def Plan.confirmed (h : Host) (plan : Plan) (after : Zone) : Bool :=
  let verified := Keyed.get rrsetKey after.rrsets plan.key
  (match plan.wanted with
    | some wanted => verified.any fun rrset =>
        (managed h rrset).isNone && sameRecords rrset wanted
    | none => verified.isNone)
    && after.serial == some plan.serial

-- ====== calls

/-- The requests of `notifyZone`. -/
inductive NotifyStep where
  | inspect | put | confirm
  deriving DecidableEq, Repr

/-- The request a call waits for. -/
inductive Stage where
  | reading (call : Call)
  | warning (call : Call) (plan : Plan) (step : NotifyStep)
  | patching (call : Call) (plan : Plan)
  /-- `landed` says whether the `PATCH` was applied, whatever the call was
  answered. -/
  | verifying (call : Call) (plan : Plan) (landed failed : Bool)
  | announcing (plan : Plan) (step : NotifyStep)

/-- How a request ends: answered, refused or never arrived, or carried out
without an answer. -/
inductive Answer where
  | answered | failed | lost
  deriving DecidableEq, Repr

inductive Note where
  /-- The `PATCH` of a call is applied. -/
  | landed (plan : Plan)
  /-- A call returns that it has changed the zone. -/
  | changed (plan : Plan)
  /-- A call returns that there was nothing to change. -/
  | unchanged
  | refused

def unavailable (answer : Answer) : Bool := answer != .answered

/-- One request of `notifyZone`; nothing where it throws. -/
def notify (hosted : Hosted) (step : NotifyStep) (answer : Answer) :
    Option (Option NotifyStep) :=
  if unavailable answer then none
  else
    match step with
    | .inspect => if primaryKind hosted.kind then some (some .put) else none
    | .put => some (some .confirm)
    | .confirm => some none

section calls

variable (h : Host) (zoneName : String)

/-- What follows a confirmation. -/
def confirmed (call : Call) (plan : Plan) : Option Stage × List Note :=
  if call.notifySecondaries then (some (.announcing plan .inspect), [])
  else (none, [.changed plan])

def resume (hosted : Hosted) (stage : Stage) (answer : Answer) :
    Hosted × Option Stage × List Note :=
  match stage with
  | .reading call =>
      if unavailable answer then (hosted, none, [.refused])
      else
        match prepare h (readZone zoneName hosted) call with
        | .error _ => (hosted, none, [.refused])
        | .ok none => (hosted, none, [.unchanged])
        | .ok (some plan) =>
            (hosted, some (if call.notifySecondaries then
              .warning call plan .inspect else .patching call plan), [])
  | .warning call plan step =>
      match notify hosted step answer with
      | none => (hosted, none, [.refused])
      | some (some step) => (hosted, some (.warning call plan step), [])
      | some none => (hosted, some (.patching call plan), [])
  | .patching call plan =>
      match answer with
      | .failed => (hosted, some (.verifying call plan false true), [])
      | .answered => (hosted.patch plan.changes,
          some (.verifying call plan true false), [.landed plan])
      | .lost => (hosted.patch plan.changes,
          some (.verifying call plan true true), [.landed plan])
  | .verifying call plan _ _ =>
      if unavailable answer then (hosted, none, [.refused])
      else if plan.confirmed h (readZone zoneName hosted) then
        (hosted, confirmed call plan)
      else (hosted, none, [.refused])
  | .announcing plan step =>
      match notify hosted step answer with
      | none => (hosted, none, [.refused])
      | some (some step) => (hosted, some (.announcing plan step), [])
      | some none => (hosted, none, [.changed plan])

/-- The calls on one zone. Nobody else writes it, and a crash of the panel
leaves it as it is. -/
def protocol : Protocol Hosted Call Stage Answer Empty Note where
  enter := .reading
  resume := resume h zoneName
  world := fun hosted _ => hosted
  reopen := id

end calls

end Manual

end Yunpanel.Dns
