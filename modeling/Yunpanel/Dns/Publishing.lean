/-
What is published of one zone, operation by operation.

Four things write a zone: it is provisioned from its template, the template
is reapplied, a reapply is rolled back, and RRsets are applied or removed by
hand. Each chooses the serial it publishes in its own way: provisioning takes
the first one of the day, a reapply the next after the one it reads, a change
by hand that one plus one, and a rollback whatever the snapshot has. Here
each is one step, from the zone it finds to the zone it leaves.
-/
import Yunpanel.Lib.Machine
import Yunpanel.Dns.Reapply
import Yunpanel.Dns.Manual

namespace Yunpanel.Dns.Publishing

open Lib

/-- One zone of the panel: as PowerDNS hosts it, and the snapshots every
reapply was journaled with. -/
structure Site where
  hosted : Option Hosted
  operations : List (ZoneState × ZoneState)

-- ====== zone manager

/-- The check of `desiredNameservers`. -/
def desiredNameservers (zoneName : String) (desired : List Rrset) :
    Except Failure (List String) :=
  match Keyed.get rrsetKey desired (fqdnText zoneName ++ "\x00" ++ "NS") with
  | some rrset =>
      if rrset.records.length < 1 then
        .error (refuse "powerdns_zone_nameservers_required"
          "Managed zone requires apex NS records" 409)
      else .ok (rrset.records.map Entry.content)
  | none => .error (refuse "powerdns_zone_nameservers_required"
      "Managed zone requires apex NS records" 409)

/-- `ensurePrimaryZone` of a zone there is. -/
def ensurePrimaryZone (hosted : Hosted) : Except Failure Hosted :=
  if primaryKind hosted.kind then .ok hosted
  else if hosted.kind ≠ some "Native" then
    .error (refuse "powerdns_zone_kind_conflict"
      ("PowerDNS zone is " ++ hosted.kind.getD "unknown"
        ++ " and cannot be silently converted to a primary zone") 409)
  else .ok { hosted with kind := some "Primary" }

section manager

variable (h : Host) (zoneName : String)

/-- The RRsets `apply` is called for. -/
def desiredRrsets (records : List Record) : Except Failure (List Rrset) := do
  let desired ← desiredMap h records
  let _ ← desiredNameservers zoneName desired
  return desired

/-- `apply` of a zone there is: the zone it leaves. -/
def applyExisting (records : List Record) (notifySecondaries : Bool)
    (hosted : Hosted) : Hosted :=
  match desiredRrsets h zoneName records with
  | .error _ => hosted
  | .ok desired =>
      match (if notifySecondaries then ensurePrimaryZone hosted
        else .ok hosted) with
      | .error _ => hosted
      | .ok primary =>
          match changesFor h (readZone zoneName primary) desired with
          | .error _ => primary
          | .ok changes => primary.patch changes

/-- `apply` of a zone there is not, where PowerDNS makes `created` of the
request for it. -/
def applyMissing (records : List Record) (created : Hosted) : Option Hosted :=
  match desiredRrsets h zoneName records with
  | .error _ => none
  | .ok desired =>
      match changesFor h (readZone zoneName created) desired true with
      | .error _ => none
      | .ok changes => some (created.patch changes)

/-- `restoreSnapshot` -/
def restoreSnapshot (before after : ZoneState) (hosted : Hosted) : Hosted :=
  match rollbackSnapshotPlan (some (readZone zoneName hosted)) before after with
  | .error _ => hosted
  | .ok plan =>
      let restored :=
        if plan.changes.isEmpty then hosted else hosted.patch plan.changes
      if plan.kindChangeRequired then { restored with kind := before.kind }
      else restored

end manager

-- ====== operations

/-- What `POST /api/domains/:domainId/dns/provision-zone` is made from. -/
structure Provision where
  intent : Intent
  today : Reapply.Day
  notifySecondaries : Bool
  created : Hosted

inductive Operation where
  | provision (request : Provision)
  | reapply (request : Reapply.Request) (today : Reapply.Day)
  | rollback (operationId : Nat)
  | manual (call : Manual.Call)

section operations

variable (h : Host) (zone : Owner)

/-- The records a zone is provisioned with: the serial is the first one of
the day, whatever the zone has. -/
def Provision.records (request : Provision) : Except Failure (List Record) :=
  DesiredState.render h.toPlatform { request.intent with zoneName := zone }
    request.today.serial

def provision (request : Provision) (site : Site) : Site :=
  match request.records h zone with
  | .error _ => site
  | .ok records =>
      { site with
        hosted := match site.hosted with
          | some hosted => some (applyExisting h zone.text records
              request.notifySecondaries hosted)
          | none => applyMissing h zone.text records request.created }

/-- The request of a reapply, for this zone. -/
def reapplyRequest (request : Reapply.Request) : Reapply.Request :=
  { request with intent := { request.intent with zoneName := zone } }

/-- `captureRollbackSnapshot` -/
def captureRollbackSnapshot (existing : Zone) (preview : Reapply.Preview)
    (reconcileMail : Bool) : Except Failure (ZoneState × ZoneState) := do
  let before ← zoneSnapshot h existing.toZoneState
  let after ← Reapply.expectedAppliedZoneSnapshot h existing.toZoneState preview
    reconcileMail
  return (before, after)

/-- A reapply from its preview on: it is journaled and applied. -/
def reapply (request : Reapply.Request) (today : Reapply.Day) (site : Site) :
    Site :=
  match site.hosted with
  | none => site
  | some hosted =>
      let request := reapplyRequest zone request
      let existing := readZone zone.text hosted
      match Reapply.buildPreview h request today (some existing) with
      | .error _ => site
      | .ok preview =>
          if !preview.applyAllowed then site
          else
            match captureRollbackSnapshot h existing preview
              request.reconcileMail with
            | .error _ => site
            | .ok operation => {
                hosted := some (applyExisting h zone.text preview.records
                  (!request.secondaryDns.isEmpty) hosted)
                operations := site.operations ++ [operation] }

def rollback (operationId : Nat) (site : Site) : Site :=
  match site.operations[operationId]? with
  | none => site
  | some (before, after) =>
      { site with
        hosted := site.hosted.map
          (restoreSnapshot zone.text before after) }

/-- A change by hand, with nobody else at the zone. -/
def manual (call : Manual.Call) (site : Site) : Site :=
  match site.hosted with
  | none => site
  | some hosted =>
      match Manual.prepare h (readZone zone.text hosted) call with
      | .error _ => site
      | .ok none => site
      | .ok (some plan) =>
          if call.notifySecondaries && !primaryKind hosted.kind then site
          else { site with hosted := some (hosted.patch plan.changes) }

def step (site : Site) : Operation → Site
  | .provision request => provision h zone request site
  | .reapply request today => reapply h zone request today site
  | .rollback operationId => rollback zone operationId site
  | .manual call => manual h zone call site

def machine : Machine Site Operation Unit where
  step := fun site operation => (step h zone site operation, ())

end operations

end Yunpanel.Dns.Publishing
