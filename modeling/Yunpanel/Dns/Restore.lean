/-
Going back to the snapshot a zone was taken before it was changed.

The two snapshots come from a journal and are checked before anything is
planned from them. PowerDNS takes a plan change by change; nothing is
refused here, so what is left is what the changes say.
-/
import Yunpanel.Dns.Zone
import Yunpanel.Lib.Result

namespace Yunpanel.Dns.Restore

open Lib Lib.Result

-- ====== snapshots

def snapshotInvalid (message : String) : Failure :=
  refuse "powerdns_zone_restore_snapshot_invalid" message 409

/-- `zoneName(value)` -/
def zoneName (h : Host) (value : String) : Option String :=
  (Domains.assertDomainName h.toNet value).toOption

/-- `/^[A-Z0-9-]{1,64}$/` -/
def isSnapshotType (type : String) : Bool :=
  Text.inClass (fun c => Text.isUpper c || Text.isDigit c || c == '-') 1 64
    type

/-- An RRset that may stand in a snapshot of the zone. -/
def standsIn (normalizedZone : String) (rrset : Rrset) : Bool :=
  rrset.name != "" && isSnapshotType rrset.type && rrset.ttl.isSome
    && (rrset.name == fqdnText normalizedZone
      || ('.' :: normalizedZone.toList ++ ['.']).isSuffixOf
        rrset.name.toList)

/-- `['Native', 'Primary', 'Master'].includes(kind)` -/
def isSnapshotKind (kind : Option String) : Bool :=
  kind == some "Native" || primaryKind kind

def normalizeRollbackSnapshot (h : Host) (value : ZoneState)
    (normalizedZone : String) : Except Failure ZoneState := do
  let snapshot ← zoneSnapshot h value
  let snapshotZone ← demand
    (snapshotInvalid "PowerDNS rollback snapshot zone is invalid")
    (zoneName h snapshot.zoneName)
  ensure (snapshotInvalid
      "PowerDNS rollback snapshot does not match the requested authoritative zone")
    (snapshotZone == normalizedZone
      && snapshot.id == fqdnText normalizedZone
      && isSnapshotKind snapshot.kind && !snapshot.rrsets.isEmpty
      && snapshot.rrsets.all (standsIn normalizedZone))
  ensure (snapshotInvalid
      "PowerDNS rollback snapshot contains duplicate RRsets")
    (decide (snapshot.rrsets.map rrsetKey).Nodup)
  return snapshot

-- ====== restore

/-- The zone as it is read once PowerDNS has taken the changes of a plan,
and its kind where that goes back too. -/
def restoredZone (normalizedZone : String) (hosted : Hosted)
    (before : ZoneState) (plan : RollbackPlan) : Zone :=
  let rrsets := (Keyed.patch rrsetKey hosted.rrsets plan.changes).map
    normalizedExistingRrset
  { readZone normalizedZone hosted with
    kind := if plan.kindChangeRequired then before.kind else hosted.kind
    rrsets := rrsets
    serial := serialFromRrsets rrsets normalizedZone }

/-- The state of what is there under a key. -/
def stateAt (rrsets : List Rrset) (key : String) : Option RrsetState :=
  (Keyed.get rrsetKey rrsets key).map rrsetState

/-- Everything in the zone is as one of the two snapshots has it. -/
structure Restorable (before after : ZoneState) (current : Zone) : Prop where
  zoneName : before.zoneName = after.zoneName
  id : before.id = after.id ∧ current.id = before.id
  dnssec : before.dnssec = after.dnssec ∧ current.dnssec = before.dnssec
  kind : current.kind = before.kind ∨ current.kind = after.kind
  rrsets : ∀ key,
    stateAt current.rrsets key = stateAt before.rrsets key
      ∨ stateAt current.rrsets key = stateAt after.rrsets key

/-- A zone is what the snapshot says it was. -/
structure Matches (snapshot : ZoneState) (current : Zone) : Prop where
  id : current.id = snapshot.id
  kind : current.kind = snapshot.kind
  dnssec : current.dnssec = snapshot.dnssec
  rrsets : ∀ key, stateAt current.rrsets key = stateAt snapshot.rrsets key

end Yunpanel.Dns.Restore
