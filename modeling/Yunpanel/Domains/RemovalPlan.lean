/-
The subdomains that are removed with a domain, and the order they go in.

The inventory lists all domains below the root. Each has to be on an exact
applied revision, on the server of the root; then its depth is found by going
up the parents, with the domains that are being looked at (`depthOf`), and the
deepest come first. The journal does not look at depths: it takes the list as
it comes and checks that each parent in it comes later
(`normalizedChildDomains`).
-/
import Yunpanel.Js.Collation
import Yunpanel.Js.Fields
import Yunpanel.Lib.Result

namespace Yunpanel.Domains.RemovalPlan

open Lib.Result

-- ====== failures

/-- `DomainRemovalPlanError`, or an error of the journal. -/
structure Failure where
  code : String
  message : String
  status : Nat
  deriving DecidableEq, Repr

def refuse (code message : String) : Failure := ⟨code, message, 409⟩

def previewInvalid (message : String) : Failure :=
  refuse "domain_removal_preview_invalid" message

-- ====== snapshots

/-- `SAFE_ID` -/
def isSafeId (s : String) : Bool :=
  Text.inClass (fun c => Text.isKeyChar c || c == '@') 1 160 s

def safeId (value field : String) : Except Failure String :=
  if isSafeId value then .ok value
  else .error (previewInvalid
    (field ++ " is invalid for Domain removal planning"))

def safeDigest (value : Option String) (field : String) :
    Except Failure String :=
  demand (previewInvalid (field ++ " is invalid for Domain removal planning"))
    (value.filter Text.isSha256)

/-- `value === null || value === undefined ? null : safeId(value, field)` -/
def optionalId (value : Option String) (field : String) :
    Except Failure (Option String) :=
  match value with
  | none => .ok none
  | some value => (safeId value field).map some

/-- A domain as its registry holds it. -/
structure DomainRecord where
  id : String
  serverId : String
  primaryDomain : String
  websiteId : Option String
  certificateId : Option String
  parentDomainId : Option String
  state : String
  desiredRevision : Int
  stagedRevision : Option Int
  appliedRevision : Option Int
  appliedPrimaryDomain : Option String
  stagedChecksum : Option String
  suspendedChecksum : Option String
  suspensionOperationId : Option String
  deriving DecidableEq, Repr

structure Snapshot where
  id : String
  serverId : String
  primaryDomain : String
  websiteId : Option String
  certificateId : Option String
  parentDomainId : Option String
  state : String
  desiredRevision : Int
  checksum : String
  suspensionOperationId : Option String
  deriving DecidableEq, Repr

def isPrimaryDomain (s : String) : Bool :=
  1 ≤ Text.length s && Text.length s ≤ 253 && !s.toList.any Text.isControl

def isRevision (n : Int) : Bool := 1 ≤ n && n ≤ 9007199254740991

def suspensionEvidence (message : String) : Failure :=
  refuse "domain_removal_suspension_evidence_invalid" message

def domainSnapshot (domain : DomainRecord) : Except Failure Snapshot := do
  ensure (refuse "domain_removal_domain_not_stable"
      ("Domain must have an exact active or suspended applied routing "
        ++ "revision before removal planning"))
    (isPrimaryDomain domain.primaryDomain
      && ["active", "suspended"].contains domain.state
      && isRevision domain.desiredRevision
      && domain.stagedRevision == some domain.desiredRevision
      && domain.appliedRevision == some domain.desiredRevision
      && domain.appliedPrimaryDomain == some domain.primaryDomain)
  let checksum ← safeDigest domain.stagedChecksum "stagedChecksum"
  let suspended := domain.state == "suspended"
  ensure (suspensionEvidence
      ("Suspended Domain removal planning requires exact suspension "
        ++ "ownership evidence"))
    (!suspended || (domain.suspendedChecksum == some checksum
      && domain.suspensionOperationId.any isSafeId))
  ensure (suspensionEvidence
      ("Active Domain removal planning rejects stale suspension ownership "
        ++ "evidence"))
    (suspended || (domain.suspendedChecksum.isNone
      && domain.suspensionOperationId.isNone))
  let id ← safeId domain.id "domainId"
  let serverId ← safeId domain.serverId "serverId"
  let websiteId ← optionalId domain.websiteId "websiteId"
  let certificateId ← optionalId domain.certificateId "certificateId"
  let parentDomainId ← optionalId domain.parentDomainId "parentDomainId"
  return {
    id, serverId
    primaryDomain := domain.primaryDomain
    websiteId, certificateId, parentDomainId
    state := domain.state
    desiredRevision := domain.desiredRevision
    checksum
    suspensionOperationId :=
      if suspended then domain.suspensionOperationId else none }

-- ====== entries

/-- A snapshot whose parent is known. -/
structure Child extends Snapshot where
  parentId : String
  linked : parentDomainId = some parentId
  deriving DecidableEq

/-- What the plan needs of the root. -/
structure Root where
  id : String
  serverId : String

def childEntry (root : Root) (value : DomainRecord) : Except Failure Child := do
  let snapshot ← domainSnapshot value
  match h : snapshot.parentDomainId with
  | none => .error (previewInvalid
      "childDomainParentId is invalid for Domain removal planning")
  | some parentId => do
      ensure (previewInvalid
          "Domain removal child inventory contains its own root Domain")
        (snapshot.id != root.id)
      ensure (refuse "domain_removal_impact_stale"
          ("Domain removal child inventory crosses the root Domain server "
            ++ "boundary"))
        (snapshot.serverId == root.serverId)
      return { toSnapshot := snapshot, parentId, linked := h }

-- ====== depths

def hierarchyCycle : Failure :=
  previewInvalid "Domain removal child inventory contains a hierarchy cycle"

def disconnected : Failure :=
  previewInvalid
    "Domain removal child inventory is disconnected from the root Domain"

/-- `byId.get(id)` -/
def byId (entries : List Child) (id : String) : Option Child :=
  entries.find? fun entry => entry.id == id

/-- `depths` -/
abbrev Depths := List (String × Nat)

/-- `depthOf(entry)`: its depth, and the depths that are known after it. It
is inside of `resolving`. -/
def depthOf (entries : List Child) (rootId : String) :
    Nat → List String → Depths → Child → Except Failure (Nat × Depths)
  | 0, _, _, _ => .error hierarchyCycle
  | fuel + 1, resolving, depths, entry =>
      match depths.lookup entry.id with
      | some depth => .ok (depth, depths)
      | none =>
          if resolving.contains entry.id then .error hierarchyCycle
          else if entry.parentId = rootId then .ok (1, (entry.id, 1) :: depths)
          else
            match byId entries entry.parentId with
            | none => .error disconnected
            | some parent => do
                let (depth, depths) ← depthOf entries rootId fuel
                  (entry.id :: resolving) depths parent
                return (depth + 1, (entry.id, depth + 1) :: depths)

/-- `depthOf(entry)` of an entry the loop comes to: it is inside of nothing
then, and there are no more domains to be inside of than there are entries. -/
def noteDepth (entries : List Child) (rootId : String) (depths : Depths)
    (entry : Child) : Except Failure Depths :=
  (depthOf entries rootId (entries.length + 1) [] depths entry).map Prod.snd

/-- `for (const entry of entries) depthOf(entry);` -/
def depthsOf (entries : List Child) (rootId : String) :
    Except Failure Depths :=
  entries.foldlM (noteDepth entries rootId) []

/-- `entries.sort(…)`: the deepest first, by identifier where they are as
deep. -/
def sortByDepth (depths : Depths) (entries : List Child) : List Child :=
  let depth := fun entry : Child => (depths.lookup entry.id).getD 0
  entries.insertionSort fun left right =>
    depth right < depth left
      ∨ depth left = depth right ∧ Text.localeCompare left.id right.id ≠ .gt

def orderedChildDomains (values : List DomainRecord) (root : Root) :
    Except Failure (List Child) := do
  ensure (previewInvalid "childDomain dependency inventory is invalid")
    (decide (values.length ≤ 500))
  let entries ← values.mapM (childEntry root)
  ensure (previewInvalid
      "childDomain dependency inventory contains duplicate identities")
    (decide (entries.map fun entry => entry.id).Nodup)
  let depths ← depthsOf entries root.id
  return sortByDepth depths entries

-- ====== journal

/-- `domain_removal_operation_state_invalid` -/
def journalInvalid (message : String) : Failure :=
  refuse "domain_removal_operation_state_invalid" message

/-- `safeId(value, field)` and `safeDigest(value, field)` of the journal. -/
def checked (field : String) (condition : Bool) : Except Failure Unit :=
  ensure (journalInvalid (field ++ " is invalid")) condition

/-- The check of one intent on its own, against the identifier it is listed
under. -/
def childIntent (id : String) (item : Child) : Except Failure Unit := do
  ensure (journalInvalid "Child Domain intent evidence is invalid")
    (item.id == id && isPrimaryDomain item.primaryDomain
      && ["active", "suspended"].contains item.state
      && isRevision item.desiredRevision
      && (item.state != "active" || item.suspensionOperationId.isNone)
      && (item.state != "suspended" || item.suspensionOperationId.any isSafeId))
  checked "childDomainId" (isSafeId item.id)
  checked "childDomainServerId" (isSafeId item.serverId)
  checked "childDomainWebsiteId" (item.websiteId.all isSafeId)
  checked "childDomainCertificateId" (item.certificateId.all isSafeId)
  checked "childDomainParentId" (isSafeId item.parentId)
  checked "childDomainChecksum" (Text.isSha256 item.checksum)

/-- The parents that are not in the list. -/
def externalParents (ids : List String) (items : List Child) : List String :=
  ((items.filter fun item => !ids.contains item.parentId).map
    Child.parentId).dedup

/-- `normalizedChildDomains(items)`, with the identifiers of the plan. -/
def normalizedChildDomains (ids : List String) (items : List Child) :
    Except Failure (List Child) := do
  ensure (journalInvalid "childDomainId plan is invalid")
    (decide (ids.length ≤ 500))
  checked "childDomainId" (ids.all isSafeId)
  ensure (journalInvalid "childDomainId plan has duplicates")
    (decide ids.Nodup)
  ensure (journalInvalid "Child Domain intent evidence is invalid")
    (items.length == ids.length)
  (ids.zip items).forM fun pair => childIntent pair.1 pair.2
  ensure (journalInvalid
      "Child Domain intent evidence is not ordered deepest-first")
    (items.zipIdx.all fun pair => !ids.contains pair.1.parentId
      || decide (pair.2 < ids.idxOf pair.1.parentId))
  ensure (journalInvalid "Child Domain intent hierarchy is invalid")
    (decide ((items.map fun item => item.serverId).dedup.length ≤ 1)
      && (items.isEmpty || (externalParents ids items).length == 1))
  return items

end Yunpanel.Domains.RemovalPlan
