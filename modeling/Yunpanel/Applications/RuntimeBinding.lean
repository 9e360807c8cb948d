/-
Which runtime an application is served by.

A runtime binding says of an application by which adapter, of which release
and for which domains it is served. The registry keeps one binding for each
application, under a revision that every activation raises, and an
activation names the revision of the binding it was computed from. A
binding that is removed takes its revision along: the next one of the
application starts at revision 1 again.

# Actors

Every caller does the same: it looks a binding up, and later activates, or
removes, under the revision it has seen. `Actor` is such a caller between
the two, and `protocol` any number of them over one store.
-/
import Yunpanel.Js.Lines
import Yunpanel.Js.Path
import Yunpanel.Js.Fields
import Yunpanel.Lib.Flight
import Yunpanel.Lib.Keyed
import Yunpanel.Lib.Result

namespace Yunpanel.Applications.RuntimeBinding

open Lib Lib.Result

-- ====== failures

structure Failure where
  code : String
  message : String
  status : Nat
  deriving DecidableEq, Repr

/-- `new ApplicationRuntimeBindingRegistryError(code, message, status)` -/
def refuse (code message : String) (status : Nat := 400) : Failure :=
  ⟨code, message, status⟩

-- ====== records

/-- `ADAPTERS` -/
inductive Adapter where
  | directSystemd
  | passenger
  | static
  deriving DecidableEq, Repr

def Adapter.text : Adapter → String
  | directSystemd => "direct-systemd"
  | passenger => "passenger"
  | static => "static"

/-- `STATES` -/
inductive State where
  | active
  | cleanupRequired
  deriving DecidableEq, Repr

structure DomainEntry where
  domainId : Uuid
  desiredRevision : Nat
  nginxChecksum : String
  deriving DecidableEq

/-- The fields of `PASSENGER_TARGET_FIELDS`. -/
structure PassengerTarget where
  appRoot : String
  documentRoot : String
  startupFile : String
  nodeBinary : String
  user : String
  group : String
  appEnv : String
  environmentInclude : Option String
  deriving DecidableEq

/-- The fields of `STATIC_TARGET_FIELDS`. -/
structure StaticTarget where
  publishRoot : String
  documentRoot : String
  user : String
  group : String
  deriving DecidableEq

/-- What a caller of `activate` sends: the fields `sameActivation` compares.
Every caller writes the fields of a target in one order. -/
structure Activation where
  applicationId : Uuid
  serverId : Uuid
  adapter : Adapter
  state : State
  sourceOperationId : Uuid
  releaseId : Uuid
  websiteId : Uuid
  websiteRevision : Nat
  domains : List DomainEntry
  passengerTarget : Option PassengerTarget
  staticTarget : Option StaticTarget
  deriving DecidableEq

structure Record extends Activation where
  revision : Nat
  updatedAt : Instant
  deriving DecidableEq

/-- `sameActivation` -/
def sameActivation (left right : Record) : Bool :=
  left.toActivation = right.toActivation

-- ====== checks

/-- `Number.MAX_SAFE_INTEGER` -/
def maxSafe : Nat := 9007199254740991

/-- `revision` -/
def revision (value : Nat) (field : String) : Except Failure Unit :=
  Lib.Result.ensure
    (refuse "runtime_binding_revision_invalid" (field ++ " is invalid"))
    (decide (1 ≤ value) && decide (value ≤ maxSafe))

/-- What `domains` checks of one entry, after those with the ids `seen`. -/
def checkDomain (seen : List Uuid) (entry : DomainEntry) :
    Except Failure Unit := do
  Lib.Result.ensure (refuse "runtime_binding_domains_invalid"
    "Runtime binding domains must be unique") (!seen.contains entry.domainId)
  Lib.Result.ensure (refuse "runtime_binding_checksum_invalid"
    "Runtime binding Nginx checksum is invalid")
    (Text.isSha256 entry.nginxChecksum)
  revision entry.desiredRevision "domain desiredRevision"

def checkDomains (seen : List Uuid) : List DomainEntry → Except Failure Unit
  | [] => .ok ()
  | entry :: rest => do
      checkDomain seen entry
      checkDomains (entry.domainId :: seen) rest

/-- `left.domainId.localeCompare(right.domainId)` -/
def sortDomains (value : List DomainEntry) : List DomainEntry :=
  Text.collateOn (fun entry => entry.domainId.text) value

/-- `domains` -/
def domains (value : List DomainEntry) :
    Except Failure (List DomainEntry) := do
  Lib.Result.ensure (refuse "runtime_binding_domains_invalid"
    "Runtime binding domains are invalid")
    (decide (1 ≤ value.length) && decide (value.length ≤ 32))
  checkDomains [] value
  return sortDomains value

/-- A character of `SAFE_RELATIVE_PATH_PATTERN`. -/
def isPathChar (c : Char) : Bool :=
  Text.isAlnum c || ['.', '_', '/', '-'].contains c

/-- `safeAbsolutePath` -/
def safeAbsolutePath (value : String) : Bool :=
  let cs := value.toList
  decide (Text.length value ≤ 500)
    && cs.head? == some '/' && decide (2 ≤ cs.length) && cs.all isPathChar
    && Path.normalize cs == cs
    && !Text.includes cs "/../".toList && !"/..".toList.isSuffixOf cs

/-- `APP_USER_PATTERN` -/
def isAppUser (s : String) : Bool :=
  let head := "yunapp-".toList
  head.isPrefixOf s.toList && (s.toList.drop head.length).length == 12
    && (s.toList.drop head.length).all Text.isHex

/-- `APP_ENV_PATTERN` -/
def isAppEnv (s : String) : Bool :=
  Text.inClass (fun c => Text.isAlnum c || ['.', '_', '-'].contains c) 1 40 s

/-- The checks of `startupFile`. -/
def isStartupFile (value : String) : Bool :=
  let cs := value.toList
  decide (Text.length value ≤ 300) && !cs.isEmpty && cs.all isPathChar
    && !Path.isAbsolute cs && Path.normalize cs == cs
    && !"../".toList.isPrefixOf cs && !Text.includes cs "/../".toList

/-- `staticTarget` -/
def staticTarget (value : Option StaticTarget) (adapter : Adapter) :
    Except Failure Unit :=
  if adapter ≠ .static then
    Lib.Result.ensure (refuse "runtime_binding_target_invalid"
      (adapter.text ++ " runtime binding cannot persist a static target") 409)
      value.isNone
  else
    Lib.Result.ensure (refuse "runtime_binding_target_invalid"
      "Static runtime binding target is invalid" 409)
      (value.any fun target =>
        safeAbsolutePath target.publishRoot
          && safeAbsolutePath target.documentRoot
          && isAppUser target.user && target.group == target.user)

/-- `passengerTarget` -/
def passengerTarget (value : Option PassengerTarget) (adapter : Adapter) :
    Except Failure Unit :=
  if adapter ≠ .passenger then
    Lib.Result.ensure (refuse "runtime_binding_target_invalid"
      (adapter.text ++ " runtime binding cannot persist a Passenger target")
      409) value.isNone
  else
    Lib.Result.ensure (refuse "runtime_binding_target_invalid"
      "Passenger runtime binding target is invalid" 409)
      (value.any fun target =>
        safeAbsolutePath target.appRoot
          && safeAbsolutePath target.documentRoot
          && safeAbsolutePath target.nodeBinary
          && target.environmentInclude.all safeAbsolutePath
          && isStartupFile target.startupFile
          && isAppUser target.user && target.group == target.user
          && isAppEnv target.appEnv)

/-- `normalizeRecord` -/
def normalizeRecord (value : Record) : Except Failure Record := do
  revision value.revision "revision"
  revision value.websiteRevision "websiteRevision"
  let sorted ← domains value.domains
  passengerTarget value.passengerTarget value.adapter
  staticTarget value.staticTarget value.adapter
  Lib.Result.ensure (refuse "runtime_binding_state_invalid"
    (value.adapter.text ++ " runtime binding cannot require Passenger cleanup")
    409) (value.adapter == .passenger || value.state == .active)
  return { value with domains := sorted }

-- ====== normalized records

theorem revision_eq_ok {value : Nat} {field : String} :
    revision value field = .ok () ↔ 1 ≤ value ∧ value ≤ maxSafe := by
  simp [revision]

variable {seen : List Uuid}

theorem checkDomain_eq_ok {entry : DomainEntry} :
    checkDomain seen entry = .ok ()
      ↔ entry.domainId ∉ seen ∧ Text.isSha256 entry.nginxChecksum = true
        ∧ 1 ≤ entry.desiredRevision ∧ entry.desiredRevision ≤ maxSafe := by
  simp [checkDomain, check_bind_eq_ok, revision_eq_ok]

variable {value : List DomainEntry}

/-- What the domains of a binding are checked for. -/
theorem checkDomains_eq_ok :
    checkDomains seen value = .ok ()
      ↔ (value.map DomainEntry.domainId).Nodup
        ∧ ∀ entry ∈ value, checkDomain seen entry = .ok () := by
  induction value generalizing seen with
  | nil => simp [checkDomains]
  | cons entry rest ih =>
      rw [checkDomains, check_bind_eq_ok, ih, List.map_cons, List.nodup_cons,
        List.forall_mem_cons]
      simp only [checkDomain_eq_ok, List.mem_cons, not_or, List.mem_map,
        not_exists, not_and]
      constructor
      · rintro ⟨hentry, hnodup, hrest⟩
        exact ⟨⟨fun e he heq => (hrest e he).1.1 heq, hnodup⟩, hentry,
          fun e he => ⟨(hrest e he).1.2, (hrest e he).2⟩⟩
      · rintro ⟨⟨hnew, hnodup⟩, hentry, hrest⟩
        exact ⟨hentry, hnodup, fun e he =>
          ⟨⟨hnew e he, (hrest e he).1⟩, (hrest e he).2⟩⟩

/-- Domains are checked for the same in any order. -/
theorem checkDomains_of_perm {other : List DomainEntry}
    (h : other.Perm value) (hok : checkDomains [] value = .ok ()) :
    checkDomains [] other = .ok () := by
  rw [checkDomains_eq_ok] at hok ⊢
  refine ⟨?_, fun entry hentry => hok.2 entry (h.mem_iff.mp hentry)⟩
  exact (h.map DomainEntry.domainId).nodup_iff.mpr hok.1

variable {sorted : List DomainEntry}

theorem domains_eq_ok :
    domains value = .ok sorted
      ↔ (1 ≤ value.length ∧ value.length ≤ 32)
        ∧ checkDomains [] value = .ok ()
        ∧ sortDomains value = sorted := by
  simp [domains, check_bind_eq_ok]

/-- Sorted domains stay as they are. -/
theorem domains_sorted (h : domains value = .ok sorted) :
    domains sorted = .ok sorted := by
  obtain ⟨hlength, hcheck, rfl⟩ := domains_eq_ok.mp h
  have hperm : (sortDomains value).Perm value := List.perm_insertionSort _ value
  rw [domains_eq_ok, hperm.length_eq]
  exact ⟨hlength, checkDomains_of_perm hperm hcheck,
    Text.collateOn_collateOn value⟩

/-- A normalized record is in normal form. -/
theorem normalizeRecord_normal {value record : Record}
    (h : normalizeRecord value = .ok record) :
    normalizeRecord record = .ok record := by
  unfold normalizeRecord at h
  simp only [bind_eq_ok, pure_eq, Except.ok.injEq] at h
  obtain ⟨_, hrevision, _, hwebsite, sorted, hdomains, _, hpassenger, _,
    hstatic, _, hstate, rfl⟩ := h
  unfold normalizeRecord
  simp only [bind_eq_ok, pure_eq, Except.ok.injEq]
  exact ⟨_, hrevision, _, hwebsite, sorted, domains_sorted hdomains, _,
    hpassenger, _, hstatic, _, hstate, rfl⟩

/-- A record of the registry: reading it back changes nothing. -/
structure Binding where
  record : Record
  normal : normalizeRecord record = .ok record
  deriving DecidableEq

def normalized (value : Record) : Except Failure Binding :=
  match h : normalizeRecord value with
  | .error e => .error e
  | .ok record => .ok ⟨record, normalizeRecord_normal h⟩

namespace Binding

def applicationId (b : Binding) : Uuid := b.record.applicationId

end Binding

-- ====== registry

/-- The registry: one binding for each application. -/
structure Store where
  bindings : List Binding
  distinct : (bindings.map Binding.applicationId).Nodup

namespace Store

/-- `getBinding` -/
def getBinding (s : Store) (applicationId : Uuid) : Option Binding :=
  Keyed.get Binding.applicationId s.bindings applicationId

/-- `state.bindings[index] = { ...candidate }`, or `push`. -/
def put (s : Store) (b : Binding) : Store :=
  ⟨Keyed.put Binding.applicationId s.bindings b,
    Keyed.nodup_put s.distinct b⟩

/-- `state.bindings.splice(index, 1)` -/
def remove (s : Store) (applicationId : Uuid) : Store :=
  ⟨Keyed.drop Binding.applicationId s.bindings applicationId,
    Keyed.nodup_drop s.distinct applicationId⟩

/-- What `activate` is about to write. -/
def candidate (now : Instant) (input : Activation) (expectedRevision : Nat) :
    Except Failure Binding :=
  normalized {
    toActivation := input
    revision := max 1 (expectedRevision + 1)
    updatedAt := now }

/-- `activate`: the store afterwards, and the binding it returns. -/
def activate (s : Store) (now : Instant) (input : Activation)
    (expectedRevision : Nat) : Except Failure (Store × Binding) := do
  Lib.Result.ensure (refuse "runtime_binding_expected_revision_invalid"
    "Expected runtime binding revision is invalid")
    (decide (expectedRevision ≤ maxSafe))
  let candidate ← candidate now input expectedRevision
  let existing := s.getBinding candidate.applicationId
  match existing.filter fun b => sameActivation b.record candidate.record with
  | some same => return (s, same)
  | none =>
      Lib.Result.ensure (refuse "runtime_binding_revision_conflict"
        "Runtime binding changed after preview" 409)
        ((existing.elim 0 fun b => b.record.revision) == expectedRevision)
      Lib.Result.ensure (refuse "runtime_binding_server_conflict"
        "Runtime binding cannot move applications between servers" 409)
        (existing.all fun b => b.record.serverId == candidate.record.serverId)
      return (s.put candidate, candidate)

/-- `removeOwnedPassenger` and `removeOwnedStatic`, of the binding of an
adapter that `label` names: the store afterwards, and what was removed. -/
def removeOwned (adapter : Adapter) (label : String) (s : Store)
    (applicationId sourceOperationId : Uuid) (expectedRevision : Nat) :
    Except Failure (Store × Option Binding) := do
  Lib.Result.ensure (refuse "runtime_binding_expected_revision_invalid"
    "Expected runtime binding revision is invalid")
    (decide (1 ≤ expectedRevision) && decide (expectedRevision ≤ maxSafe))
  match s.getBinding applicationId with
  | none => return (s, none)
  | some existing =>
      Lib.Result.ensure (refuse "runtime_binding_ownership_conflict"
        ("Runtime binding is not owned by the requested " ++ label
          ++ " operation") 409)
        (existing.record.adapter == adapter
          && existing.record.sourceOperationId == sourceOperationId)
      Lib.Result.ensure (refuse "runtime_binding_revision_conflict"
        "Runtime binding changed after provisioning" 409)
        (existing.record.revision == expectedRevision)
      return (s.remove applicationId, some existing)

def removeOwnedPassenger (s : Store) :=
  removeOwned .passenger "Passenger" s

def removeOwnedStatic (s : Store) :=
  removeOwned .static "static" s

end Store

-- ====== actors

/-- What a caller does with what it has read. -/
inductive Deed where
  | activate (now : Instant) (input : Activation)
  | removePassenger (sourceOperationId : Uuid)
  | removeStatic (sourceOperationId : Uuid)

/-- A caller that is about to look at the binding of an application, or that
holds what it saw. -/
inductive Actor where
  | looking (applicationId : Uuid)
  | holding (applicationId : Uuid) (read : Option Binding)

inductive Note where
  | read (applicationId : Uuid) (binding : Option Binding)
  | activated (read existing : Option Binding) (binding : Binding)
  | removed (binding : Option Binding)
  | refused (e : Failure)
  deriving DecidableEq

/-- The revision a caller names: the one it has seen, or 0. -/
def expected (read : Option Binding) : Nat :=
  read.elim 0 fun b => b.record.revision

/-- What a removal that was answered leaves. -/
def afterRemoval (s : Store) :
    Except Failure (Store × Option Binding) → Store × List Note
  | .ok (s', b) => (s', [.removed b])
  | .error e => (s, [.refused e])

/-- One call of a caller that has read `read`. -/
def perform (s : Store) (applicationId : Uuid) (read : Option Binding) :
    Deed → Store × List Note
  | .activate now input =>
      match s.activate now { input with applicationId } (expected read) with
      | .ok (s', b) => (s', [.activated read (s.getBinding applicationId) b])
      | .error e => (s, [.refused e])
  | .removePassenger sourceOperationId =>
      afterRemoval s (s.removeOwnedPassenger applicationId sourceOperationId
        (expected read))
  | .removeStatic sourceOperationId =>
      afterRemoval s (s.removeOwnedStatic applicationId sourceOperationId
        (expected read))

/-- The registry with its callers. Every write succeeds, so a restart finds
the store as it was. -/
def protocol : Protocol Store Uuid Actor Deed Empty Note where
  enter := .looking
  resume
    | s, .looking applicationId, _ =>
        (s, some (.holding applicationId (s.getBinding applicationId)),
          [.read applicationId (s.getBinding applicationId)])
    | s, .holding applicationId read, deed =>
        let (s', notes) := perform s applicationId read deed
        (s', none, notes)
  world := fun s _ => s
  reopen := fun s => s

end Yunpanel.Applications.RuntimeBinding
