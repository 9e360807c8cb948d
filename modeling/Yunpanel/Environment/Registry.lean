/-
The registry of the applications' environments.

# What is kept

One list of records, the variables of all applications and two internal
secrets of an application among them, and for each application whose
environment ever changed the number of its saved state, its revision, with
the revision that was last applied.

# How a call is split

A call runs from its last wait to its write without another call in
between. A secret is sealed under the registry's key with the application
and the name of the variable as associated data; what a call returns of a
record is the record of that name at the time its write has settled.
-/
import Yunpanel.Lib.WriteChain
import Yunpanel.Lib.Table
import Yunpanel.Secrets.Stores
import Yunpanel.Environment.Import
import Yunpanel.Environment.File

namespace Yunpanel.Environment

open Lib Json Applications
open Secrets hiding Failure

-- ====== records

/-- A record of the store. -/
structure Record where
  applicationId : Uuid
  key : String
  value : VariableValue
  createdAt : Instant
  updatedAt : Instant
  deriving DecidableEq

def gitCredentialKey : String := "YUNPANEL_GIT_CREDENTIAL"

def githubWebhookSecretKey : String := "YUNPANEL_GITHUB_WEBHOOK_SECRET"

/-- `INTERNAL_KEYS` -/
def internalKeys : List String := [gitCredentialKey, githubWebhookSecretKey]

namespace Record

def secret (r : Record) : Bool :=
  match r.value with
  | .plain _ => false
  | .secret _ => true

/-- The record of a name of an application. -/
def isAt (applicationId : Uuid) (key : String) (r : Record) : Bool :=
  r.applicationId == applicationId && r.key == key

/-- A variable of the application, no internal secret. -/
def isOf (applicationId : Uuid) (r : Record) : Bool :=
  r.applicationId == applicationId && !internalKeys.contains r.key

/-- What `setVariable` makes of the record that is there, if one is. -/
def assigned (applicationId : Uuid) (key : String) (value : VariableValue)
    (now : Instant) : Option Record → Record
  | none => { applicationId, key, value, createdAt := now, updatedAt := now }
  | some r => { r with applicationId, key, value, updatedAt := now }

end Record

/-- `CHANGE_SOURCES` -/
inductive ChangeSource where
  | single
  | importMerge
  | importReplace
  | migration
  deriving DecidableEq, Repr

structure Change where
  source : ChangeSource
  added : Nat
  updated : Nat
  deleted : Nat
  deriving DecidableEq, Repr

/-- The state of one application's environment. -/
structure Metadata where
  applicationId : Uuid
  revision : Nat
  appliedRevision : Option Nat
  appliedReleaseId : Option Uuid
  lastChangedAt : Option Instant
  lastAppliedAt : Option Instant
  lastChange : Option Change
  deriving DecidableEq

/-- The state of an environment that never changed. -/
def Metadata.fresh (applicationId : Uuid) : Metadata where
  applicationId
  revision := 0
  appliedRevision := none
  appliedReleaseId := none
  lastChangedAt := none
  lastAppliedAt := none
  lastChange := none

def Metadata.changed (now : Instant) (change : Change) (m : Metadata) :
    Metadata :=
  { m with
    revision := m.revision + 1
    lastChangedAt := some now
    lastChange := some change }

/-- What the registry holds: `state`. -/
structure Environments where
  records : List Record
  environments : List Metadata
  deriving DecidableEq

def emptyState : Environments := ⟨[], []⟩

namespace Environments

/-- The variables of an application. -/
def variablesOf (s : Environments) (applicationId : Uuid) : List Record :=
  s.records.filter (Record.isOf applicationId)

/-- `environmentState` -/
def environmentState (s : Environments) (applicationId : Uuid) :
    Option Metadata :=
  s.environments.find? fun m => m.applicationId == applicationId

/-- The saved revision of an application: `?.revision ?? 0`. -/
def savedRevision (s : Environments) (applicationId : Uuid) : Nat :=
  ((s.environmentState applicationId).map Metadata.revision).getD 0

def appliedRevision (s : Environments) (applicationId : Uuid) : Option Nat :=
  (s.environmentState applicationId).bind Metadata.appliedRevision

/-- Change the state of one application's environment, in place where it
has one. -/
def onEnvironment (applicationId : Uuid) (f : Metadata → Metadata)
    (environments : List Metadata) : List Metadata :=
  upsert (fun m => m.applicationId == applicationId)
    (fun m => f (m.getD (Metadata.fresh applicationId))) environments

def recordEnvironmentChange (applicationId : Uuid) (now : Instant)
    (change : Change) (environments : List Metadata) : List Metadata :=
  onEnvironment applicationId (Metadata.changed now change) environments

end Environments

-- ====== configuration

/-- What the registry was created with. -/
structure Config where
  crypto : Crypto
  encryptionKey : Option Key

/-- What a call finds around it: the clock, the applications before and
after its write, and the nonces it draws. -/
structure Env where
  now : Instant
  applicationExists : Uuid → Bool
  stillExists : Uuid → Bool
  nonce : Nat → Nonce

/-- An error of the shared checks as one of the registry. -/
def Failure.asRegistry : Failure → Failure
  | .validation code message => refuse code message
  | e => e

def asRegistry {α : Type} : Except Failure α → Except Failure α
  | .ok a => .ok a
  | .error e => .error (Failure.asRegistry e)

def normalizeApplicationId (value : Json) : Except Failure Uuid :=
  demand (refuse "invalid_application_id" "applicationId is invalid")
    (Uuid.read? value)

def ensureApplication (applicationExists : Uuid → Bool)
    (applicationId : Uuid) : Except Failure Unit :=
  ensure (refuse "application_not_found" "Application not found" 404)
    (applicationExists applicationId)

def validateEnvironmentRevision (value : Json)
    (field : String := "environment revision") : Except Failure Nat :=
  demand (refuse "invalid_environment_revision" (field ++ " is invalid"))
    ((SafeNat.read? value).map SafeNat.val)

def requireKey (config : Config) : Except Failure Key :=
  demand (refuse "secret_store_unavailable"
    "Secret master key is not configured" 503) config.encryptionKey

def aadOf (applicationId : Uuid) (key : String) : String :=
  applicationId.text ++ ":" ++ key

def encryptValue (config : Config) (nonce : Nonce) (applicationId : Uuid)
    (key value : String) : Except Failure Envelope := do
  let masterKey ← requireKey config
  return sealText config.crypto masterKey nonce (aadOf applicationId key)
    value

/-- `decryptValue`, of a secret record. -/
def decryptValue (config : Config) (applicationId : Uuid) (key : String)
    (envelope : Envelope) : Except Failure String := do
  let masterKey ← requireKey config
  demand (refuse "secret_decryption_failed"
      "Stored application secret could not be decrypted" 500)
    (config.crypto.cipher.decrypt masterKey (aadOf applicationId key)
      envelope)

/-- `record.secret ? decryptValue(encryptionKey, record) : record.value` -/
def Record.open (config : Config) (r : Record) : Except Failure String :=
  match r.value with
  | .plain value => .ok value
  | .secret envelope => decryptValue config r.applicationId r.key envelope

/-- A value as it is stored. -/
def storedValue (config : Config) (nonce : Nonce) (applicationId : Uuid)
    (key value : String) (secret : Bool) : Except Failure VariableValue :=
  if secret then
    (encryptValue config nonce applicationId key value).map .secret
  else .ok (.plain value)

-- ====== replies

structure PublicVariable where
  applicationId : Uuid
  key : String
  secret : Bool
  value : Option String
  hasValue : Bool
  createdAt : Instant
  updatedAt : Instant
  deriving DecidableEq

def publicVariable (r : Record) : PublicVariable where
  applicationId := r.applicationId
  key := r.key
  secret := r.secret
  value :=
    match r.value with
    | .plain value => some value
    | .secret _ => none
  hasValue := true
  createdAt := r.createdAt
  updatedAt := r.updatedAt

structure PublicWebhookSecret where
  applicationId : Option Uuid
  configured : Bool
  createdAt : Option Instant
  updatedAt : Option Instant
  deriving DecidableEq

def publicWebhookSecret : Option Record → PublicWebhookSecret
  | some r => ⟨some r.applicationId, true, some r.createdAt, some r.updatedAt⟩
  | none => ⟨none, false, none, none⟩

structure PublicEnvironment where
  applicationId : Uuid
  savedRevision : Nat
  appliedRevision : Option Nat
  appliedReleaseId : Option Uuid
  savedOnDisk : Bool
  appliedToRunningProcess : Bool
  state : String
  lastChangedAt : Option Instant
  lastAppliedAt : Option Instant
  lastChange : Option Change
  deriving DecidableEq

def publicEnvironmentState (record : Option Metadata) (applicationId : Uuid)
    (currentReleaseId : Option Uuid) : PublicEnvironment :=
  let m := record.getD (Metadata.fresh applicationId)
  let applied := currentReleaseId.isSome
    && m.appliedReleaseId == currentReleaseId
    && m.appliedRevision == some m.revision
  { applicationId
    savedRevision := m.revision
    appliedRevision := m.appliedRevision
    appliedReleaseId := m.appliedReleaseId
    savedOnDisk := true
    appliedToRunningProcess := applied
    state := if applied then "applied_to_running_process" else "saved_on_disk"
    lastChangedAt := m.lastChangedAt
    lastAppliedAt := m.lastAppliedAt
    lastChange := m.lastChange }

inductive Reply where
  | variable (v : PublicVariable)
  | deleted
  | imported (vars : List PublicVariable) (environment : PublicEnvironment)
  | environment (environment : PublicEnvironment)
  | vars (vars : List PublicVariable)
  | materialized (values : Properties)
  | webhookSecret (secret : PublicWebhookSecret)
  | webhookText (secret : Option String)

abbrev EnvironmentEffect := Effect Environments Failure Reply

-- ====== variables

structure VariableInput where
  applicationId : Json
  key : Json
  value : Json
  secret : Json

/-- What a call of `setVariable` will write. -/
structure Assignment where
  applicationId : Uuid
  key : EnvironmentKey
  value : EnvironmentValue
  secret : Bool

def normalizeVariableInput (input : VariableInput) :
    Except Failure Assignment :=
  asRegistry do
    let applicationId ← normalizeApplicationId input.applicationId
    let key ← normalizeEnvironmentKey input.key
    let value ← normalizeEnvironmentValue input.value
    return { applicationId, key, value, secret := input.secret == .bool true }

/-- The record of a name, or the one a call left where it is gone by
now. -/
def current (r : Record) (s : Environments) : Record :=
  (s.records.find? (Record.isAt r.applicationId r.key)).getD r

/-- Write one variable: the record it becomes, and the store after. -/
def Assignment.write (a : Assignment) (value : VariableValue)
    (now : Instant) (s : Environments) : Record × Environments :=
  let here := Record.isAt a.applicationId a.key.text
  let write := Record.assigned a.applicationId a.key.text value now
  let added := !s.records.any here
  (write (s.records.find? here),
    { records := upsert here write s.records
      environments := Environments.recordEnvironmentChange a.applicationId now
        { source := .single
          added := if added then 1 else 0
          updated := if added then 0 else 1
          deleted := 0 } s.environments })

/-- The checks of `setVariable`, and the value as it will be stored. -/
def prepareVariable (config : Config) (env : Env) (input : VariableInput) :
    Except Failure (Assignment × VariableValue) := do
  let a ← normalizeVariableInput input
  ensureApplication env.applicationExists a.applicationId
  let value ← storedValue config (env.nonce 0) a.applicationId a.key.text
    a.value.text a.secret
  return (a, value)

def setVariable (config : Config) (env : Env) (input : VariableInput)
    (s : Environments) : EnvironmentEffect :=
  match prepareVariable config env input with
  | .error e => .refused e
  | .ok (a, value) =>
      let (record, next) := a.write value env.now s
      .written next fun s => .ok (.variable (publicVariable (current record s)))

/-- The checks of `deleteVariable`. -/
def prepareDelete (env : Env) (applicationId key : Json) (s : Environments) :
    Except Failure (Uuid × EnvironmentKey) := do
  let id ← normalizeApplicationId applicationId
  let key ← asRegistry (normalizeEnvironmentKey key)
  ensureApplication env.applicationExists id
  ensure (refuse "environment_variable_not_found"
      "Environment variable not found" 404)
    (s.records.any (Record.isAt id key.text))
  return (id, key)

def deleteVariable (env : Env) (applicationId key : Json)
    (s : Environments) : EnvironmentEffect :=
  match prepareDelete env applicationId key s with
  | .error e => .refused e
  | .ok (id, key) =>
      .written
        { records := s.records.eraseP (Record.isAt id key.text)
          environments := Environments.recordEnvironmentChange id env.now
            { source := .single, added := 0, updated := 0, deleted := 1 }
            s.environments }
        fun _ => .ok .deleted

-- ====== reading

def listVariables (applicationExists : Uuid → Bool) (applicationId : Json)
    (s : Environments) : Except Failure (List PublicVariable) := do
  let id ← normalizeApplicationId applicationId
  ensureApplication applicationExists id
  return ((s.variablesOf id).mergeSort fun left right =>
    Text.localeCompare left.key right.key != .gt).map publicVariable

def environmentStatus (applicationExists : Uuid → Bool)
    (applicationId currentReleaseId : Json) (s : Environments) :
    Except Failure PublicEnvironment := do
  let id ← normalizeApplicationId applicationId
  ensureApplication applicationExists id
  let releaseId ←
    match currentReleaseId with
    | .null => pure none
    | value => (normalizeApplicationId value).map some
  return publicEnvironmentState (s.environmentState id) id releaseId

variable {key : String} {fields : Fields}

theorem mem_keys_assign {k : String} {value : Json}
    (h : k ∈ (Json.assign key value fields).map Prod.fst) :
    k = key ∨ k ∈ fields.map Prod.fst := by
  induction fields with
  | nil => exact .inl (List.mem_singleton.mp h)
  | cons field rest ih =>
      obtain ⟨k', v⟩ := field
      by_cases hk : k' = key
      · rw [Json.assign, if_pos hk] at h
        exact .inr h
      · rw [Json.assign, if_neg hk, List.map_cons] at h
        rcases List.mem_cons.mp h with rfl | hin
        · exact .inr List.mem_cons_self
        · exact (ih hin).imp_right (List.mem_cons_of_mem k')

theorem nodup_assign (key : String) (value : Json)
    (h : (fields.map Prod.fst).Nodup) :
    ((Json.assign key value fields).map Prod.fst).Nodup := by
  induction fields with
  | nil => exact List.nodup_singleton key
  | cons field rest ih =>
      obtain ⟨k, v⟩ := field
      by_cases hk : k = key
      · rw [Json.assign, if_pos hk]
        exact h
      · rw [List.map_cons, List.nodup_cons] at h
        rw [Json.assign, if_neg hk, List.map_cons, List.nodup_cons]
        refine ⟨fun hin => ?_, ih h.2⟩
        rcases mem_keys_assign hin with hkey | hin
        · exact hk hkey
        · exact h.1 hin

/-- A new name is put at the end. -/
theorem assign_of_not_mem (h : key ∉ fields.map Prod.fst) (value : Json) :
    Json.assign key value fields = fields ++ [(key, value)] := by
  induction fields with
  | nil => rfl
  | cons field rest ih =>
      obtain ⟨k, v⟩ := field
      rw [List.map_cons, List.mem_cons, not_or] at h
      rw [Json.assign, if_neg (Ne.symm h.1), ih h.2]
      rfl

/-- One turn of the loop of `materialize`: `values[record.key] = …` -/
def Properties.put (key value : String) (values : Properties) :
    Properties where
  entries := Json.assign key (.str value) values.entries
  distinct := nodup_assign key (.str value) values.distinct

def noProperties : Properties := ⟨[], List.nodup_nil⟩

def materializeRecord (config : Config) (values : Properties) (r : Record) :
    Except Failure Properties := do
  let value ← r.open config
  return values.put r.key value

/-- The loop of `materialize`. -/
def bundleOf (config : Config) (s : Environments) (id : Uuid) :
    Except Failure Properties :=
  (s.variablesOf id).foldlM (materializeRecord config) noProperties

def materialize (config : Config) (applicationExists : Uuid → Bool)
    (applicationId expectedRevision : Json) (s : Environments) :
    Except Failure Properties := do
  let id ← normalizeApplicationId applicationId
  ensureApplication applicationExists id
  match expectedRevision with
  | .null => pure ()
  | value =>
      let expected ← validateEnvironmentRevision value
        "expected environment revision"
      ensure (refuse "environment_revision_conflict"
          "Application environment changed after the job was queued" 409)
        (expected == s.savedRevision id)
  bundleOf config s id

-- ====== imports

/-- `mode` of an import. -/
inductive ImportMode where
  | merge
  | replace
  deriving DecidableEq, Repr

def ImportMode.ofJson? : Json → Option ImportMode
  | .str "merge" => some merge
  | .str "replace" => some replace
  | _ => none

def ImportMode.source : ImportMode → ChangeSource
  | merge => .importMerge
  | replace => .importReplace

/-- A missing confirmation is none. -/
structure ImportInput where
  applicationId : Json
  content : Json
  mode : Json
  secret : Json
  expectedRevision : Json
  confirmation : Option Json

def replaceConfirmation (id : Uuid) (revision : Nat) : String :=
  "replace-environment:" ++ id.text ++ ":" ++ toString revision

/-- What an import may do, once its request is checked. -/
structure ImportRequest where
  applicationId : Uuid
  mode : ImportMode
  secret : Bool
  vars : Variables

/-- The checks of `importVariables` that come before its loop. -/
def prepareImport (env : Env) (input : ImportInput) (s : Environments) :
    Except Failure ImportRequest := do
  let id ← normalizeApplicationId input.applicationId
  ensureApplication env.applicationExists id
  let currentRevision := s.savedRevision id
  let expected ← validateEnvironmentRevision input.expectedRevision
    "expected environment revision"
  ensure (refuse "environment_revision_conflict"
      "Application environment changed after the import was prepared" 409)
    (expected == currentRevision)
  let (mode, secret) ← demand (refuse "invalid_environment_import"
      "Environment import mode and visibility are invalid")
    ((ImportMode.ofJson? input.mode).bind fun mode =>
      input.secret.bool?.map fun secret => (mode, secret))
  let confirmation := replaceConfirmation id currentRevision
  match mode with
  | .replace =>
      ensure (refuse "environment_import_confirmation_required"
          ("Confirm replacement with " ++ confirmation))
        (input.confirmation == some (.str confirmation))
  | .merge =>
      ensure (refuse "environment_import_confirmation_required"
          "Merge imports require a null confirmation")
        (input.confirmation == some .null)
  let vars ← asRegistry (parseApplicationEnvironmentImport input.content)
  return { applicationId := id, mode, secret, vars }

/-- `map.set(record.key, record)` -/
def setRecord (r : Record) (map : List Record) : List Record :=
  upsert (fun candidate => candidate.key == r.key) (fun _ => r) map

/-- `new Map(records.map((record) => [record.key, record]))` -/
def mapOf (records : List Record) : List Record :=
  records.foldl (fun map r => setRecord r map) []

/-- What the loop of an import has put together so far. -/
structure Merged where
  next : List Record
  added : Nat
  updated : Nat

/-- `previous && previous.secret === secret && previousValue === value` -/
def isUnchanged (config : Config) (secret : Bool) (value : String) :
    Option Record → Except Failure Bool
  | none => .ok false
  | some previous =>
      if previous.secret = secret then
        (previous.open config).map fun before => before == value
      else .ok false

/-- One turn of the loop over the imported variables. -/
def importEntry (config : Config) (env : Env) (request : ImportRequest)
    (existing : List Record) (merged : Merged)
    (entry : EnvironmentKey × EnvironmentValue) : Except Failure Merged := do
  let (key, value) := entry
  let previous := existing.find? fun r => r.key == key.text
  let unchanged ← isUnchanged config request.secret value.text previous
  match previous, unchanged with
  | some previous, true =>
      return { merged with next := setRecord previous merged.next }
  | previous, _ =>
      let stored ← storedValue config
        (env.nonce (merged.added + merged.updated)) request.applicationId
        key.text value.text request.secret
      let record : Record :=
        { applicationId := request.applicationId
          key := key.text
          value := stored
          createdAt := (previous.map Record.createdAt).getD env.now
          updatedAt := env.now }
      return { next := setRecord record merged.next
               added := merged.added + if previous.isNone then 1 else 0
               updated := merged.updated + if previous.isSome then 1 else 0 }

/-- The loop of `importVariables` and its limit: the records the
application is to have, and what changed. -/
def importRecords (config : Config) (env : Env) (request : ImportRequest)
    (s : Environments) : Except Failure (List Record × Change) := do
  let existing := s.variablesOf request.applicationId
  let byKey := mapOf existing
  let start : Merged :=
    { next := match request.mode with
        | .merge => byKey
        | .replace => []
      added := 0
      updated := 0 }
  let merged ← request.vars.foldlM
    (importEntry config env request byKey) start
  let deleted :=
    match request.mode with
    | .replace => (existing.filter fun r =>
        !request.vars.any fun v => v.1.text == r.key).length
    | .merge => 0
  ensure (refuse "environment_limit_exceeded"
      "Application environment supports at most 100 variables")
    (decide (merged.next.length ≤ maxVariables))
  return (merged.next,
    { source := request.mode.source
      added := merged.added
      updated := merged.updated
      deleted })

/-- What an import answers. -/
def importReply (env : Env) (applicationId : Json) (s : Environments) :
    Except Failure Reply := do
  let vars ← listVariables env.stillExists applicationId s
  let environment ← environmentStatus env.stillExists applicationId .null s
  return .imported vars environment

/-- The store after an import that changes something. -/
def Environments.withImport (id : Uuid) (records : List Record)
    (change : Change) (now : Instant) (s : Environments) : Environments :=
  { records := s.records.filter (fun r => !r.isOf id) ++ records
    environments :=
      Environments.recordEnvironmentChange id now change s.environments }

def importVariables (config : Config) (env : Env) (input : ImportInput)
    (s : Environments) : EnvironmentEffect :=
  match prepareImport env input s with
  | .error e => .refused e
  | .ok request =>
      match importRecords config env request s with
      | .error e => .refused e
      | .ok (records, change) =>
          if change.added + change.updated + change.deleted > 0 then
            .written
              (s.withImport request.applicationId records change env.now)
              (importReply env request.applicationId.json)
          else .ofResult (importReply env request.applicationId.json s)

-- ====== applying

structure AppliedInput where
  applicationId : Json
  revision : Json
  releaseId : Json

/-- The checks of `markApplied`. -/
def prepareApplied (env : Env) (input : AppliedInput) (s : Environments) :
    Except Failure (Uuid × Nat × Uuid) := do
  let id ← normalizeApplicationId input.applicationId
  let releaseId ← normalizeApplicationId input.releaseId
  let revision ← validateEnvironmentRevision input.revision
  ensureApplication env.applicationExists id
  ensure (refuse "environment_revision_conflict"
      "Applied environment revision does not match saved state" 409)
    (decide (revision ≤ s.savedRevision id)
      && (s.appliedRevision id).all (decide <| · ≤ revision))
  return (id, revision, releaseId)

def Metadata.applied (revision : Nat) (releaseId : Uuid) (now : Instant)
    (m : Metadata) : Metadata :=
  { m with
    appliedRevision := some revision
    appliedReleaseId := some releaseId
    lastAppliedAt := some now }

/-- The state of an application's environment as a reply, compared with one
release. -/
def environmentReply (id releaseId : Uuid) (s : Environments) : Reply :=
  .environment
    (publicEnvironmentState (s.environmentState id) id (some releaseId))

def markApplied (env : Env) (input : AppliedInput) (s : Environments) :
    EnvironmentEffect :=
  match prepareApplied env input s with
  | .error e => .refused e
  | .ok (id, revision, releaseId) =>
      let metadata := (s.environmentState id).getD (Metadata.fresh id)
      if metadata.appliedRevision = some revision
          ∧ metadata.appliedReleaseId = some releaseId then
        .replied (environmentReply id releaseId s)
      else
        .written
          { s with
            environments := Environments.onEnvironment id
              (Metadata.applied revision releaseId env.now) s.environments }
          fun s => .ok (environmentReply id releaseId s)

-- ====== webhook secrets

/-- `/^[\x21-\x7e]{32,128}$/` -/
def isWebhookSecret (s : String) : Bool :=
  Text.inClass (fun c => 0x21 ≤ c.toNat && c.toNat ≤ 0x7e) 32 128 s

def normalizeWebhookSecret (value : Json) : Except Failure String :=
  demand (refuse "invalid_github_webhook_secret"
      ("GitHub webhook secret must be 32 to 128 printable ASCII "
        ++ "characters without spaces"))
    (value.str?.filter isWebhookSecret)

/-- The checks of `setWebhookSecret`, and the secret sealed. -/
def prepareWebhookSecret (config : Config) (env : Env)
    (applicationId secret : Json) :
    Except Failure (Uuid × VariableValue) := do
  let id ← normalizeApplicationId applicationId
  let secret ← normalizeWebhookSecret secret
  ensureApplication env.applicationExists id
  let value ← storedValue config (env.nonce 0) id githubWebhookSecretKey
    secret true
  return (id, value)

def setWebhookSecret (config : Config) (env : Env)
    (applicationId secret : Json) (s : Environments) : EnvironmentEffect :=
  match prepareWebhookSecret config env applicationId secret with
  | .error e => .refused e
  | .ok (id, value) =>
      let here := Record.isAt id githubWebhookSecretKey
      let write := Record.assigned id githubWebhookSecretKey value env.now
      let record := write (s.records.find? here)
      .written { s with records := upsert here write s.records }
        fun s =>
          .ok (.webhookSecret (publicWebhookSecret (some (current record s))))

/-- The record of an application's webhook secret. -/
def webhookRecord (applicationExists : Uuid → Bool) (applicationId : Json)
    (s : Environments) : Except Failure (Uuid × Option Record) := do
  let id ← normalizeApplicationId applicationId
  ensureApplication applicationExists id
  return (id, s.records.find? (Record.isAt id githubWebhookSecretKey))

def webhookSecret (applicationExists : Uuid → Bool) (applicationId : Json)
    (s : Environments) : Except Failure PublicWebhookSecret := do
  let (_, record) ← webhookRecord applicationExists applicationId s
  return publicWebhookSecret record

def materializeWebhookSecret (config : Config)
    (applicationExists : Uuid → Bool) (applicationId : Json)
    (s : Environments) : Except Failure (Option String) := do
  let (_, record) ← webhookRecord applicationExists applicationId s
  match record with
  | none => return none
  | some r =>
      let text ← r.open config
      (normalizeWebhookSecret (.str text)).map some

def deleteWebhookSecret (env : Env) (applicationId : Json)
    (s : Environments) : EnvironmentEffect :=
  match webhookRecord env.applicationExists applicationId s with
  | .error e => .refused e
  | .ok (_, none) => .refused (refuse "github_webhook_secret_not_found"
      "GitHub webhook secret is not configured" 404)
  | .ok (id, some _) =>
      .written
        { s with
          records := s.records.eraseP (Record.isAt id githubWebhookSecretKey) }
        fun _ => .ok .deleted

-- ====== loading

/-- `validateEnvironmentState`, of a record whose fields have their
types. -/
def validateEnvironmentState (m : Metadata) : Bool :=
  decide (m.revision ≤ 9007199254740991)
    && m.appliedRevision.all (decide <| · ≤ m.revision)
    && m.appliedRevision.isSome == m.appliedReleaseId.isSome
    && (m.lastChange.all fun change =>
      [change.added, change.updated, change.deleted].all
        (decide <| · ≤ 9007199254740991))
    && (m.revision == 0) == m.lastChange.isNone
    && (m.revision == 0) == m.lastChangedAt.isNone
    && m.appliedRevision.isSome == m.lastAppliedAt.isSome

/-- `init`, of a store of the current version. -/
def init (stored : Environments) : Except Failure Environments := do
  ensure .invalidStore (stored.environments.all validateEnvironmentState)
  ensure .invalidStore
    (decide (stored.environments.map Metadata.applicationId).Nodup)
  return stored

-- ====== machine

/-- A call of the registry. -/
inductive Call where
  | setVariable (input : VariableInput)
  | deleteVariable (applicationId key : Json)
  | importVariables (input : ImportInput)
  | markApplied (input : AppliedInput)
  | environmentStatus (applicationId currentReleaseId : Json)
  | listVariables (applicationId : Json)
  | materialize (applicationId expectedRevision : Json)
  | setWebhookSecret (applicationId secret : Json)
  | webhookSecret (applicationId : Json)
  | materializeWebhookSecret (applicationId : Json)
  | deleteWebhookSecret (applicationId : Json)

def Call.effect (config : Config) (env : Env) :
    Call → Environments → EnvironmentEffect
  | setVariable input => Environment.setVariable config env input
  | deleteVariable applicationId key =>
      Environment.deleteVariable env applicationId key
  | importVariables input => Environment.importVariables config env input
  | markApplied input => Environment.markApplied env input
  | environmentStatus applicationId currentReleaseId => fun s =>
      .ofResult (Reply.environment <$> Environment.environmentStatus
        env.applicationExists applicationId currentReleaseId s)
  | listVariables applicationId => fun s =>
      .ofResult (Reply.vars <$> Environment.listVariables
        env.applicationExists applicationId s)
  | materialize applicationId expectedRevision => fun s =>
      .ofResult (Reply.materialized <$> Environment.materialize config
        env.applicationExists applicationId expectedRevision s)
  | setWebhookSecret applicationId secret =>
      Environment.setWebhookSecret config env applicationId secret
  | webhookSecret applicationId => fun s =>
      .ofResult (Reply.webhookSecret <$> Environment.webhookSecret
        env.applicationExists applicationId s)
  | materializeWebhookSecret applicationId => fun s =>
      .ofResult (Reply.webhookText <$> Environment.materializeWebhookSecret
        config env.applicationExists applicationId s)
  | deleteWebhookSecret applicationId =>
      Environment.deleteWebhookSecret env applicationId

/-- The registry in memory, its file, and the writes between them. -/
abbrev Registry := Store Environments Failure Reply

/-- What happens next: a call, the write at the head of the chain settling,
or the control plane starting again from the file. -/
inductive Event where
  | call (env : Env) (c : Call)
  | settle (ok : Bool)
  | restart

def Registry.step (config : Config) (r : Registry) :
    Event → Registry × Outcome Failure Reply
  | .call env c => r.call (c.effect config env)
  | .settle ok => r.settle .store ok
  | .restart =>
      match init r.file with
      | .ok s => (Store.opened s, .idle)
      | .error e => (r, .rejected e)

def machine (config : Config) :
    Machine Registry Event (Outcome Failure Reply) where
  step := Registry.step config

end Yunpanel.Environment
