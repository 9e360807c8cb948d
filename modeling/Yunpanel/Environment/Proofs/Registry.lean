/-
What a call of the environment registry may write.

# The inversion

`Write` lists every way a call changes the store, with what its checks have
established, and `write_of_written` says that there is no other. What holds
along runs is read off it, and no proof above this module unfolds a call.

# Validity

Names are distinct within an application, and every variable opens to a
value of its kind: a sealed one because the key it was sealed under is the
registry's.
-/
import Yunpanel.Environment.Registry
import Yunpanel.Environment.Proofs.File

namespace Yunpanel.Environment

open Lib Json Applications
open Secrets hiding Failure

-- ====== lookups

variable {key : String} {r : Record} {map : List Record}
  {request : ImportRequest} {a : Assignment} {input : VariableInput}
  {applicationId : Json}

theorem Record.isAt_iff {id : Uuid} :
    Record.isAt id key r = true ↔ r.applicationId = id ∧ r.key = key := by
  unfold Record.isAt
  rw [Bool.and_eq_true, beq_iff_eq, beq_iff_eq]

theorem Record.isOf_iff {id : Uuid} :
    Record.isOf id r = true ↔
      r.applicationId = id ∧ internalKeys.contains r.key = false := by
  unfold Record.isOf
  rw [Bool.and_eq_true, beq_iff_eq, Bool.not_eq_true']

/-- What makes a record one of its store. -/
def Record.place (r : Record) : Uuid × String := (r.applicationId, r.key)

theorem Record.isAt_iff_place {id : Uuid} :
    Record.isAt id key r = true ↔ r.place = (id, key) := by
  rw [Record.isAt_iff, Record.place, Prod.mk.injEq]

@[simp] theorem Record.place_assigned (id : Uuid) (key : String)
    (value : VariableValue) (now : Instant) (x : Option Record) :
    (Record.assigned id key value now x).place = (id, key) := by
  cases x <;> rfl

@[simp] theorem Record.value_assigned (id : Uuid) (key : String)
    (value : VariableValue) (now : Instant) (x : Option Record) :
    (Record.assigned id key value now x).value = value := by
  cases x <;> rfl

theorem Record.isOf_of_place {id : Uuid} {r' : Record}
    (h : r.place = r'.place) : Record.isOf id r = Record.isOf id r' := by
  obtain ⟨hid, hkey⟩ := Prod.mk.inj h
  unfold Record.isOf
  rw [hid, hkey]

/-- A name of a variable is none of the registry's own. -/
theorem EnvironmentKey.not_internal (key : EnvironmentKey) :
    internalKeys.contains key.text = false := by
  have hok := key.ok
  unfold isEnvironmentKey at hok
  rw [Bool.and_eq_true, Bool.not_eq_true'] at hok
  cases h : internalKeys.contains key.text with
  | false => rfl
  | true =>
      rw [List.contains_iff_mem] at h
      have hreserved : reservedKeys.contains key.text = true := by
        rw [List.contains_iff_mem]
        simp only [internalKeys, List.mem_cons, List.not_mem_nil,
          or_false] at h
        rcases h with h | h <;>
          simp [h, reservedKeys, gitCredentialKey, githubWebhookSecretKey]
      rw [hok.2] at hreserved
      cases hreserved

-- ====== revisions

variable {s : Environments} {id : Uuid}

theorem environmentState_onEnvironment {f : Metadata → Metadata}
    (hf : ∀ m, (f m).applicationId = m.applicationId) (id : Uuid)
    (records : List Record) (environments : List Metadata) (a : Uuid) :
    Environments.environmentState
        ⟨records, Environments.onEnvironment id f environments⟩ a
      = if a = id then
          some (f ((Environments.environmentState
            ⟨records, environments⟩ id).getD (Metadata.fresh id)))
        else Environments.environmentState ⟨records, environments⟩ a := by
  have hwrites : ∀ x : Option Metadata,
      x.all (fun m => m.applicationId == id) →
        (f (x.getD (Metadata.fresh id))).applicationId = id := by
    intro x hx
    rw [hf]
    cases x with
    | none => rfl
    | some m => exact beq_iff_eq.mp hx
  unfold Environments.environmentState Environments.onEnvironment
  by_cases ha : a = id
  · rw [if_pos ha, ha]
    refine find?_upsert_self (fun x hx => ?_) environments
    exact beq_iff_eq.mpr (hwrites x hx)
  · rw [if_neg ha]
    refine find?_upsert_other (fun x hx => ?_) (fun m hm => ?_) environments
    · rw [hwrites x hx, beq_eq_false_iff_ne]
      exact Ne.symm ha
    · rw [beq_iff_eq.mp hm, beq_eq_false_iff_ne]
      exact Ne.symm ha

/-- A recorded change raises one application's revision by one. -/
theorem savedRevision_changed (s : Environments) (records : List Record)
    (id : Uuid) (now : Instant) (change : Change) (a : Uuid) :
    Environments.savedRevision ⟨records,
        Environments.recordEnvironmentChange id now change s.environments⟩ a
      = if a = id then s.savedRevision id + 1 else s.savedRevision a := by
  unfold Environments.savedRevision Environments.recordEnvironmentChange
  rw [environmentState_onEnvironment (f := Metadata.changed now change)
    fun _ => rfl]
  by_cases ha : a = id
  · rw [if_pos ha, if_pos ha]
    show (s.environmentState id |>.getD (Metadata.fresh id)).revision + 1 = _
    cases s.environmentState id <;> rfl
  · rw [if_neg ha, if_neg ha]
    rfl

/-- And leaves what was applied. -/
theorem appliedRevision_changed (s : Environments) (records : List Record)
    (id : Uuid) (now : Instant) (change : Change) (a : Uuid) :
    Environments.appliedRevision ⟨records,
        Environments.recordEnvironmentChange id now change s.environments⟩ a
      = s.appliedRevision a := by
  unfold Environments.appliedRevision Environments.recordEnvironmentChange
  rw [environmentState_onEnvironment (f := Metadata.changed now change)
    fun _ => rfl]
  by_cases ha : a = id
  · rw [if_pos ha, ha]
    show (s.environmentState id |>.getD (Metadata.fresh id)).appliedRevision
      = _
    cases s.environmentState id <;> rfl
  · rw [if_neg ha]
    rfl

theorem savedRevision_applied (s : Environments) (id : Uuid) (revision : Nat)
    (releaseId : Uuid) (now : Instant) (a : Uuid) :
    Environments.savedRevision
        { s with
          environments := Environments.onEnvironment id
            (Metadata.applied revision releaseId now) s.environments } a
      = s.savedRevision a := by
  unfold Environments.savedRevision
  rw [environmentState_onEnvironment
    (f := Metadata.applied revision releaseId now) fun _ => rfl]
  by_cases ha : a = id
  · rw [if_pos ha, ha]
    show (s.environmentState id |>.getD (Metadata.fresh id)).revision = _
    cases s.environmentState id <;> rfl
  · rw [if_neg ha]

theorem appliedRevision_applied (s : Environments) (id : Uuid)
    (revision : Nat) (releaseId : Uuid) (now : Instant) (a : Uuid) :
    Environments.appliedRevision
        { s with
          environments := Environments.onEnvironment id
            (Metadata.applied revision releaseId now) s.environments } a
      = if a = id then some revision else s.appliedRevision a := by
  unfold Environments.appliedRevision
  rw [environmentState_onEnvironment
    (f := Metadata.applied revision releaseId now) fun _ => rfl]
  by_cases ha : a = id
  · rw [if_pos ha, if_pos ha]
    rfl
  · rw [if_neg ha, if_neg ha]

-- ====== opening

/-- A record opens to a value of a variable. -/
def Opens (config : Config) (r : Record) : Prop :=
  isEnvironmentKey r.key = true
    ∧ ∃ value : EnvironmentValue, r.open config = .ok value.text

theorem open_of_value {config : Config} {value : String} {nonce : Nonce}
    {secret : Bool} (hid : r.applicationId = id) (hkey : r.key = key)
    (h : storedValue config nonce id key value secret = .ok r.value) :
    r.open config = .ok value := by
  unfold storedValue at h
  cases secret with
  | false =>
      have hplain : VariableValue.plain value = r.value := Except.ok.inj h
      unfold Record.open
      rw [← hplain]
  | true =>
      obtain ⟨envelope, henvelope, hvalue⟩ := Result.map_eq_ok.mp h
      obtain ⟨masterKey, hmaster, hsealed⟩ := Result.bind_eq_ok.mp henvelope
      have hopened : config.crypto.cipher.decrypt masterKey (aadOf id key)
          envelope = some value := by
        rw [← Except.ok.inj hsealed]
        exact config.crypto.cipher.decrypt_encrypt _ _ _ _
      unfold Record.open
      rw [← hvalue]
      dsimp only
      unfold decryptValue
      rw [hid, hkey, hmaster, Result.ok_bind, hopened]
      rfl

-- ====== imports

theorem mem_setRecord {b : Record} (h : b ∈ setRecord r map) :
    b ∈ map ∨ b = r := mem_upsert h

theorem nodup_setRecord (r : Record) (h : (map.map Record.key).Nodup) :
    ((setRecord r map).map Record.key).Nodup :=
  nodup_upsert (fun _ _ => rfl) (fun _ => beq_iff_eq) h

theorem mapOf_spec (records : List Record) :
    ((mapOf records).map Record.key).Nodup
      ∧ ∀ r ∈ mapOf records, r ∈ records := by
  suffices h : ∀ (rest map : List Record),
      (map.map Record.key).Nodup → (∀ r ∈ map, r ∈ records) →
      (∀ r ∈ rest, r ∈ records) →
      ((rest.foldl (fun map r => setRecord r map) map).map Record.key).Nodup
        ∧ ∀ r ∈ rest.foldl (fun map r => setRecord r map) map,
            r ∈ records from
    h records [] List.nodup_nil (fun _ h => by cases h) fun _ h => h
  intro rest
  induction rest with
  | nil => exact fun map hnodup hmem _ => ⟨hnodup, hmem⟩
  | cons r rest ih =>
      intro map hnodup hmem hrest
      rw [List.forall_mem_cons] at hrest
      refine ih (setRecord r map) (nodup_setRecord r hnodup) ?_ hrest.2
      intro b hb
      rcases mem_setRecord hb with hb | rfl
      · exact hmem b hb
      · exact hrest.1

/-- What an import may leave an application with: records it had, and new
ones that open to their values. -/
structure Imported (config : Config) (s : Environments) (id : Uuid)
    (records : List Record) : Prop where
  distinct : (records.map Record.key).Nodup
  origin : ∀ r ∈ records, r ∈ s.variablesOf id
    ∨ r.applicationId = id ∧ Opens config r

theorem imported_importEntry {config : Config} {env : Env}
    {existing : List Record}
    (hexisting : ∀ r ∈ existing, r ∈ s.variablesOf request.applicationId)
    {merged merged' : Merged} {entry : EnvironmentKey × EnvironmentValue}
    (h : Imported config s request.applicationId merged.next)
    (hentry : importEntry config env request existing merged entry
      = .ok merged') :
    Imported config s request.applicationId merged'.next := by
  obtain ⟨key, value⟩ := entry
  unfold importEntry at hentry
  dsimp only at hentry
  obtain ⟨unchanged, -, hentry⟩ := Result.bind_eq_ok.mp hentry
  split at hentry
  · -- the variable is as the import has it: its record is kept
    rename_i previous hprevious
    rw [← Except.ok.inj hentry]
    refine ⟨nodup_setRecord _ h.distinct, fun r hr => ?_⟩
    rcases mem_setRecord hr with hr | rfl
    · exact h.origin r hr
    · exact .inl (hexisting r (List.mem_of_find?_eq_some hprevious))
  · obtain ⟨stored, hstored, hmerged⟩ := Result.bind_eq_ok.mp hentry
    rw [← Except.ok.inj hmerged]
    refine ⟨nodup_setRecord _ h.distinct, fun r hr => ?_⟩
    rcases mem_setRecord hr with hr | rfl
    · exact h.origin r hr
    · exact .inr ⟨rfl, key.ok, value, open_of_value rfl rfl hstored⟩

theorem imported_importRecords {config : Config} {env : Env}
    {records : List Record} {change : Change}
    (h : importRecords config env request s = .ok (records, change)) :
    Imported config s request.applicationId records
      ∧ records.length ≤ maxVariables := by
  unfold importRecords at h
  dsimp only at h
  obtain ⟨merged, hmerged, h⟩ := Result.bind_eq_ok.mp h
  obtain ⟨_, hlength, h⟩ := Result.bind_eq_ok.mp h
  rw [ensure_eq_ok, decide_eq_true_eq] at hlength
  obtain ⟨rfl, -⟩ := Prod.mk.inj (Except.ok.inj h)
  obtain ⟨hnodup, hmem⟩ := mapOf_spec (s.variablesOf request.applicationId)
  refine ⟨?_, hlength⟩
  refine Result.foldlM_invariant
    (P := fun m : Merged =>
      Imported config s request.applicationId m.next)
    (fun m entry m' hm hentry => imported_importEntry hmem hm hentry) ?_
    hmerged
  cases request.mode with
  | merge => exact ⟨hnodup, fun r hr => .inl (hmem r hr)⟩
  | replace => exact ⟨List.nodup_nil, fun r hr => by cases hr⟩

-- ====== writes

/-- Every way a call changes the store. -/
inductive Write (config : Config) (s : Environments) :
    Call → Environments → Prop where
  | assigned (input : VariableInput) (a : Assignment)
      (value : VariableValue) (nonce : Nonce) (now : Instant)
      (hinput : normalizeVariableInput input = .ok a)
      (hvalue : storedValue config nonce a.applicationId a.key.text
        a.value.text a.secret = .ok value) :
      Write config s (.setVariable input) (a.write value now s).2
  | delete (applicationId name : Json) (id : Uuid) (key : EnvironmentKey)
      (now : Instant) (change : Change)
      (hid : Uuid.read? applicationId = some id)
      (hpresent : s.records.any (Record.isAt id key.text) = true) :
      Write config s (.deleteVariable applicationId name)
        { records := s.records.eraseP (Record.isAt id key.text)
          environments := Environments.recordEnvironmentChange id now change
            s.environments }
  | imported (input : ImportInput) (id : Uuid) (records : List Record)
      (change : Change) (now : Instant)
      (hid : Uuid.read? input.applicationId = some id)
      (hrecords : Imported config s id records)
      (hlength : records.length ≤ maxVariables) :
      Write config s (.importVariables input)
        (s.withImport id records change now)
  | applied (input : AppliedInput) (id : Uuid) (revision : Nat)
      (releaseId : Uuid) (now : Instant)
      (hsaved : revision ≤ s.savedRevision id)
      (hgrows : ∀ n, s.appliedRevision id = some n → n ≤ revision) :
      Write config s (.markApplied input)
        { s with
          environments := Environments.onEnvironment id
            (Metadata.applied revision releaseId now) s.environments }
  | hook (applicationId secret : Json) (id : Uuid) (value : VariableValue)
      (now : Instant) :
      Write config s (.setWebhookSecret applicationId secret)
        { s with
          records := upsert (Record.isAt id githubWebhookSecretKey)
            (Record.assigned id githubWebhookSecretKey value now) s.records }
  | unhook (applicationId : Json) (id : Uuid) :
      Write config s (.deleteWebhookSecret applicationId)
        { s with
          records := s.records.eraseP
            (Record.isAt id githubWebhookSecretKey) }

variable {config : Config} {env : Env} {t : Environments}
  {reply : Environments → Except Failure Reply}

theorem asRegistry_eq_ok {α : Type} {x : Except Failure α} {a : α} :
    asRegistry x = .ok a ↔ x = .ok a := by
  cases x <;> simp [asRegistry]

theorem read_of_normalizeVariableInput
    (h : normalizeVariableInput input = .ok a) :
    Uuid.read? input.applicationId = some a.applicationId := by
  unfold normalizeVariableInput at h
  rw [asRegistry_eq_ok] at h
  obtain ⟨id, hid, h⟩ := Result.bind_eq_ok.mp h
  obtain ⟨key, -, h⟩ := Result.bind_eq_ok.mp h
  obtain ⟨value, -, h⟩ := Result.bind_eq_ok.mp h
  rw [← Except.ok.inj h]
  exact demand_eq_ok.mp hid

theorem prepareVariable_eq_ok {value : VariableValue}
    (h : prepareVariable config env input = .ok (a, value)) :
    normalizeVariableInput input = .ok a
      ∧ storedValue config (env.nonce 0) a.applicationId a.key.text
        a.value.text a.secret = .ok value := by
  unfold prepareVariable at h
  obtain ⟨a', ha, h⟩ := Result.bind_eq_ok.mp h
  obtain ⟨_, -, h⟩ := Result.bind_eq_ok.mp h
  obtain ⟨value', hvalue, h⟩ := Result.bind_eq_ok.mp h
  obtain ⟨rfl, rfl⟩ := Prod.mk.inj (Except.ok.inj h)
  exact ⟨ha, hvalue⟩

theorem setVariable_written
    (h : setVariable config env input s = .written t reply) :
    ∃ a value, normalizeVariableInput input = .ok a
      ∧ storedValue config (env.nonce 0) a.applicationId a.key.text
        a.value.text a.secret = .ok value
      ∧ t = (a.write value env.now s).2 := by
  unfold setVariable at h
  split at h
  · cases h
  · rename_i a value hprepare
    obtain ⟨ha, hvalue⟩ := prepareVariable_eq_ok hprepare
    obtain ⟨rfl, -⟩ := Effect.written.inj h
    exact ⟨a, value, ha, hvalue, rfl⟩

theorem prepareDelete_eq_ok {key : Json} {key' : EnvironmentKey}
    (h : prepareDelete env applicationId key s = .ok (id, key')) :
    Uuid.read? applicationId = some id
      ∧ s.records.any (Record.isAt id key'.text) = true := by
  unfold prepareDelete at h
  obtain ⟨id', hid, h⟩ := Result.bind_eq_ok.mp h
  obtain ⟨key'', -, h⟩ := Result.bind_eq_ok.mp h
  obtain ⟨_, -, h⟩ := Result.bind_eq_ok.mp h
  obtain ⟨_, hany, h⟩ := Result.bind_eq_ok.mp h
  obtain ⟨rfl, rfl⟩ := Prod.mk.inj (Except.ok.inj h)
  exact ⟨demand_eq_ok.mp hid, ensure_eq_ok.mp hany⟩

theorem deleteVariable_written {key : Json}
    (h : deleteVariable env applicationId key s = .written t reply) :
    ∃ id, ∃ key' : EnvironmentKey, Uuid.read? applicationId = some id
      ∧ s.records.any (Record.isAt id key'.text) = true
      ∧ t = { records := s.records.eraseP (Record.isAt id key'.text)
              environments := Environments.recordEnvironmentChange id env.now
                { source := .single, added := 0, updated := 0, deleted := 1 }
                s.environments } := by
  unfold deleteVariable at h
  split at h
  · cases h
  · rename_i id key' hprepare
    obtain ⟨hid, hany⟩ := prepareDelete_eq_ok hprepare
    obtain ⟨rfl, -⟩ := Effect.written.inj h
    exact ⟨id, key', hid, hany, rfl⟩

theorem prepareImport_eq_ok {input : ImportInput}
    (h : prepareImport env input s = .ok request) :
    Uuid.read? input.applicationId = some request.applicationId := by
  unfold prepareImport at h
  obtain ⟨id, hid, h⟩ := Result.bind_eq_ok.mp h
  obtain ⟨_, -, h⟩ := Result.bind_eq_ok.mp h
  obtain ⟨_, -, h⟩ := Result.bind_eq_ok.mp h
  obtain ⟨_, -, h⟩ := Result.bind_eq_ok.mp h
  obtain ⟨⟨mode, secret⟩, -, h⟩ := Result.bind_eq_ok.mp h
  dsimp only at h
  have hrequest : request.applicationId = id := by
    cases mode <;>
    · obtain ⟨_, -, h⟩ := Result.bind_eq_ok.mp h
      obtain ⟨vars, -, h⟩ := Result.bind_eq_ok.mp h
      rw [← Except.ok.inj h]
  rw [hrequest]
  exact demand_eq_ok.mp hid

theorem importVariables_written {input : ImportInput}
    (h : importVariables config env input s = .written t reply) :
    ∃ id records change, Uuid.read? input.applicationId = some id
      ∧ Imported config s id records ∧ records.length ≤ maxVariables
      ∧ t = s.withImport id records change env.now := by
  unfold importVariables at h
  split at h
  · cases h
  · rename_i request hprepare
    split at h
    · cases h
    · rename_i records change hrecords
      obtain ⟨himported, hlength⟩ := imported_importRecords hrecords
      split at h
      · obtain ⟨rfl, -⟩ := Effect.written.inj h
        exact ⟨request.applicationId, records, change,
          prepareImport_eq_ok hprepare, himported, hlength, rfl⟩
      · exact absurd h (Effect.ofResult_ne_written _ t reply)

theorem markApplied_written {input : AppliedInput}
    (h : markApplied env input s = .written t reply) :
    ∃ id revision releaseId, revision ≤ s.savedRevision id
      ∧ (∀ n, s.appliedRevision id = some n → n ≤ revision)
      ∧ t = { s with
              environments := Environments.onEnvironment id
                (Metadata.applied revision releaseId env.now)
                s.environments } := by
  unfold markApplied at h
  split at h
  · cases h
  · rename_i id revision releaseId hprepare
    unfold prepareApplied at hprepare
    obtain ⟨id', -, hprepare⟩ := Result.bind_eq_ok.mp hprepare
    obtain ⟨releaseId', -, hprepare⟩ := Result.bind_eq_ok.mp hprepare
    obtain ⟨revision', -, hprepare⟩ := Result.bind_eq_ok.mp hprepare
    obtain ⟨_, -, hprepare⟩ := Result.bind_eq_ok.mp hprepare
    obtain ⟨_, hbounds, hprepare⟩ := Result.bind_eq_ok.mp hprepare
    obtain ⟨rfl, hrest⟩ := Prod.mk.inj (Except.ok.inj hprepare)
    obtain ⟨rfl, rfl⟩ := Prod.mk.inj hrest
    rw [ensure_eq_ok, Bool.and_eq_true, decide_eq_true_eq] at hbounds
    dsimp only at h
    split at h
    · cases h
    · obtain ⟨rfl, -⟩ := Effect.written.inj h
      refine ⟨_, _, _, hbounds.1, fun n hn => ?_, rfl⟩
      have hle := hbounds.2
      rw [hn] at hle
      simpa using hle

/-- Whatever a call writes, it writes in one of these ways. -/
theorem write_of_written {c : Call}
    (h : c.effect config env s = .written t reply) :
    Write config s c t := by
  cases c with
  | setVariable input =>
      obtain ⟨a, value, ha, hvalue, rfl⟩ := setVariable_written h
      exact .assigned input a value (env.nonce 0) env.now ha hvalue
  | deleteVariable applicationId key =>
      obtain ⟨id, key', hid, hany, rfl⟩ := deleteVariable_written h
      exact .delete applicationId key id key' env.now _ hid hany
  | importVariables input =>
      obtain ⟨id, records, change, hid, hrecords, hlength, rfl⟩ :=
        importVariables_written h
      exact .imported input id records change env.now hid hrecords hlength
  | markApplied input =>
      obtain ⟨id, revision, releaseId, hsaved, hgrows, rfl⟩ :=
        markApplied_written h
      exact .applied input id revision releaseId env.now hsaved hgrows
  | setWebhookSecret applicationId secret =>
      have hset : setWebhookSecret config env applicationId secret s
          = .written t reply := h
      unfold setWebhookSecret at hset
      split at hset
      · cases hset
      · obtain ⟨rfl, -⟩ := Effect.written.inj hset
        exact .hook applicationId secret _ _ env.now
  | deleteWebhookSecret applicationId =>
      have hdelete : deleteWebhookSecret env applicationId s
          = .written t reply := h
      unfold deleteWebhookSecret at hdelete
      split at hdelete
      · cases hdelete
      · cases hdelete
      · obtain ⟨rfl, -⟩ := Effect.written.inj hdelete
        exact .unhook applicationId _
  | environmentStatus | listVariables | materialize | webhookSecret
  | materializeWebhookSecret =>
      exact absurd h (Effect.ofResult_ne_written _ t reply)

/-- No call throws once it has changed the store. -/
theorem clean_effect (c : Call) : (c.effect config env s).Clean := by
  cases c with
  | setVariable input =>
      simp only [Call.effect]
      unfold setVariable
      split <;> trivial
  | deleteVariable applicationId key =>
      simp only [Call.effect]
      unfold deleteVariable
      split <;> trivial
  | importVariables input =>
      simp only [Call.effect]
      unfold importVariables
      split
      · trivial
      · split
        · trivial
        · split
          · trivial
          · exact Effect.clean_ofResult _
  | markApplied input =>
      simp only [Call.effect]
      unfold markApplied
      split
      · trivial
      · dsimp only
        split <;> trivial
  | setWebhookSecret applicationId secret =>
      simp only [Call.effect]
      unfold setWebhookSecret
      split <;> trivial
  | deleteWebhookSecret applicationId =>
      simp only [Call.effect]
      unfold deleteWebhookSecret
      split <;> trivial
  | environmentStatus | listVariables | materialize | webhookSecret
  | materializeWebhookSecret => exact Effect.clean_ofResult _

end Yunpanel.Environment
