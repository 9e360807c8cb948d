/-
Whether an environment that is saved can be deployed.

The registry keeps names distinct and values readable whatever it is asked
to do (`Valid`), and the import counts what it leaves behind. Saving one
variable counts nothing: an application comes to more variables than a
bundle may have exactly by saving new ones past the limit, and as long as
none is (`HasRoom`) everything it saves can be deployed.
-/
import Yunpanel.Environment.Proofs.Registry

namespace Yunpanel.Environment

open Lib Json Applications
open Secrets hiding Failure

variable {config : Config} {s t : Environments} {c : Call}

-- ====== validity

/-- Each name once in an application, and every variable readable. -/
structure Valid (config : Config) (s : Environments) : Prop where
  unique : (s.records.map Record.place).Nodup
  opens : ∀ r ∈ s.records, internalKeys.contains r.key = false →
    Opens config r

theorem valid_emptyState (config : Config) : Valid config emptyState :=
  ⟨List.nodup_nil, fun r hr => by cases hr⟩

variable {id : Uuid} {key : String} {records : List Record} {r : Record}

variable {environments : List Metadata} {a : Uuid}

/-- Writing one record under its name. -/
theorem Valid.upsert (h : Valid config s) {value : VariableValue}
    {now : Instant} (hopens : internalKeys.contains key = false →
      ∀ r : Record, r.place = (id, key) → r.value = value → Opens config r) :
    Valid config
      { records := upsert (Record.isAt id key)
          (Record.assigned id key value now) s.records
        environments } := by
  refine ⟨?_, fun r hr hkey => ?_⟩
  · exact nodup_upsert (fun x _ => Record.place_assigned id key value now x)
      (fun _ => Record.isAt_iff_place) h.unique
  · rcases mem_upsert hr with hr | rfl
    · exact h.opens r hr hkey
    · have hplace := Record.place_assigned id key value now
        (s.records.find? (Record.isAt id key))
      obtain ⟨-, hname⟩ := Prod.mk.inj hplace
      rw [hname] at hkey
      exact hopens hkey _ hplace (Record.value_assigned _ _ _ _ _)

/-- Leaving out a record. -/
theorem Valid.sublist (h : Valid config s)
    (hsub : records.Sublist s.records) :
    Valid config ⟨records, environments⟩ :=
  ⟨h.unique.sublist (hsub.map Record.place),
    fun r hr => h.opens r (hsub.subset hr)⟩

theorem mem_variablesOf :
    r ∈ s.variablesOf id ↔ r ∈ s.records ∧ r.applicationId = id
      ∧ internalKeys.contains r.key = false := by
  unfold Environments.variablesOf
  rw [List.mem_filter, Record.isOf_iff]

theorem internal_of_isEnvironmentKey (h : isEnvironmentKey key = true) :
    internalKeys.contains key = false :=
  EnvironmentKey.not_internal ⟨key, h⟩

/-- Every record an import leaves is a variable of its application. -/
theorem Imported.isOf (h : Imported config s id records) (hr : r ∈ records) :
    Record.isOf id r = true := by
  rw [Record.isOf_iff]
  rcases h.origin r hr with hold | ⟨hid, hopens, -⟩
  · exact (mem_variablesOf.mp hold).2
  · exact ⟨hid, internal_of_isEnvironmentKey hopens⟩

theorem Valid.withImport (h : Valid config s)
    (hrecords : Imported config s id records) (change : Change)
    (now : Instant) :
    Valid config (s.withImport id records change now) := by
  have hkept : (s.records.filter fun r => !r.isOf id).Sublist s.records :=
    List.filter_sublist
  refine ⟨?_, fun r hr hkey => ?_⟩
  · show ((s.records.filter (fun r => !r.isOf id) ++ records).map
      Record.place).Nodup
    rw [List.map_append]
    refine List.Nodup.append (h.unique.sublist (hkept.map Record.place)) ?_ ?_
    · -- within the import the application is one, so the names decide
      refine List.Nodup.of_map Prod.snd ?_
      rw [List.map_map]
      exact hrecords.distinct
    · intro place hold hnew
      obtain ⟨r, hr, rfl⟩ := List.mem_map.mp hold
      obtain ⟨r', hr', hplace⟩ := List.mem_map.mp hnew
      have hnot := (List.mem_filter.mp hr).2
      rw [Record.isOf_of_place hplace.symm, hrecords.isOf hr'] at hnot
      cases hnot
  · rcases List.mem_append.mp hr with hr | hr
    · exact h.opens r (hkept.subset hr) hkey
    · rcases hrecords.origin r hr with hold | ⟨-, hopens⟩
      · exact h.opens r (mem_variablesOf.mp hold).1 hkey
      · exact hopens

/-- Validity survives every write. -/
theorem Write.valid (hw : Write config s c t) (h : Valid config s) :
    Valid config t := by
  cases hw with
  | assigned input a value nonce now hinput hvalue =>
      refine h.upsert fun _ r hplace hr => ?_
      obtain ⟨hid, hkey⟩ := Prod.mk.inj hplace
      refine ⟨hkey ▸ a.key.ok, a.value, ?_⟩
      exact open_of_value hid hkey (hr.symm ▸ hvalue)
  | delete applicationId name id key now change hid hpresent => exact h.sublist List.eraseP_sublist
  | imported input id records change now hid hrecords hlength =>
      exact h.withImport hrecords change now
  | applied input id revision releaseId now hsaved hgrows =>
      exact h.sublist (List.Sublist.refl s.records)
  | hook applicationId secret id value now =>
      refine h.upsert fun hkey => ?_
      cases hkey
  | unhook applicationId id => exact h.sublist List.eraseP_sublist

-- ====== variables

theorem Record.isOf_of_isAt (hkey : internalKeys.contains key = false)
    (h : Record.isAt id key r = true) : Record.isOf id r = true := by
  obtain ⟨hid, hname⟩ := Record.isAt_iff.mp h
  exact Record.isOf_iff.mpr ⟨hid, hname ▸ hkey⟩

theorem Record.isOf_of_isAt_ne (hne : a ≠ id)
    (h : Record.isAt id key r = true) :
    Record.isOf a r = false := by
  obtain ⟨hid, -⟩ := Record.isAt_iff.mp h
  rw [← Bool.not_eq_true, Record.isOf_iff]
  rintro ⟨ha, -⟩
  exact hne (ha.symm.trans hid)

theorem Record.isOf_of_isAt_internal
    (hkey : internalKeys.contains key = true)
    (h : Record.isAt id key r = true) : Record.isOf a r = false := by
  obtain ⟨-, hname⟩ := Record.isAt_iff.mp h
  rw [← Bool.not_eq_true, Record.isOf_iff, hname, hkey]
  rintro ⟨-, h⟩
  cases h

theorem Record.isAt_assigned (id : Uuid) (key : String)
    (value : VariableValue) (now : Instant) (x : Option Record) :
    Record.isAt id key (Record.assigned id key value now x) = true :=
  Record.isAt_iff_place.mpr (Record.place_assigned id key value now x)

/-- Saving a variable writes it among those of its application. -/
theorem variablesOf_write (a : Assignment) (value : VariableValue)
    (now : Instant) (id : Uuid) :
    (a.write value now s).2.variablesOf id
      = if id = a.applicationId then
          upsert (Record.isAt a.applicationId a.key.text)
            (Record.assigned a.applicationId a.key.text value now)
            (s.variablesOf id)
        else s.variablesOf id := by
  unfold Environments.variablesOf Assignment.write
  dsimp only
  by_cases hid : id = a.applicationId
  · subst hid
    rw [if_pos rfl]
    refine filter_upsert_same (fun x _ => ?_) (fun r hr => ?_) s.records
    · exact Record.isOf_of_isAt a.key.not_internal
        (Record.isAt_assigned _ _ _ _ _)
    · exact Record.isOf_of_isAt a.key.not_internal hr
  · rw [if_neg hid]
    refine filter_upsert_other (fun x _ => ?_) (fun r hr => ?_) s.records
    · exact Record.isOf_of_isAt_ne hid (Record.isAt_assigned _ _ _ _ _)
    · exact Record.isOf_of_isAt_ne hid hr

theorem variablesOf_withImport (h : Imported config s id records)
    (change : Change) (now : Instant) (a : Uuid) :
    (s.withImport id records change now).variablesOf a
      = if a = id then records else s.variablesOf a := by
  show (s.records.filter (fun r => !r.isOf id) ++ records).filter
    (Record.isOf a) = _
  rw [List.filter_append, List.filter_filter]
  by_cases ha : a = id
  · subst ha
    rw [if_pos rfl]
    have hnone : s.records.filter (fun r => r.isOf a && !r.isOf a) = [] := by
      rw [List.filter_eq_nil_iff]
      intro r _
      simp
    rw [hnone, List.nil_append, List.filter_eq_self]
    exact fun r hr => h.isOf hr
  · rw [if_neg ha]
    have hnone : records.filter (Record.isOf a) = [] := by
      rw [List.filter_eq_nil_iff]
      intro r hr hof
      obtain ⟨hid, -⟩ := Record.isOf_iff.mp (h.isOf hr)
      obtain ⟨hid', -⟩ := Record.isOf_iff.mp hof
      exact ha (hid'.symm.trans hid)
    rw [hnone, List.append_nil]
    refine List.filter_congr fun r _ => ?_
    cases hof : Record.isOf a r with
    | false => rfl
    | true =>
        rw [Bool.true_and, Bool.not_eq_true', ← Bool.not_eq_true,
          Record.isOf_iff]
        rintro ⟨hid, -⟩
        exact ha ((Record.isOf_iff.mp hof).1.symm.trans hid)

theorem variablesOf_hook (id : Uuid) (value : VariableValue) (now : Instant)
    (a : Uuid) :
    Environments.variablesOf
        { s with
          records := upsert (Record.isAt id githubWebhookSecretKey)
            (Record.assigned id githubWebhookSecretKey value now) s.records }
        a
      = s.variablesOf a :=
  filter_upsert_other
    (fun _ _ => Record.isOf_of_isAt_internal (by decide)
      (Record.isAt_assigned _ _ _ _ _))
    (fun _ hr => Record.isOf_of_isAt_internal (by decide) hr) s.records

-- ====== the limit

/-- No application has more variables than a bundle may have. -/
def Bounded (s : Environments) : Prop :=
  ∀ id, (s.variablesOf id).length ≤ maxVariables

theorem bounded_emptyState : Bounded emptyState := fun _ => Nat.zero_le _

/-- A variable that is saved is there already, or fits in. -/
def Assignment.fits (a : Assignment) (s : Environments) : Bool :=
  s.records.any (Record.isAt a.applicationId a.key.text)
    || decide ((s.variablesOf a.applicationId).length < maxVariables)

theorem Bounded.write (h : Bounded s) {a : Assignment}
    (hfits : a.fits s = true) (value : VariableValue) (now : Instant) :
    Bounded (a.write value now s).2 := by
  unfold Assignment.fits at hfits
  rw [Bool.or_eq_true, decide_eq_true_eq] at hfits
  intro id
  rw [variablesOf_write]
  by_cases hid : id = a.applicationId
  · rw [if_pos hid, length_upsert]
    rcases hfits with hthere | hroom
    · obtain ⟨r, hr, hat⟩ := List.any_eq_true.mp hthere
      have hof : r ∈ s.variablesOf id := List.mem_filter.mpr
        ⟨hr, hid ▸ Record.isOf_of_isAt a.key.not_internal hat⟩
      rw [if_pos (List.any_eq_true.mpr ⟨r, hof, hat⟩)]
      exact h id
    · subst hid
      split
      · exact h _
      · exact hroom
  · rw [if_neg hid]
    exact h id

theorem Bounded.sublist (h : Bounded s) (hsub : records.Sublist s.records) :
    Bounded ⟨records, environments⟩ := by
  intro id
  have hlength : (records.filter (Record.isOf id)).length
      ≤ (s.records.filter (Record.isOf id)).length :=
    (hsub.filter _).length_le
  exact hlength.trans (h id)

/-- No call saves a variable too many. -/
def Call.fits (c : Call) (s : Environments) : Bool :=
  match c with
  | .setVariable input =>
      match normalizeVariableInput input with
      | .ok a => a.fits s
      | .error _ => true
  | _ => true

/-- The limit survives every write that saves no variable too many. -/
theorem Write.bounded (hw : Write config s c t) (h : Bounded s)
    (hfits : c.fits s = true) : Bounded t := by
  cases hw with
  | assigned input a value nonce now hinput hvalue =>
      have hroom : a.fits s = true := by
        unfold Call.fits at hfits
        dsimp only at hfits
        rw [hinput] at hfits
        exact hfits
      exact h.write hroom value now
  | delete applicationId name id key now change hid hpresent => exact h.sublist List.eraseP_sublist
  | imported input id records change now hid hrecords hlength =>
      intro a
      rw [variablesOf_withImport hrecords]
      split
      · exact hlength
      · exact h a
  | applied input id revision releaseId now hsaved hgrows =>
      exact h.sublist (List.Sublist.refl s.records)
  | hook applicationId secret id value now =>
      intro a
      rw [variablesOf_hook]
      exact h a
  | unhook applicationId id => exact h.sublist List.eraseP_sublist

-- ====== bundles

/-- Records of different names that all open become the variables of a
bundle, one each. -/
theorem foldlM_materializeRecord (hnodup : (records.map Record.key).Nodup)
    (hopens : ∀ r ∈ records, Opens config r) :
    ∀ values : Properties,
      (∀ r ∈ records, r.key ∉ values.entries.map Prod.fst) →
      ∃ (next : Properties) (vars : Variables),
        records.foldlM (materializeRecord config) values = .ok next
          ∧ next.entries = values.entries ++ vars.map entryOf
          ∧ vars.length = records.length := by
  induction records with
  | nil => exact fun values _ => ⟨values, [], rfl, by simp, rfl⟩
  | cons r rest ih =>
      intro values hfresh
      rw [List.map_cons, List.nodup_cons] at hnodup
      rw [List.forall_mem_cons] at hopens hfresh
      obtain ⟨hkey, value, hopen⟩ := hopens.1
      have hput : (values.put r.key value.text).entries
          = values.entries ++ [entryOf (⟨r.key, hkey⟩, value)] :=
        assign_of_not_mem hfresh.1 _
      have hrest : ∀ r' ∈ rest,
          r'.key ∉ (values.put r.key value.text).entries.map Prod.fst := by
        intro r' hr' hmem
        rw [hput, List.map_append, List.mem_append] at hmem
        rcases hmem with hmem | hmem
        · exact hfresh.2 r' hr' hmem
        · have hsame : r'.key = r.key := by simpa [entryOf] using hmem
          exact hnodup.1 (hsame ▸ List.mem_map_of_mem hr')
      obtain ⟨next, vars, hfold, hentries, hlength⟩ :=
        ih hnodup.2 hopens.2 _ hrest
      refine ⟨next, (⟨r.key, hkey⟩, value) :: vars, ?_, ?_, ?_⟩
      · rw [List.foldlM_cons, materializeRecord, hopen]
        exact hfold
      · rw [hentries, hput, List.append_assoc]
        rfl
      · rw [List.length_cons, List.length_cons, hlength]

theorem Valid.keys_nodup (h : Valid config s) (id : Uuid) :
    ((s.variablesOf id).map Record.key).Nodup := by
  have hplaces : ((s.variablesOf id).map Record.place).Nodup :=
    h.unique.sublist (List.filter_sublist.map Record.place)
  refine List.Nodup.of_map (fun key => (id, key)) ?_
  rw [List.map_map]
  refine (congrArg List.Nodup (List.map_congr_left fun r hr => ?_)).mpr
    hplaces
  show (id, r.key) = (r.applicationId, r.key)
  rw [(mem_variablesOf.mp hr).2.1]

/-- A deployment of any application gets its bundle and finds it within the
limits. -/
def Deployable (config : Config) (s : Environments) : Prop :=
  ∀ (applicationExists : Uuid → Bool) (id : Uuid),
    applicationExists id = true →
      ∃ values vars,
        materialize config applicationExists id.json .null s = .ok values
          ∧ normalizeApplicationEnvironmentBundle (some values) = .ok vars

theorem materialize_json {applicationExists : Uuid → Bool}
    (h : applicationExists id = true) :
    materialize config applicationExists id.json .null s
      = bundleOf config s id := by
  have hid : normalizeApplicationId id.json = .ok id :=
    demand_eq_ok.mpr (Uuid.read?_json id)
  have hensured : ensureApplication applicationExists id = .ok () :=
    ensure_eq_ok.mpr h
  unfold materialize
  rw [hid, Result.ok_bind, hensured, Result.ok_bind]

theorem Valid.deployable (hvalid : Valid config s) (hbounded : Bounded s) :
    Deployable config s := by
  intro applicationExists id hexists
  have hopens : ∀ r ∈ s.variablesOf id, Opens config r := by
    intro r hr
    obtain ⟨hmem, -, hkey⟩ := mem_variablesOf.mp hr
    exact hvalid.opens r hmem hkey
  obtain ⟨values, vars, hfold, hentries, hlength⟩ :=
    foldlM_materializeRecord (hvalid.keys_nodup id) hopens noProperties
      fun _ _ hmem => by cases hmem
  refine ⟨values, vars, ?_, ?_⟩
  · rw [materialize_json hexists]
    exact hfold
  · refine normalizeBundle_eq_ok.mpr ⟨values, rfl, hentries, ?_⟩
    rw [hlength]
    exact hbounded id

-- ====== runs

/-- No step of a run saves a variable too many. -/
def Event.fits (e : Event) (r : Registry) : Bool :=
  match e with
  | .call _ c => c.fits r.mem
  | _ => true

theorem init_eq_ok {stored : Environments} (h : init stored = .ok s) :
    s = stored ∧ ∀ m ∈ stored.environments,
      validateEnvironmentState m = true := by
  unfold init at h
  obtain ⟨_, hall, h⟩ := Result.bind_eq_ok.mp h
  obtain ⟨_, -, h⟩ := Result.bind_eq_ok.mp h
  exact ⟨(Except.ok.inj h).symm,
    List.all_eq_true.mp (ensure_eq_ok.mp hall)⟩

theorem holds_next {P : Environments → Prop} {r : Registry} (h : r.Holds P)
    (e : Event)
    (hwrite : ∀ env c t reply, e = .call env c →
      c.effect config env r.mem = .written t reply → P t) :
    ((machine config).next r e).Holds P := by
  cases e with
  | call env c =>
      apply Store.Holds.call h
      · intro t reply hw
        exact hwrite env c t reply rfl hw
      · intro t e hs
        have hclean : (c.effect config env r.mem).Clean := clean_effect c
        rw [hs] at hclean
        exact hclean.elim
  | settle ok => exact h.settle .store ok
  | restart =>
      change Store.Holds P (Registry.step config r .restart).1
      unfold Registry.step
      dsimp only
      split
      · rename_i s hload
        obtain ⟨rfl, -⟩ := init_eq_ok hload
        exact Store.holds_opened h.file
      · exact h

/-- As long as no new variable is saved for an application that has a
hundred, whatever is saved, deleted, imported or applied, in memory or read
back from the file after a restart, can be deployed. -/
theorem saved_stays_deployable (config : Config) {events : List Event}
    (hfits : (machine config).Allowed (fun r e => e.fits r = true)
      (Store.opened emptyState) events) :
    Deployable config
        ((machine config).run (Store.opened emptyState) events).mem
      ∧ Deployable config
        ((machine config).run (Store.opened emptyState) events).file := by
  have hrun := Machine.invariant_of_allowed
    (P := Store.Holds fun s => Valid config s ∧ Bounded s)
    (fun r e hok hr => ?_) hfits
    (Store.holds_opened ⟨valid_emptyState config, bounded_emptyState⟩)
  · exact ⟨hrun.mem.1.deployable hrun.mem.2,
      hrun.file.1.deployable hrun.file.2⟩
  · refine holds_next hr e fun env c t reply he hw => ?_
    subst he
    have hwrite := write_of_written hw
    exact ⟨hwrite.valid hr.mem.1, hwrite.bounded hr.mem.2 hok⟩

/-- A registry with a key. -/
def sampleConfig : Config :=
  ⟨sampleCrypto, some ⟨List.replicate 32 0x11, rfl⟩⟩

def sampleEnv : Env where
  now := ⟨0⟩
  applicationExists _ := true
  stillExists _ := true
  nonce n := ⟨List.replicate 12 (UInt8.ofNat n), List.length_replicate⟩

/-- Save one variable of the sample application. -/
def saving (key value : String) (secret : Bool) : Event :=
  .call sampleEnv (.setVariable
    ⟨sampleApplicationId.json, .str key, .str value, .bool secret⟩)

/-- A secret, a variable, its removal, and a restart. -/
def sampleEvents : List Event :=
  [saving "TOKEN" "abc" true, .settle true, saving "MODE" "x" false,
    .settle true,
    .call sampleEnv (.deleteVariable sampleApplicationId.json (.str "MODE")),
    .settle false, .restart]

theorem saved_stays_deployable_sample :
    Deployable sampleConfig
        ((machine sampleConfig).run (Store.opened emptyState)
          sampleEvents).mem
      ∧ Deployable sampleConfig
        ((machine sampleConfig).run (Store.opened emptyState)
          sampleEvents).file :=
  saved_stays_deployable sampleConfig (by decide +kernel)

/-- A hundred and one variables, saved one after another. -/
def tooMany : List Event :=
  (List.range 101).flatMap fun n =>
    [saving ("V" ++ toString n) "" false, .settle true]

/-- All of them are saved, and no bundle may have as many. -/
theorem saved_beyond_limit :
    ¬Deployable sampleConfig
      ((machine sampleConfig).run (Store.opened emptyState) tooMany).mem := by
  intro h
  obtain ⟨values, vars, hvalues, hvars⟩ :=
    h (fun _ => true) sampleApplicationId rfl
  have hrefused : ((materialize sampleConfig (fun _ => true)
      sampleApplicationId.json .null
      ((machine sampleConfig).run (Store.opened emptyState) tooMany).mem).bind
        fun values => normalizeApplicationEnvironmentBundle (some values))
      = .error environmentLimitExceeded := by decide +kernel
  rw [hvalues] at hrefused
  rw [show (Except.ok values : Except Failure Properties).bind _
    = normalizeApplicationEnvironmentBundle (some values) from rfl,
    hvars] at hrefused
  cases hrefused

example : isKeyText "2" = false := by decide +kernel

end Yunpanel.Environment
