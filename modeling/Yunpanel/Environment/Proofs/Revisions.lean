/-
What the revision of an environment says of its contents.

One write moves an application's revision by one and may change its
variables, or leaves both (`Later`, of a write and from there of a run).
Two moments of one revision therefore have one bundle, whatever was set,
deleted and set again between them, and a revision that is both saved and
applied names the bundle that was deployed.

A restart that finds in the file what memory held goes on counting where
the count was. One that finds less does not: what was lost takes its
numbers with it.
-/
import Yunpanel.Environment.Proofs.Limits

namespace Yunpanel.Environment

open Lib Json Applications
open Secrets hiding Failure

variable {config : Config} {s t u : Environments} {c : Call} {id : Uuid}

-- ====== moments

/-- What a later moment keeps of an earlier one, for one application. -/
structure Later (id : Uuid) (s t : Environments) : Prop where
  revision : s.savedRevision id ≤ t.savedRevision id
  contents : t.savedRevision id = s.savedRevision id →
    t.variablesOf id = s.variablesOf id
  applied : ∀ n, s.appliedRevision id = some n →
    ∃ m, t.appliedRevision id = some m ∧ n ≤ m

theorem Later.refl (id : Uuid) (s : Environments) : Later id s s :=
  ⟨le_rfl, fun _ => rfl, fun n hn => ⟨n, hn, le_rfl⟩⟩

theorem Later.trans (h : Later id s t) (h' : Later id t u) :
    Later id s u where
  revision := h.revision.trans h'.revision
  contents := by
    intro he
    have hst := h.revision
    have htu := h'.revision
    have hmid : t.savedRevision id = s.savedRevision id := by omega
    rw [h'.contents (he.trans hmid.symm), h.contents hmid]
  applied := by
    intro n hn
    obtain ⟨m, hm, hnm⟩ := h.applied n hn
    obtain ⟨k, hk, hmk⟩ := h'.applied m hm
    exact ⟨k, hk, hnm.trans hmk⟩

/-- The applied revision is one that was saved. -/
def Within (id : Uuid) (s : Environments) : Prop :=
  ∀ n, s.appliedRevision id = some n → n ≤ s.savedRevision id

-- ====== writes

/-- The application whose variables a call changes. -/
def Call.edits (id : Uuid) : Call → Bool
  | setVariable input => Uuid.read? input.applicationId == some id
  | deleteVariable applicationId _ => Uuid.read? applicationId == some id
  | importVariables input => Uuid.read? input.applicationId == some id
  | _ => false

/-- What one write does to one application: its revision goes up by one,
or neither that nor its variables change. -/
structure Moved (c : Call) (id : Uuid) (s t : Environments) : Prop where
  raised : c.edits id = true →
    t.savedRevision id = s.savedRevision id + 1
  kept : c.edits id = false →
    t.savedRevision id = s.savedRevision id
      ∧ t.variablesOf id = s.variablesOf id
  applied : ∀ n, s.appliedRevision id = some n →
    ∃ m, t.appliedRevision id = some m ∧ n ≤ m
  within : Within id s → Within id t

variable {a : Uuid} {r : Registry} {e : Event}

/-- A change recorded for one application. -/
theorem moved_of_change {records : List Record} {now : Instant}
    {change : Change} (hedits : c.edits id = decide (a = id))
    (hother : id ≠ a → records.filter (Record.isOf id) = s.variablesOf id) :
    Moved c id s
      { records
        environments := Environments.recordEnvironmentChange a now change
          s.environments } := by
  have hsaved := savedRevision_changed s records a now change id
  have happlied := appliedRevision_changed s records a now change id
  refine ⟨fun he => ?_, fun he => ?_, fun n hn => ?_, fun hw n hn => ?_⟩
  · rw [hedits, decide_eq_true_eq] at he
    rw [hsaved, if_pos he.symm, he]
  · rw [hedits, decide_eq_false_iff_not] at he
    rw [hsaved, if_neg (Ne.symm he)]
    exact ⟨rfl, hother (Ne.symm he)⟩
  · exact ⟨n, happlied.trans hn, le_rfl⟩
  · rw [happlied] at hn
    have hle := hw n hn
    rw [hsaved]
    split
    · rename_i he
      rw [he] at hle
      omega
    · exact hle

/-- A write of records that belong to no application's variables. -/
theorem moved_of_records {records : List Record}
    (hedits : c.edits id = false)
    (hother : records.filter (Record.isOf id) = s.variablesOf id) :
    Moved c id s { s with records } :=
  ⟨fun he => absurd he (by simp [hedits]), fun _ => ⟨rfl, hother⟩,
    fun n hn => ⟨n, hn, le_rfl⟩, fun hw => hw⟩

theorem edits_of_read {value : Json} (h : Uuid.read? value = some a)
    (id : Uuid) :
    (Uuid.read? value == some id) = decide (a = id) := by
  rw [h, Bool.eq_iff_iff, beq_iff_eq, decide_eq_true_eq, Option.some.injEq]

theorem Write.moved (hw : Write config s c t) (id : Uuid) :
    Moved c id s t := by
  cases hw with
  | assigned input a value nonce now hinput hvalue =>
      refine moved_of_change (edits_of_read ?_ id) fun hne => ?_
      · exact read_of_normalizeVariableInput hinput
      · have hvars := variablesOf_write (s := s) a value now id
        rw [if_neg hne] at hvars
        exact hvars
  | delete applicationId name a key now change hid hpresent =>
      refine moved_of_change (edits_of_read hid id) fun hne => ?_
      exact filter_eraseP_other
        (fun _ hr => Record.isOf_of_isAt_ne hne hr) s.records
  | imported input a records change now hid hrecords hlength =>
      refine moved_of_change (edits_of_read hid id) fun hne => ?_
      have hvars := variablesOf_withImport hrecords change now id
      rw [if_neg hne] at hvars
      exact hvars
  | applied input a revision releaseId now hsaved hgrows =>
      have hkept := savedRevision_applied s a revision releaseId now id
      have happlied := appliedRevision_applied s a revision releaseId now id
      refine ⟨fun he => (Bool.noConfusion he), fun _ => ⟨hkept, rfl⟩,
        fun n hn => ?_, fun hwithin n hn => ?_⟩
      · rw [happlied]
        by_cases he : id = a
        · rw [if_pos he]
          exact ⟨revision, rfl, hgrows n (he ▸ hn)⟩
        · rw [if_neg he]
          exact ⟨n, hn, le_rfl⟩
      · rw [happlied] at hn
        rw [hkept]
        by_cases he : id = a
        · rw [if_pos he] at hn
          rw [← Option.some.inj hn, he]
          exact hsaved
        · rw [if_neg he] at hn
          exact hwithin n hn
  | hook applicationId secret a value now =>
      exact moved_of_records rfl (variablesOf_hook a value now id)
  | unhook applicationId a =>
      refine moved_of_records rfl ?_
      exact filter_eraseP_other
        (fun _ hr => Record.isOf_of_isAt_internal (by decide) hr) s.records

theorem Moved.later (h : Moved c id s t) : Later id s t := by
  cases he : c.edits id with
  | true =>
      have hraised := h.raised he
      refine ⟨by omega, fun hsame => ?_, h.applied⟩
      omega
  | false =>
      obtain ⟨hrevision, hcontents⟩ := h.kept he
      exact ⟨hrevision.ge, fun _ => hcontents, h.applied⟩

-- ====== steps

/-- A restart that loses nothing: the file holds what memory held. -/
def Event.keeps (e : Event) (r : Registry) : Bool :=
  match e with
  | .restart => decide (r.file = r.mem)
  | _ => true

/-- What one event does to memory: what one write does, or nothing. -/
theorem mem_next (hkeeps : e.keeps r = true) :
    ((machine config).next r e).mem = r.mem
      ∨ ∃ env c reply, e = .call env c
        ∧ c.effect config env r.mem
          = .written ((machine config).next r e).mem reply
        ∧ Write config r.mem c ((machine config).next r e).mem := by
  cases e with
  | settle ok =>
      refine .inl ?_
      show (r.settle .store ok).1.mem = r.mem
      exact Store.settle_mem _ ok r
  | restart =>
      refine .inl ?_
      show (Registry.step config r .restart).1.mem = r.mem
      unfold Registry.step
      dsimp only
      split
      · rename_i s hload
        obtain ⟨rfl, -⟩ := init_eq_ok hload
        exact of_decide_eq_true hkeeps
      · rfl
  | call env c =>
      have hmem : ((machine config).next r (.call env c)).mem
          = (c.effect config env r.mem).after r.mem :=
        Store.call_mem r (c.effect config env)
      rw [hmem]
      cases heffect : c.effect config env r.mem with
      | refused e => exact .inl rfl
      | replied a => exact .inl rfl
      | spoiled t e =>
          have hclean : (c.effect config env r.mem).Clean :=
            clean_effect c
          rw [heffect] at hclean
          exact hclean.elim
      | written t reply =>
          exact .inr ⟨env, c, reply, rfl, heffect,
            write_of_written heffect⟩

theorem later_next (hkeeps : e.keeps r = true) :
    Later id r.mem ((machine config).next r e).mem := by
  have hcases : ((machine config).next r e).mem = r.mem ∨ _ :=
    mem_next hkeeps
  rcases hcases with hsame | hwrite
  · rw [hsame]
    exact Later.refl id r.mem
  · obtain ⟨env, c, reply, -, -, hw⟩ := hwrite
    exact (hw.moved id).later

theorem within_next (hkeeps : e.keeps r = true) (h : Within id r.mem) :
    Within id ((machine config).next r e).mem := by
  have hcases : ((machine config).next r e).mem = r.mem ∨ _ :=
    mem_next hkeeps
  rcases hcases with hsame | hwrite
  · rw [hsame]
    exact h
  · obtain ⟨env, c, reply, -, -, hw⟩ := hwrite
    exact (hw.moved id).within h

/-- A store that is loaded has applied nothing it has not saved. -/
theorem within_of_init {stored : Environments} (h : init stored = .ok s)
    (id : Uuid) : Within id s := by
  obtain ⟨rfl, hall⟩ := init_eq_ok h
  intro n hn
  unfold Environments.appliedRevision at hn
  unfold Environments.savedRevision
  obtain ⟨m, hm, happlied⟩ := Option.bind_eq_some_iff.mp hn
  have hvalid := hall m (List.mem_of_find?_eq_some hm)
  unfold validateEnvironmentState at hvalid
  simp only [Bool.and_eq_true, happlied, Option.all_some,
    decide_eq_true_eq] at hvalid
  rw [hm]
  exact hvalid.1.1.1.1.1.2

-- ====== runs

/-- What two moments of a run say of each other, for one application. -/
structure Tracked (config : Config) (id : Uuid) (s t : Environments) :
    Prop where
  /-- One saved revision has one bundle. -/
  bundle : t.savedRevision id = s.savedRevision id →
    ∀ applicationExists expectedRevision,
      materialize config applicationExists id.json expectedRevision t
        = materialize config applicationExists id.json expectedRevision s
  saved_mono : s.savedRevision id ≤ t.savedRevision id
  applied_le : ∀ n, t.appliedRevision id = some n → n ≤ t.savedRevision id
  applied_mono : ∀ n, s.appliedRevision id = some n →
    ∃ m, t.appliedRevision id = some m ∧ n ≤ m
  /-- What was deployed at the revision that is applied is what is saved,
  where that is the saved one. -/
  deployed : t.appliedRevision id = some (t.savedRevision id) →
    t.appliedRevision id = some (s.savedRevision id) →
    ∀ applicationExists expectedRevision,
      materialize config applicationExists id.json expectedRevision t
        = materialize config applicationExists id.json expectedRevision s

theorem materialize_congr (hrevision : t.savedRevision id = s.savedRevision id)
    (hvars : t.variablesOf id = s.variablesOf id)
    (applicationExists : Uuid → Bool) (expectedRevision : Json) :
    materialize config applicationExists id.json expectedRevision t
      = materialize config applicationExists id.json expectedRevision s := by
  have hid : normalizeApplicationId id.json = .ok id :=
    demand_eq_ok.mpr (Uuid.read?_json id)
  have hbundle : bundleOf config t id = bundleOf config s id := by
    unfold bundleOf
    rw [hvars]
  unfold materialize
  rw [hid, Result.ok_bind, Result.ok_bind, hrevision, hbundle]

theorem Later.tracked (h : Later id s t) (hwithin : Within id t) :
    Tracked config id s t where
  bundle he := materialize_congr he (h.contents he)
  saved_mono := h.revision
  applied_le := hwithin
  applied_mono := h.applied
  deployed := by
    intro hsaved hdeployed
    have he : t.savedRevision id = s.savedRevision id :=
      Option.some.inj (hsaved.symm.trans hdeployed)
    exact materialize_congr he (h.contents he)

/-- What the next event does to one application's revision and variables. -/
structure Raised (config : Config) (id : Uuid) (r : Registry) (e : Event) :
    Prop where
  /-- A change of the variables, whatever makes it, is one revision. -/
  changed : ((machine config).next r e).mem.variablesOf id
      ≠ r.mem.variablesOf id →
    ((machine config).next r e).mem.savedRevision id
      = r.mem.savedRevision id + 1
  /-- A call that saves, deletes or imports and is not refused is one. -/
  edited : ∀ env c reply, e = .call env c → c.edits id = true →
    c.effect config env r.mem
      = .written ((machine config).next r e).mem reply →
    ((machine config).next r e).mem.savedRevision id
      = r.mem.savedRevision id + 1
  /-- Nothing else moves the revision. -/
  kept : (∀ env c, e = .call env c → c.edits id = false) →
    ((machine config).next r e).mem.savedRevision id
      = r.mem.savedRevision id

theorem raised_next (hkeeps : e.keeps r = true) :
    Raised config id r e := by
  have hcases : ((machine config).next r e).mem = r.mem ∨ _ :=
    mem_next hkeeps
  rcases hcases with hsame | hwrite
  · refine ⟨fun hne => ?_, fun env c reply he hedits hw => ?_, fun _ => ?_⟩
    · rw [hsame] at hne
      exact absurd rfl hne
    · exact ((write_of_written hw).moved id).raised hedits
    · rw [hsame]
  · obtain ⟨env, c, reply, rfl, -, hw⟩ := hwrite
    have hmoved := hw.moved id
    refine ⟨fun hne => ?_, fun env' c' reply' he hedits hw' => ?_,
      fun hnone => ?_⟩
    · cases he : c.edits id with
      | true => exact hmoved.raised he
      | false => exact absurd (hmoved.kept he).2 hne
    · exact ((write_of_written hw').moved id).raised hedits
    · exact (hmoved.kept (hnone env c rfl)).1

/-- Along every run from a store that was loaded, with whatever calls,
failing writes and restarts that lose nothing: a change raises the revision
of its application by one, and any two moments are tracked by their
revisions. -/
theorem revision_tracks_bundle (config : Config) {stored s : Environments}
    (hinit : init stored = .ok s) (before after : List Event)
    (hkeeps : (machine config).Allowed (fun r e => e.keeps r = true)
      (Store.opened s) (before ++ after)) (id : Uuid) :
    Tracked config id ((machine config).run (Store.opened s) before).mem
        ((machine config).run (Store.opened s) (before ++ after)).mem
      ∧ ∀ e : Event,
        e.keeps ((machine config).run (Store.opened s) before) = true →
        Raised config id ((machine config).run (Store.opened s) before) e := by
  have hall := hkeeps
  rw [Machine.allowed_append] at hkeeps
  obtain ⟨-, hafter⟩ := hkeeps
  refine ⟨?_, fun e he => raised_next he⟩
  have hwithin := Machine.invariant_of_allowed
    (P := fun r : Registry => Within id r.mem)
    (fun r e hok hr => within_next hok hr) hall
    (within_of_init hinit id)
  have hlater := Machine.related_run_of_allowed
    (R := fun r r' : Registry => Later id r.mem r'.mem)
    (fun r => Later.refl id r.mem) (fun h h' => h.trans h')
    (fun r e hok => later_next hok) hafter
  rw [← Machine.run_append] at hlater
  exact hlater.tracked hwithin

/-- A variable is saved and deployed, deleted, and saved again otherwise. -/
def trackedBefore : List Event :=
  [saving "MODE" "x" false, .settle true,
    .call sampleEnv (.markApplied ⟨sampleApplicationId.json, .num 1,
      sampleApplicationId.json⟩), .settle true]

def trackedAfter : List Event :=
  [.restart,
    .call sampleEnv (.deleteVariable sampleApplicationId.json (.str "MODE")),
    .settle false, saving "MODE" "y" false]

theorem revision_tracks_bundle_sample :
    ((machine sampleConfig).run (Store.opened emptyState)
        (trackedBefore ++ trackedAfter)).mem.savedRevision
          sampleApplicationId = 3
      ∧ Tracked sampleConfig sampleApplicationId
        ((machine sampleConfig).run (Store.opened emptyState)
          trackedBefore).mem
        ((machine sampleConfig).run (Store.opened emptyState)
          (trackedBefore ++ trackedAfter)).mem
      ∧ ∀ e : Event,
        e.keeps ((machine sampleConfig).run (Store.opened emptyState)
          trackedBefore) = true →
        Raised sampleConfig sampleApplicationId
          ((machine sampleConfig).run (Store.opened emptyState)
            trackedBefore) e :=
  ⟨by decide +kernel,
    revision_tracks_bundle sampleConfig
      (show init emptyState = .ok emptyState from rfl) trackedBefore trackedAfter (by decide +kernel) sampleApplicationId⟩

end Yunpanel.Environment
