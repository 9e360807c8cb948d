/-
The file of the website suspension journal holds what is in memory, where
no call loads over a change and no older payload is renamed over a newer.

# The condition

Nothing queues the writes. Two calls each take the operations in memory
when they begin to write, and the file keeps the payload that is renamed
last: `creation_lost` is a run in which both calls return and the file
lacks one of the two operations. The first load and the clock are the two
other ways: a load that ends late replaces what was changed meanwhile, and
two updates in one millisecond carry one stamp. `Careful` excludes these.

# The proof

`changes` numbers the states of the memory, and a payload carries the
number it was taken at. `keeps_sound` is the invariant: the payload of the
newest number is what is in memory, and so is the file once that number has
landed. That it does land is `Protocol.settled_run`: a call that changes
something owes the landing until a payload of the newest number is on its
way.
-/
import Yunpanel.Suspension.WebsiteJournal

namespace Yunpanel.WebsiteSuspension

open Json Lib Lib.Result
open Suspension (Failure refuse SafeId Fault)

-- ====== purpose

abbrev WebsiteEvent := Flight.Event WebsiteCall WebsiteEnv Empty

/-- The stamp an accepted update has set. -/
def WebsiteNote.stamp? : WebsiteNote → Option (SafeId × Instant)
  | updated id updatedAt => some (id, updatedAt)
  | _ => none

/-- The stamps some notes speak of. -/
def stamps (notes : List (Nat × WebsiteNote)) : List (SafeId × Instant) :=
  notes.filterMap fun note => note.2.stamp?

/-- What a run of the journal is to be: once all calls are over and none
was rejected the file reads as what is in memory, and no two updates of an
operation have one stamp. -/
structure Faithful (file : Stored) (events : List WebsiteEvent) : Prop where
  saved :
    (∀ id, (websiteJournalProtocol.machine.run (started file) events).stage
      id = none) →
    (∀ id e, (id, .rejected e)
      ∉ websiteJournalProtocol.notes (started file) events) →
    (websiteJournalProtocol.machine.run (started file) events).shared.initialized
      = true →
    load (websiteJournalProtocol.machine.run (started file) events).shared.file
      = .ok (websiteJournalProtocol.machine.run (started file)
          events).shared.operations
  stamped : (stamps (websiteJournalProtocol.notes (started file)
    events)).Nodup

-- ====== condition

/-- What a segment must not meet: a load that ends after a change, an
update in the millisecond of the one before, a payload that is older than
the file. -/
def Timely (j : WebsiteJournal) (env : WebsiteEnv) : WebsiteStage → Prop
  | .received _ _ => j.changes = 0
  | .loaded (.update id _) =>
      ∀ op ∈ findOperation j.operations id, op.updatedAt.ms < env.now.ms
  | .moving _ _ version => j.landed ≤ version
  | _ => True

instance (j : WebsiteJournal) (env : WebsiteEnv) :
    (k : WebsiteStage) → Decidable (Timely j env k)
  | .received _ _ => inferInstanceAs (Decidable (j.changes = 0))
  | .loaded (.update id _) => inferInstanceAs (Decidable
      (∀ op ∈ findOperation j.operations id, op.updatedAt.ms < env.now.ms))
  | .moving _ _ version => inferInstanceAs (Decidable (j.landed ≤ version))
  | .entered _ | .reading _ | .loaded .init | .loaded (.create _)
  | .making _ | .guarding _ | .writing _ _ _ => .isTrue trivial

/-- Every segment is timely, and the process is not started again. -/
def Careful (f : Flight WebsiteJournal WebsiteStage) : WebsiteEvent → Prop
  | .answer id env => ∀ k ∈ f.stage id, Timely f.shared env k
  | .restart => False
  | _ => True

instance (f : Flight WebsiteJournal WebsiteStage) :
    (e : WebsiteEvent) → Decidable (Careful f e)
  | .answer id env => inferInstanceAs
      (Decidable (∀ k ∈ f.stage id, Timely f.shared env k))
  | .restart => .isFalse id
  | .start _ | .world _ => .isTrue trivial

-- ====== round trips

theorem status_read (s : Status) : Status.read? (.str s.text) = some s := by
  cases s <;> decide

theorem childStatus_read (s : Suspension.Status) :
    childStatus? (.str (childStatusText s)) = some s := by
  cases s <;> decide

theorem safeError_json (error : Option Fault) :
    safeError (ofOption faultJson error) = .ok error := by
  cases error with
  | none => rfl
  | some fault => simp [safeError, ofOption, faultJson, object?, demand]

/-- An entry is read back as it was written. -/
theorem domainOperationEntry_json (entry : Entry) :
    domainOperationEntry entry.json = .ok entry := by
  have hid : nullable? Matching.read?
      (ofOption Matching.json entry.operationId) = some entry.operationId :=
    nullable?_ofOption (fun _ => by simp [Matching.json])
      Matching.read?_json entry.operationId
  simp [domainOperationEntry, Entry.json, object?, demand, hid,
    childStatus_read, safeError_json]

theorem completion_ofOption (completedAt : Option Instant) :
    completion (.ofOption completedAt) = .ok completedAt := by
  cases completedAt <;> rfl

/-- An operation is accepted as it was written. -/
theorem validateOperation_draft (op : Operation) :
    validateOperation op.draft = .ok op := by
  have hentries : domainOperationsList op.draft.domainOperations
      = .ok op.domainOperations := by
    have hread : ∀ entry ∈ op.domainOperations,
        domainOperationEntry entry.json = .ok (id entry) :=
      fun entry _ => domainOperationEntry_json entry
    have hmap := mapM_map_eq_ok hread
    rw [List.map_id] at hmap
    exact hmap
  have herror : safeError op.draft.error = .ok op.error :=
    safeError_json op.error
  unfold validateOperation
  rw [hentries, herror]
  simp [Operation.draft, safeId, timestamp, demand, status_read,
    completion_ofOption]

variable {op : Operation} {ops : List Operation} {k : WebsiteStage}
  {segment : WebsiteSegment} {env : WebsiteEnv}

/-- Whatever is accepted has the identifier and the stamp it was given. -/
theorem validateOperation_eq_ok {draft : Draft}
    (h : validateOperation draft = .ok op) :
    Matching.read? draft.id = some op.id
      ∧ draft.updatedAt = some op.updatedAt := by
  unfold validateOperation safeId timestamp at h
  simp only [bind_eq_ok, demand_eq_ok, pure_eq, Except.ok.injEq] at h
  obtain ⟨id, hid, -, -, -, -, -, -, -, -, -, -, -, -, -, -, -, -, -, -,
    updatedAt, hupdatedAt, -, -, rfl⟩ := h
  exact ⟨hid, hupdatedAt⟩

theorem hasOperation_eq_false {id : SafeId} :
    hasOperation ops id = false ↔ id ∉ ops.map (·.id) := by
  simp [hasOperation]

/-- What the loop of a load adds to what it has loaded. -/
theorem readOperations_append (ops loaded : List Operation)
    (h : ((loaded ++ ops).map (·.id)).Nodup) :
    readOperations (ops.map fun op => some op.draft) loaded
      = .ok (loaded ++ ops) := by
  induction ops generalizing loaded with
  | nil => simp [readOperations]
  | cons op ops ih =>
      have hsplit : loaded ++ op :: ops = (loaded ++ [op]) ++ ops := by simp
      rw [hsplit] at h ⊢
      have hfresh : hasOperation loaded op.id = false := by
        rw [hasOperation_eq_false]
        rw [List.map_append, List.map_append] at h
        have hhead := (List.nodup_append.mp h).1
        intro hmem
        exact (List.nodup_append.mp hhead).2.2 _ hmem _
          (List.mem_singleton_self _) rfl
      rw [List.map_cons, readOperations]
      simp only [demand, ok_bind, validateOperation_draft, hfresh, ensure,
        Bool.not_false, if_true]
      exact ih (loaded ++ [op]) h

/-- The store reads as what was written. -/
theorem load_of (h : (ops.map (·.id)).Nodup) :
    load (.of ops) = .ok ops :=
  readOperations_append ops [] h

/-- A load keeps identifiers apart. -/
theorem nodup_readOperations {raws : List (Option Draft)}
    {loaded : List Operation} (hloaded : (loaded.map (·.id)).Nodup)
    (h : readOperations raws loaded = .ok ops) : (ops.map (·.id)).Nodup := by
  induction raws generalizing loaded with
  | nil =>
      obtain rfl := Except.ok.inj h
      exact hloaded
  | cons raw raws ih =>
      unfold readOperations at h
      simp only [bind_eq_ok, demand_eq_ok, ensure_eq_ok, Bool.not_eq_true',
        hasOperation_eq_false] at h
      obtain ⟨-, -, op, -, -, hfresh, hrest⟩ := h
      refine ih ?_ hrest
      rw [List.map_append, List.map_singleton, ← List.concat_eq_append]
      exact List.Nodup.concat hfresh hloaded

variable {id : Json} {stored : Stored} {now : Instant}
  {payload : List Operation} {version : Nat}

theorem nodup_load (h : load stored = .ok ops) :
    (ops.map (·.id)).Nodup := by
  cases stored with
  | absent =>
      obtain rfl := Except.ok.inj h
      exact List.nodup_nil
  | unreadable => cases h
  | malformed => cases h
  | store raws =>
      have hnil : (([] : List Operation).map (·.id)).Nodup := List.nodup_nil
      exact nodup_readOperations hnil h

-- ====== changes

theorem map_id_setOperation (ops : List Operation) (op : Operation) :
    (setOperation ops op).map (·.id)
      = if op.id ∈ ops.map (·.id) then ops.map (·.id)
        else ops.map (·.id) ++ [op.id] := by
  unfold setOperation
  by_cases h : op.id ∈ ops.map (·.id)
  · have hhas : hasOperation ops op.id = true := by
      by_contra hnot
      exact hasOperation_eq_false.mp (Bool.not_eq_true _ ▸ hnot) h
    rw [if_pos hhas, if_pos h, List.map_map]
    refine List.map_congr_left fun old _ => ?_
    by_cases hold : old.id = op.id <;> simp [hold]
  · rw [if_neg h, hasOperation_eq_false.mpr h]
    simp

theorem nodup_setOperation (h : (ops.map (·.id)).Nodup) (op : Operation) :
    ((setOperation ops op).map (·.id)).Nodup := by
  rw [map_id_setOperation]
  split
  · exact h
  · rename_i hnew
    rw [← List.concat_eq_append]
    exact List.Nodup.concat hnew h

theorem mem_setOperation_self (ops : List Operation) (op : Operation) :
    op ∈ setOperation ops op := by
  unfold setOperation
  split
  · rename_i hhas
    obtain ⟨old, hold, hid⟩ := List.any_eq_true.mp hhas
    exact List.mem_map.mpr ⟨old, hold, if_pos hid⟩
  · exact List.mem_append_right _ (List.mem_singleton_self _)

/-- An operation of another identifier stays. -/
theorem mem_setOperation_of_ne {old : Operation} (hold : old ∈ ops)
    (hne : old.id ≠ op.id) :
    old ∈ setOperation ops op := by
  unfold setOperation
  split
  · refine List.mem_map.mpr ⟨old, hold, if_neg ?_⟩
    simpa using hne
  · exact List.mem_append_left _ hold

theorem findOperation_eq_some (h : findOperation ops id = some op) :
    op ∈ ops ∧ id = op.id.json := by
  have hmem := List.mem_of_find?_eq_some h
  have hid := List.find?_some h
  exact ⟨hmem, by simpa using hid⟩

/-- An update that is accepted is of an operation there is, and carries the
time. -/
theorem updateOperation_eq_ok {changes : Changes}
    (h : updateOperation now id changes ops = .ok op) :
    ∃ current, findOperation ops id = some current ∧ op.id = current.id
      ∧ op.updatedAt = now := by
  unfold updateOperation at h
  simp only [bind_eq_ok, demand_eq_ok] at h
  obtain ⟨current, hcurrent, hvalid⟩ := h
  obtain ⟨hid, hupdatedAt⟩ := validateOperation_eq_ok hvalid
  have hread : Matching.read? current.id.json = some op.id := hid
  rw [Matching.read?_json] at hread
  exact ⟨current, hcurrent, (Option.some.inj hread).symm,
    (Option.some.inj hupdatedAt).symm⟩

/-- A creation that is accepted is of an operation there was not. -/
theorem createOperation_eq_ok {randomUUID : String} {input : CreateInput}
    (h : createOperation now randomUUID input ops = .ok op) :
    op.id ∉ ops.map (·.id) := by
  unfold createOperation at h
  simp only [bind_eq_ok, ensure_eq_ok, pure_eq, Except.ok.injEq,
    Bool.not_eq_true', hasOperation_eq_false] at h
  obtain ⟨new, -, -, hfresh, rfl⟩ := h
  exact hfresh

-- ====== invariant

/-- What holds of the journal between segments. -/
structure Sound (j : WebsiteJournal) : Prop where
  nodup : (j.operations.map (·.id)).Nodup
  landed : j.landed ≤ j.changes
  file : j.landed = j.changes → j.initialized = true →
    load j.file = .ok j.operations

/-- A payload is numbered, and that of the newest number is what is in
memory. -/
structure Numbered (j : WebsiteJournal) (payload : List Operation)
    (version : Nat) : Prop where
  nodup : (payload.map (·.id)).Nodup
  pos : 0 < version
  le : version ≤ j.changes
  newest : version = j.changes → payload = j.operations

/-- What holds of a call between its segments. -/
def Fit (j : WebsiteJournal) : WebsiteStage → Prop
  | .received _ stored =>
      j.changes = 0 → stored = j.file ∨ stored = .unreadable
  | .making _ | .guarding _ => 0 < j.changes
  | .writing _ payload version => Numbered j payload version
  | .moving _ payload version => Numbered j payload version
  | _ => True

theorem sound_started (file : Stored) : Sound (started file).shared where
  nodup := List.nodup_nil
  landed := Nat.le_refl 0
  file _ h := by cases h

/-- The end of a load leaves the other calls in place, as nothing has been
changed yet. -/
theorem fit_adopted {j : WebsiteJournal} (h : j.changes = 0)
    (operations : List Operation) (hk : Fit j k) :
    Fit { j with operations, initialized := true } k := by
  cases k with
  | writing op payload version =>
      have hpos := hk.pos
      have hle := hk.le
      omega
  | moving op payload version =>
      have hpos := hk.pos
      have hle := hk.le
      omega
  | entered c => trivial
  | reading c => trivial
  | loaded c => trivial
  | received c stored => exact hk
  | making op => exact hk
  | guarding op => exact hk

theorem Numbered.changed {j : WebsiteJournal}
    (h : Numbered j payload version) (operations : List Operation) :
    Numbered { j with operations, changes := j.changes + 1 } payload
      version where
  nodup := h.nodup
  pos := h.pos
  le := Nat.le_succ_of_le h.le
  newest heq := by
    have hle := h.le
    have heq : version = j.changes + 1 := heq
    omega

/-- After a change the payloads on their way are older ones. -/
theorem fit_changed {j : WebsiteJournal} (operations : List Operation)
    (hk : Fit j k) :
    Fit { j with operations, changes := j.changes + 1 } k := by
  cases k with
  | writing op payload version => exact Numbered.changed hk operations
  | moving op payload version => exact Numbered.changed hk operations
  | entered c => trivial
  | reading c => trivial
  | loaded c => trivial
  | received c stored =>
      intro hzero
      have hzero : j.changes + 1 = 0 := hzero
      omega
  | making op => exact Nat.succ_pos j.changes
  | guarding op => exact Nat.succ_pos j.changes

theorem fit_renamed {j : WebsiteJournal} (hpos : 0 < j.changes)
    (payload : List Operation) (version : Nat) (hk : Fit j k) :
    Fit (j.rename payload version) k := by
  cases k with
  | writing op payload' version' => exact ⟨hk.nodup, hk.pos, hk.le, hk.newest⟩
  | moving op payload' version' =>
      exact ⟨hk.nodup, hk.pos, hk.le, hk.newest⟩
  | entered c => trivial
  | reading c => trivial
  | loaded c => trivial
  | received c stored =>
      intro hzero
      have hzero : j.changes = 0 := hzero
      omega
  | making op => exact hk
  | guarding op => exact hk

/-- What a segment has to keep. -/
def KeptBy (j : WebsiteJournal) (segment : WebsiteSegment) : Prop :=
  Sound segment.1 ∧ (∀ k ∈ segment.2.1, Fit segment.1 k)
    ∧ ∀ k, Fit j k → Fit segment.1 k

/-- A segment that leaves the journal as it is. -/
theorem keptBy_same {j : WebsiteJournal} (h : Sound j)
    {next : Option WebsiteStage} (hnext : ∀ k ∈ next, Fit j k)
    (notes : List WebsiteNote) : KeptBy j (j, next, notes) :=
  ⟨h, hnext, fun _ hk => hk⟩

theorem keptBy_after {j : WebsiteJournal} (h : Sound j) (ok : Bool)
    (hsegment : KeptBy j segment) :
    KeptBy j (j.after ok segment) := by
  unfold WebsiteJournal.after
  cases ok with
  | true => exact hsegment
  | false => exact keptBy_same h (fun k hk => by cases hk) _

theorem keptBy_adopt {j : WebsiteJournal} (h : Sound j)
    (hzero : j.changes = 0) (c : WebsiteCall)
    (hstored : stored = j.file ∨ stored = .unreadable) :
    KeptBy j (j.adopt c stored) := by
  unfold WebsiteJournal.adopt
  split
  · exact keptBy_same h (fun k hk => by cases hk) _
  · rename_i operations hload
    refine ⟨⟨nodup_load hload, h.landed, fun _ _ => ?_⟩,
      fun k hk => ?_, fun k hk => fit_adopted hzero operations hk⟩
    · rcases hstored with rfl | rfl
      · exact hload
      · cases hload
    · obtain rfl := Option.some.inj hk
      trivial

theorem keptBy_apply {j : WebsiteJournal} (h : Sound j)
    (notes : List WebsiteNote) (r : Except Failure Operation) :
    KeptBy j (j.apply notes r) := by
  cases r with
  | error e => exact keptBy_same h (fun k hk => by cases hk) _
  | ok op =>
      refine ⟨⟨nodup_setOperation h.nodup op, ?_, fun heq => ?_⟩,
        fun k hk => ?_, fun k hk => fit_changed _ hk⟩
      · exact Nat.le_succ_of_le h.landed
      · have hle := h.landed
        have heq : j.landed = j.changes + 1 := heq
        omega
      · obtain rfl := Option.some.inj hk
        exact Nat.succ_pos j.changes

theorem keptBy_serve {j : WebsiteJournal} (h : Sound j) (env : WebsiteEnv)
    (c : WebsiteCall) : KeptBy j (j.serve env c) := by
  cases c with
  | init => exact keptBy_same h (fun k hk => by cases hk) _
  | create input => exact keptBy_apply h _ _
  | update id changes => exact keptBy_apply h _ _

theorem keptBy_rename {j : WebsiteJournal} (h : Sound j)
    (hfit : Numbered j payload version) :
    KeptBy j (j.rename payload version, none, [.returned]) := by
  have hpos : 0 < j.changes := Nat.lt_of_lt_of_le hfit.pos hfit.le
  refine ⟨⟨?_, hfit.le, fun heq _ => ?_⟩, fun k hk => (by cases hk),
    fun k hk => fit_renamed hpos payload version hk⟩
  · exact h.nodup
  · show load (.of payload) = .ok j.operations
    rw [load_of hfit.nodup, hfit.newest heq]

/-- One segment keeps the journal sound and the calls fit for it. -/
theorem keptBy_resume {j : WebsiteJournal} (h : Sound j) (hk : Fit j k)
    (htimely : Timely j env k) :
    KeptBy j (j.resume k env) := by
  cases k with
  | entered c =>
      refine keptBy_same h (fun k hk => ?_) _
      obtain rfl := Option.some.inj hk
      cases hinit : j.initialized <;> exact trivial
  | reading c =>
      refine keptBy_same h (fun k hk => ?_) _
      obtain rfl := Option.some.inj hk
      intro _
      cases hok : env.ok
      · exact .inr rfl
      · exact .inl rfl
  | received c stored => exact keptBy_adopt h htimely c (hk htimely)
  | loaded c => exact keptBy_serve h env c
  | making op =>
      refine keptBy_after h env.ok (keptBy_same h (fun k' hk' => ?_) _)
      obtain rfl := Option.some.inj hk'
      exact hk
  | guarding op =>
      refine keptBy_same h (fun k' hk' => ?_) _
      obtain rfl := Option.some.inj hk'
      exact ⟨h.nodup, hk, Nat.le_refl _, fun _ => rfl⟩
  | writing op payload version =>
      refine keptBy_after h env.ok (keptBy_same h (fun k' hk' => ?_) _)
      obtain rfl := Option.some.inj hk'
      exact hk
  | moving op payload version =>
      exact keptBy_after h env.ok (keptBy_rename h hk)

/-- Along a careful run the journal is sound. -/
theorem keeps_sound : websiteJournalProtocol.Keeps Careful Sound Fit where
  start _ _ _ _ := trivial
  resume _ _ _ k hok hstage hshared hk :=
    keptBy_resume hshared hk (hok k hstage)
  world _ x _ _ := nomatch x
  restart _ hok _ := absurd hok id

-- ====== landing

/-- All that was changed is in the file. -/
def Landed (j : WebsiteJournal) : Prop := j.landed = j.changes

/-- The call will bring the newest changes to the file, unless it fails. -/
def Carries (j : WebsiteJournal) : WebsiteStage → Prop
  | .making _ | .guarding _ => True
  | .writing _ _ version => version = j.changes
  | .moving _ _ version => version = j.changes
  | _ => False

/-- A segment lands all, carries the newest changes on, fails, or carried
nothing new and changed nothing. -/
def Passes (j : WebsiteJournal) (k : WebsiteStage)
    (segment : WebsiteSegment) : Prop :=
  Landed segment.1
    ∨ (∃ k', segment.2.1 = some k' ∧ Carries segment.1 k')
    ∨ (∃ note ∈ segment.2.2, ∃ e, note = .rejected e)
    ∨ (¬Carries j k ∧ ¬Landed j ∧ ∀ l, Carries j l → Carries segment.1 l)

/-- A call that carries nothing new and changes nothing. -/
theorem passes_idle {j : WebsiteJournal} (hk : ¬Carries j k)
    (hlanded : segment.1.landed = j.landed)
    (hchanges : segment.1.changes = j.changes) : Passes j k segment := by
  by_cases hall : Landed j
  · left
    show segment.1.landed = segment.1.changes
    rw [hlanded, hchanges]
    exact hall
  · refine .inr (.inr (.inr ⟨hk, hall, fun l hl => ?_⟩))
    cases l with
    | writing op payload version =>
        show version = segment.1.changes
        rw [hchanges]
        exact hl
    | moving op payload version =>
        show version = segment.1.changes
        rw [hchanges]
        exact hl
    | making op => trivial
    | guarding op => trivial
    | entered c => exact hl
    | reading c => exact hl
    | received c stored => exact hl
    | loaded c => exact hl

theorem passes_after {j : WebsiteJournal} (ok : Bool)
    (h : Passes j k segment) :
    Passes j k (j.after ok segment) := by
  unfold WebsiteJournal.after
  cases ok with
  | true => exact h
  | false =>
      exact .inr (.inr (.inl ⟨_, List.mem_singleton_self _, fileFailed, rfl⟩))

theorem passes_apply {j : WebsiteJournal} (notes : List WebsiteNote)
    (r : Except Failure Operation) :
    Passes j k (j.apply notes r) := by
  cases r with
  | error e =>
      exact .inr (.inr (.inl ⟨_, List.mem_singleton_self _, e, rfl⟩))
  | ok op => exact .inr (.inl ⟨.making op, rfl, trivial⟩)

theorem passes_resume {j : WebsiteJournal} (hk : Fit j k)
    (htimely : Timely j env k) :
    Passes j k (j.resume k env) := by
  cases k with
  | entered c => exact passes_idle (k := .entered c) id rfl rfl
  | reading c => exact passes_idle (k := .reading c) id rfl rfl
  | received c stored =>
      show Passes j _ (j.adopt c stored)
      unfold WebsiteJournal.adopt
      split
      · exact passes_idle (k := .received c stored) id rfl rfl
      · exact passes_idle (k := .received c stored) id rfl rfl
  | loaded c =>
      cases c with
      | init => exact passes_idle (k := .loaded .init) id rfl rfl
      | create input => exact passes_apply _ _
      | update id changes => exact passes_apply _ _
  | making op =>
      exact passes_after env.ok (.inr (.inl ⟨.guarding op, rfl, trivial⟩))
  | guarding op => exact .inr (.inl ⟨_, rfl, rfl⟩)
  | writing op payload version =>
      refine passes_after env.ok ?_
      by_cases hnewest : version = j.changes
      · exact .inr (.inl ⟨.moving op payload version, rfl, hnewest⟩)
      · exact passes_idle (k := .writing op payload version) hnewest rfl rfl
  | moving op payload version =>
      refine passes_after env.ok ?_
      by_cases hnewest : version = j.changes
      · exact .inl hnewest
      · -- an older payload never goes over the newest one
        have hle : version ≤ j.changes := hk.le
        have htimely : j.landed ≤ version := htimely
        refine .inr (.inr (.inr ⟨hnewest, fun hall => ?_, fun l hl => ?_⟩))
        · have hall : j.landed = j.changes := hall
          omega
        · cases l <;> exact hl

-- ====== stamps

/-- Every stamp so far is of an operation there is, and at most the one it
has now. -/
structure Behind (j : WebsiteJournal) (past : List (SafeId × Instant)) :
    Prop where
  none : j.changes = 0 → past = []
  le : ∀ stamp ∈ past, ∃ op ∈ j.operations,
    op.id = stamp.1 ∧ stamp.2.ms ≤ op.updatedAt.ms

/-- The stamps a segment notes are new, and at most those the operations
have after it. -/
def Stamps (past : List (SafeId × Instant)) (segment : WebsiteSegment) :
    Prop :=
  (segment.2.2.filterMap WebsiteNote.stamp?).Nodup
    ∧ (∀ stamp ∈ segment.2.2.filterMap WebsiteNote.stamp?, stamp ∉ past)
    ∧ Behind segment.1 (past ++ segment.2.2.filterMap WebsiteNote.stamp?)

section Stamping

variable {j : WebsiteJournal} {past : List (SafeId × Instant)}

/-- A segment that notes no update. -/
theorem stamps_quiet
    (hnotes : segment.2.2.filterMap WebsiteNote.stamp? = [])
    (h : Behind segment.1 past) : Stamps past segment := by
  unfold Stamps
  rw [hnotes, List.append_nil]
  exact ⟨List.nodup_nil, fun _ h => (by cases h), h⟩

theorem stamps_after (h : Behind j past) (ok : Bool)
    (hsegment : Stamps past segment) :
    Stamps past (j.after ok segment) := by
  unfold WebsiteJournal.after
  cases ok with
  | true => exact hsegment
  | false => exact stamps_quiet rfl h

/-- A new operation comes beside the ones there were. -/
theorem stamps_create (h : Behind j past)
    (hfresh : op.id ∉ j.operations.map (·.id)) :
    Stamps past (j.apply [] (.ok op)) := by
  refine stamps_quiet rfl ⟨fun hzero => ?_, fun stamp hstamp => ?_⟩
  · have hzero : j.changes + 1 = 0 := hzero
    omega
  · obtain ⟨old, hold, hid, hms⟩ := h.le stamp hstamp
    refine ⟨old, mem_setOperation_of_ne hold fun heq => hfresh ?_, hid, hms⟩
    exact List.mem_map.mpr ⟨old, hold, heq⟩

/-- An update stamps later than all before. -/
theorem stamps_update (h : Behind j past)
    (hnodup : (j.operations.map (·.id)).Nodup) {current : Operation}
    (hmem : current ∈ j.operations) (hid : op.id = current.id)
    (hlater : current.updatedAt.ms < op.updatedAt.ms) :
    Stamps past (j.apply [.updated current.id op.updatedAt] (.ok op)) := by
  have hsame : ∀ old ∈ j.operations, old.id = current.id → old = current :=
    fun old hold h => List.inj_on_of_nodup_map hnodup hold hmem h
  have hself : op ∈ setOperation j.operations op :=
    mem_setOperation_self j.operations op
  refine ⟨List.nodup_singleton _, fun stamp hstamp hpast => ?_,
    fun hzero => ?_, fun stamp hstamp => ?_⟩
  · obtain rfl : stamp = (current.id, op.updatedAt) :=
      List.mem_singleton.mp hstamp
    obtain ⟨old, hold, hold', hms⟩ := h.le _ hpast
    obtain rfl := hsame old hold hold'
    have hms : op.updatedAt.ms ≤ old.updatedAt.ms := hms
    omega
  · have hzero : j.changes + 1 = 0 := hzero
    omega
  · rcases List.mem_append.mp hstamp with hpast | hnew
    · obtain ⟨old, hold, hold', hms⟩ := h.le stamp hpast
      by_cases heq : old.id = op.id
      · obtain rfl := hsame old hold (heq.trans hid)
        exact ⟨op, hself, hid.trans hold', by omega⟩
      · exact ⟨old, mem_setOperation_of_ne hold heq, hold', hms⟩
    · obtain rfl : stamp = (current.id, op.updatedAt) :=
        List.mem_singleton.mp hnew
      exact ⟨op, hself, hid, Int.le_refl _⟩

theorem stamps_serve (h : Behind j past)
    (hnodup : (j.operations.map (·.id)).Nodup) {c : WebsiteCall}
    (htimely : Timely j env (.loaded c)) :
    Stamps past (j.serve env c) := by
  cases c with
  | init => exact stamps_quiet rfl h
  | create input =>
      show Stamps past (j.apply [] _)
      cases hcreate : createOperation env.now env.randomUUID input
        j.operations with
      | error e => exact stamps_quiet rfl h
      | ok op => exact stamps_create h (createOperation_eq_ok hcreate)
  | update id changes =>
      show Stamps past (j.apply ((findOperation j.operations id).toList.map
        fun op => .updated op.id env.now) _)
      cases hupdate : updateOperation env.now id changes j.operations with
      | error e => exact stamps_quiet rfl h
      | ok op =>
          obtain ⟨current, hcurrent, hid, hupdatedAt⟩ :=
            updateOperation_eq_ok hupdate
          have hlater := htimely current hcurrent
          rw [← hupdatedAt] at hlater ⊢
          rw [hcurrent]
          exact stamps_update h hnodup (findOperation_eq_some hcurrent).1 hid
            hlater

theorem stamps_resume (h : Behind j past) (hsound : Sound j)
    (htimely : Timely j env k) :
    Stamps past (j.resume k env) := by
  cases k with
  | entered c => exact stamps_quiet rfl h
  | reading c => exact stamps_quiet rfl h
  | received c stored =>
      show Stamps past (j.adopt c stored)
      -- what is loaded replaces operations nobody has updated
      obtain rfl := h.none htimely
      unfold WebsiteJournal.adopt
      split
      · exact stamps_quiet rfl h
      · exact stamps_quiet rfl ⟨fun _ => rfl, fun _ hmem => (by cases hmem)⟩
  | loaded c => exact stamps_serve h hsound.nodup htimely
  | making op => exact stamps_after h env.ok (stamps_quiet rfl h)
  | guarding op => exact stamps_quiet rfl h
  | writing op payload version =>
      exact stamps_after h env.ok (stamps_quiet rfl h)
  | moving op payload version =>
      exact stamps_after h env.ok (stamps_quiet rfl ⟨h.none, h.le⟩)

end Stamping

/-- What the run so far says of a state. -/
structure Stamped (f : Flight WebsiteJournal WebsiteStage)
    (past : List (SafeId × Instant)) : Prop where
  sound : Protocol.Sound Sound Fit f
  behind : Behind f.shared past

theorem stamps_own (id : Nat) (notes : List WebsiteNote) :
    stamps (notes.map fun note => (id, note))
      = notes.filterMap WebsiteNote.stamp? := by
  unfold stamps
  rw [List.filterMap_map]
  rfl

/-- A step notes only new stamps. -/
def StampsNew (f : Flight WebsiteJournal WebsiteStage) (e : WebsiteEvent)
    (past : List (SafeId × Instant)) : Prop :=
  (stamps (websiteJournalProtocol.machine.answer f e)).Nodup
    ∧ (∀ stamp ∈ stamps (websiteJournalProtocol.machine.answer f e),
        stamp ∉ past)
    ∧ Stamped (websiteJournalProtocol.machine.next f e)
        (past ++ stamps (websiteJournalProtocol.machine.answer f e))

theorem stamped_next {f : Flight WebsiteJournal WebsiteStage}
    {e : WebsiteEvent} {past : List (SafeId × Instant)} (hok : Careful f e)
    (h : Stamped f past) : StampsNew f e past := by
  have hsound := Protocol.sound_next keeps_sound hok h.sound
  have hquiet : websiteJournalProtocol.machine.answer f e = [] →
      (websiteJournalProtocol.machine.next f e).shared = f.shared →
        StampsNew f e past := by
    intro hanswer hshared
    unfold StampsNew
    rw [hanswer, show stamps [] = [] from rfl, List.append_nil]
    refine ⟨List.nodup_nil, fun _ h => (by cases h), hsound, ?_⟩
    rw [hshared]
    exact h.behind
  cases e with
  | start c => exact hquiet rfl rfl
  | answer id env =>
      cases hstage : f.stage id with
      | none =>
          have hstep := websiteJournalProtocol.step_answer_none env hstage
          exact hquiet (congrArg Prod.snd hstep)
            (congrArg (fun r => r.1.shared) hstep)
      | some k =>
          have hstep := websiteJournalProtocol.step_answer env hstage
          have hanswer : websiteJournalProtocol.machine.answer f
              (.answer id env)
              = (f.shared.resume k env).2.2.map fun note => (id, note) :=
            congrArg Prod.snd hstep
          have hshared : (websiteJournalProtocol.machine.next f
              (.answer id env)).shared = (f.shared.resume k env).1 :=
            congrArg (fun r => r.1.shared) hstep
          obtain ⟨hnodup, hnew, hbehind⟩ := stamps_resume h.behind
            h.sound.shared (hok k hstage)
          unfold StampsNew
          rw [hanswer, stamps_own]
          refine ⟨hnodup, hnew, hsound, ?_⟩
          rw [hshared]
          exact hbehind
  | world x => exact hquiet rfl rfl
  | restart => exact absurd hok id

-- ====== runs

theorem stamps_flatten (answers : List (List (Nat × WebsiteNote))) :
    stamps answers.flatten = answers.flatMap stamps := by
  unfold stamps
  rw [List.filterMap_flatten]
  rfl

/-- In every run in which no load ends after a change, no update comes in
the millisecond of the one before and no older payload is renamed over a
newer one, the journal stays faithful. -/
theorem website_journal_stays_faithful (file : Stored)
    (events : List WebsiteEvent)
    (h : websiteJournalProtocol.machine.Allowed Careful (started file)
      events) : Faithful file events := by
  have hstart : Protocol.Sound Sound Fit (started file) :=
    Protocol.sound_fresh (sound_started file)
  refine ⟨fun hover hkept hinit => ?_, ?_⟩
  · have hall := Machine.allowed_and_invariant
      (fun _ _ hok hf => Protocol.sound_next keeps_sound hok hf) h hstart
    have hend := Protocol.keeps_run keeps_sound h hstart
    have hlanded : Landed
        (websiteJournalProtocol.machine.run (started file) events).shared :=
      Protocol.settled_run (p := websiteJournalProtocol)
        (q := Landed) (o := Carries)
        (g := fun note => ∃ e, note = .rejected e)
        (fun f id env k hok hstage => passes_resume
          (hok.2.calls k (Protocol.mem_calls_of_stage hstage))
          (hok.1 k hstage))
        (fun f x _ => nomatch x) (fun f hok => hok.1) hall rfl hover
        (fun id note hnote hgive => by
          obtain ⟨e, rfl⟩ := hgive
          exact hkept id e hnote)
    exact hend.shared.file hlanded hinit
  · have hstamped : Stamped (started file) [] :=
      ⟨hstart, fun _ => rfl, fun _ h => (by cases h)⟩
    unfold Protocol.notes
    rw [stamps_flatten]
    exact (Machine.nodup_keys_of_allowed stamps
      (fun f e past hok hf => stamped_next hok hf) h hstamped).1

section Samples

/-- A suspension of a website with no domains given. -/
def sampleInput (id : String) : CreateInput where
  id := some (.str id)
  websiteId := .str "website-1"
  serverId := .str "server-1"
  websiteRevision := .num 1
  previewDigest := .str
    "bbbbbbbbbbbbbbbbbbbbbbbbbbbbbbbbbbbbbbbbbbbbbbbbbbbbbbbbbbbbbbbb"
  confirmation := .str "suspend-website"
  domainOperations := .arr []

def sampleEnv : WebsiteEnv :=
  { now := ⟨5⟩, randomUUID := "operation-9", ok := true }

/-- One segment of a call. -/
def sampleTurn (id : Nat) : WebsiteEvent := .answer id sampleEnv

/-- One creation, from the first load to the rename. -/
def sampleAlone : List WebsiteEvent :=
  [.start (.create (sampleInput "operation-1")), sampleTurn 0, sampleTurn 0,
    sampleTurn 0, sampleTurn 0, sampleTurn 0, sampleTurn 0, sampleTurn 0,
    sampleTurn 0]

theorem website_journal_stays_faithful_alone :
    Faithful .absent sampleAlone :=
  website_journal_stays_faithful .absent sampleAlone (by decide +kernel)

/-- Two creations after a load; the payload taken first is renamed last. -/
def sampleOverlap : List WebsiteEvent :=
  [.start .init, sampleTurn 0, sampleTurn 0, sampleTurn 0, sampleTurn 0,
    .start (.create (sampleInput "operation-1")), sampleTurn 1, sampleTurn 1,
    sampleTurn 1, sampleTurn 1,
    .start (.create (sampleInput "operation-2")), sampleTurn 2, sampleTurn 2,
    sampleTurn 2, sampleTurn 2,
    sampleTurn 2, sampleTurn 2, sampleTurn 1, sampleTurn 1]

/-- Whether a note is of a rejected call. -/
def WebsiteNote.isRejected : WebsiteNote → Bool
  | rejected _ => true
  | _ => false

/-- Both creations return and one operation is not in the file. -/
theorem creation_lost : ¬Faithful .absent sampleOverlap := by
  intro h
  have hover : (websiteJournalProtocol.machine.run (started .absent)
      sampleOverlap).calls.all Option.isNone = true := by
    decide +kernel
  have hnotes : (websiteJournalProtocol.notes (started .absent)
      sampleOverlap).all (fun note => !note.2.isRejected) = true := by
    decide +kernel
  have hload := congrArg (fun r => r.map List.length)
    (h.saved (Flight.stage_eq_none hover)
      (fun id e hmem => by
        simpa [WebsiteNote.isRejected] using List.all_eq_true.mp hnotes _ hmem)
      (by decide +kernel))
  revert hload
  decide +kernel

end Samples

end Yunpanel.WebsiteSuspension
