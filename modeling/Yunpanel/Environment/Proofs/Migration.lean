/-
When a store that was migrated is loaded again.

The migration copies the latest `updatedAt` of an application's variables as
it stands in the file, and asks of it only that it is a date; the loader of
the current version wants the text `toISOString` writes. So a migrated store
is loaded again exactly where that variable, for each application, has a
canonical date (`migration_loads_iff`): the loop keeps the first of the
latest (`FirstLatest`), and nothing else of what it writes can be refused.
-/
import Yunpanel.Environment.Migration

namespace Yunpanel.Environment

open Lib Json Applications

-- ====== the latest

/-- The application a variable counts for, and the date of its last change,
where it has one. -/
def timed (calendar : Calendar) (record : Json) :
    Option (Uuid × String × Int) :=
  if isInternal record then none
  else
    (Uuid.read? (fieldOf "applicationId" record)).bind fun id =>
      (timeOf calendar record).map fun time => (id, time)

/-- The variable at a position is the first of those of an application that
were changed last. -/
structure FirstLatest (calendar : Calendar) (records : List Json) (i : Nat)
    (id : Uuid) (text : String) (ms : Int) : Prop where
  here : ∃ r, records[i]? = some r ∧ timed calendar r = some (id, text, ms)
  before : ∀ (j : Nat) r text' ms', j < i → records[j]? = some r →
    timed calendar r = some (id, text', ms') → ms' < ms
  after : ∀ (j : Nat) r text' ms', i < j → records[j]? = some r →
    timed calendar r = some (id, text', ms') → ms' ≤ ms

section latest

variable {calendar : Calendar} {records : List Json} {id : Uuid}

variable {i j : Nat} {text' : String} {ms' : Int}

/-- There is one. -/
theorem FirstLatest.unique {text : String} {ms : Int}
    (h : FirstLatest calendar records i id text ms)
    (h' : FirstLatest calendar records j id text' ms') : text = text' := by
  obtain ⟨r, hr, htime⟩ := h.here
  obtain ⟨r', hr', htime'⟩ := h'.here
  rcases Nat.lt_trichotomy i j with hlt | rfl | hgt
  · have hle := h.after j r' text' ms' hlt hr' htime'
    have hlt' := h'.before i r text ms hlt hr htime
    omega
  · rw [hr] at hr'
    obtain rfl := Option.some.inj hr'
    rw [htime] at htime'
    exact congrArg (fun time => time.2.1) (Option.some.inj htime')
  · have hle := h'.after i r text ms hgt hr htime
    have hlt := h.before j r' text' ms' hgt hr' htime'
    omega

/-- It is the latest of all. -/
theorem FirstLatest.le {text : String} {ms : Int}
    (h : FirstLatest calendar records i id text ms) {r : Json}
    (hr : r ∈ records) (htime : timed calendar r = some (id, text', ms')) :
    ms' ≤ ms := by
  obtain ⟨j, hj⟩ := List.getElem?_of_mem hr
  rcases Nat.lt_trichotomy j i with hlt | rfl | hgt
  · exact Int.le_of_lt (h.before j r text' ms' hlt hj htime)
  · obtain ⟨r', hr', htime'⟩ := h.here
    rw [hj] at hr'
    obtain rfl := Option.some.inj hr'
    rw [htime] at htime'
    obtain ⟨-, htime'⟩ := Prod.mk.inj (Option.some.inj htime')
    exact Int.le_of_eq (Prod.mk.inj htime').2
  · exact h.after j r text' ms' hgt hj htime

theorem getElem?_concat_cases {α : Type*} {as : List α} {a b : α}
    (h : (as ++ [a])[j]? = some b) :
    (j < as.length ∧ as[j]? = some b) ∨ (j = as.length ∧ b = a) := by
  rcases Nat.lt_trichotomy j as.length with hlt | rfl | hgt
  · rw [List.getElem?_append_left hlt] at h
    exact .inl ⟨hlt, h⟩
  · rw [List.getElem?_concat_length] at h
    exact .inr ⟨rfl, (Option.some.inj h).symm⟩
  · rw [List.getElem?_eq_none
      (by rw [List.length_append, List.length_singleton]; omega)] at h
    cases h

/-- A variable that was not changed later leaves it the first. -/
theorem FirstLatest.concat {text : String} {ms : Int}
    (h : FirstLatest calendar records i id text ms) {x : Json}
    (hx : ∀ text' ms', timed calendar x = some (id, text', ms') → ms' ≤ ms) :
    FirstLatest calendar (records ++ [x]) i id text ms := by
  obtain ⟨r, hr, htime⟩ := h.here
  obtain ⟨hi, -⟩ := List.getElem?_eq_some_iff.mp hr
  refine ⟨⟨r, by rw [List.getElem?_append_left hi, hr], htime⟩,
    fun j r' text' ms' hj hr' htime' => ?_,
    fun j r' text' ms' hj hr' htime' => ?_⟩
  · rcases getElem?_concat_cases hr' with ⟨-, hold⟩ | ⟨rfl, -⟩
    · exact h.before j r' text' ms' hj hold htime'
    · omega
  · rcases getElem?_concat_cases hr' with ⟨-, hold⟩ | ⟨-, rfl⟩
    · exact h.after j r' text' ms' hj hold htime'
    · exact hx text' ms' htime'

/-- A variable that was changed later than all is the first from then on. -/
theorem firstLatest_concat {x : Json} {text : String} {ms : Int}
    (hx : timed calendar x = some (id, text, ms))
    (hall : ∀ r ∈ records, ∀ text' ms',
      timed calendar r = some (id, text', ms') → ms' < ms) :
    FirstLatest calendar (records ++ [x]) records.length id text ms := by
  refine ⟨⟨x, List.getElem?_concat_length, hx⟩,
    fun j r text' ms' hj hr htime => ?_, fun j r text' ms' hj hr htime => ?_⟩
  · rcases getElem?_concat_cases hr with ⟨-, hold⟩ | ⟨rfl, -⟩
    · exact hall r (List.mem_of_getElem? hold) text' ms' htime
    · omega
  · rcases getElem?_concat_cases hr with ⟨hlt, -⟩ | ⟨rfl, -⟩ <;> omega

end latest

-- ====== the loop

/-- What the loop has gathered of an application's variables. -/
structure Gathered (calendar : Calendar) (records : List Json) (id : Uuid)
    (d : Details) : Prop where
  count : d.count ≤ records.length
  undated : d.timestamp = none → ∀ r ∈ records, ∀ text ms,
    timed calendar r ≠ some (id, text, ms)
  latest : ∀ text, d.timestamp = some text → ∃ (i : Nat) (ms : Int),
    FirstLatest calendar records i id text ms

section loop

variable {calendar : Calendar} {records : List Json} {id : Uuid}

/-- A date is the one its text is parsed as. -/
theorem parse_of_timed {r : Json} {text : String} {ms : Int}
    (h : timed calendar r = some (id, text, ms)) :
    calendar.parse text = some ms ∧ timeOf calendar r = some (text, ms) := by
  unfold timed at h
  split at h
  · cases h
  · obtain ⟨id', -, h⟩ := Option.bind_eq_some_iff.mp h
    obtain ⟨time, htime, hpair⟩ := Option.map_eq_some_iff.mp h
    obtain ⟨rfl, rfl⟩ := Prod.mk.inj hpair
    refine ⟨?_, htime⟩
    unfold timeOf at htime
    obtain ⟨text', -, hparsed⟩ := Option.bind_eq_some_iff.mp htime
    obtain ⟨ms', hms, hpair⟩ := Option.map_eq_some_iff.mp hparsed
    obtain ⟨rfl, rfl⟩ := Prod.mk.inj hpair
    exact hms

variable {d : Details} {app : Uuid} {next : List (Uuid × Details)}

/-- A variable that is not one of the application's changes nothing. -/
theorem Gathered.concat (h : Gathered calendar records id d) {x : Json}
    (hx : ∀ text ms, timed calendar x ≠ some (id, text, ms)) :
    Gathered calendar (records ++ [x]) id d := by
  refine ⟨?_, fun hnone r hr => ?_, fun text htext => ?_⟩
  · have hcount := h.count
    rw [List.length_append, List.length_singleton]
    omega
  · rcases List.mem_append.mp hr with hr | hr
    · exact h.undated hnone r hr
    · rw [List.mem_singleton.mp hr]
      exact hx
  · obtain ⟨i, ms, hlatest⟩ := h.latest text htext
    exact ⟨i, ms, hlatest.concat fun text' ms' htime =>
      absurd htime (hx text' ms')⟩

/-- The turn of a variable of the application. -/
theorem Gathered.counted (h : Gathered calendar records id d) {x : Json}
    (hx : timed calendar x = (timeOf calendar x).map fun time => (id, time)) :
    Gathered calendar (records ++ [x]) id (d.counted calendar x) := by
  have hcount : (d.counted calendar x).count ≤ (records ++ [x]).length := by
    have hcount := h.count
    show d.count + 1 ≤ _
    rw [List.length_append, List.length_singleton]
    omega
  cases htime : timeOf calendar x with
  | none =>
      rw [htime] at hx
      have hkeep : (d.counted calendar x).timestamp = d.timestamp := by
        unfold Details.counted
        rw [htime]
      have hrest : Gathered calendar (records ++ [x]) id d :=
        h.concat fun text ms heq => by rw [hx] at heq; cases heq
      refine ⟨hcount, ?_, ?_⟩
      · rw [hkeep]
        exact hrest.undated
      · rw [hkeep]
        exact hrest.latest
  | some time =>
      obtain ⟨text, ms⟩ := time
      rw [htime] at hx
      have hx' : timed calendar x = some (id, text, ms) := hx
      by_cases hlater : (d.timestamp.all fun current =>
          (calendar.parse current).any fun before =>
            decide (before < ms)) = true
      · have hnew : (d.counted calendar x).timestamp = some text := by
          unfold Details.counted
          rw [htime]
          exact if_pos hlater
        refine ⟨hcount, fun hnone => ?_, fun text' htext' => ?_⟩
        · rw [hnew] at hnone
          cases hnone
        · rw [hnew] at htext'
          obtain rfl := Option.some.inj htext'
          refine ⟨records.length, ms, firstLatest_concat hx' ?_⟩
          intro r hr text' ms' htime'
          cases hd : d.timestamp with
          | none => exact absurd htime' (h.undated hd r hr text' ms')
          | some current =>
              obtain ⟨i, ms₀, hlatest⟩ := h.latest current hd
              obtain ⟨r₀, -, htime₀⟩ := hlatest.here
              have hparse := (parse_of_timed htime₀).1
              rw [hd] at hlater
              have hbefore : ms₀ < ms := by
                simpa [hparse] using hlater
              have hle := hlatest.le hr htime'
              omega
      · have hkeep : (d.counted calendar x).timestamp = d.timestamp := by
          unfold Details.counted
          rw [htime]
          exact if_neg hlater
        cases hd : d.timestamp with
        | none =>
            rw [hd] at hlater
            exact absurd rfl hlater
        | some current =>
            obtain ⟨i, ms₀, hlatest⟩ := h.latest current hd
            obtain ⟨r₀, -, htime₀⟩ := hlatest.here
            have hparse := (parse_of_timed htime₀).1
            rw [hd] at hlater
            have hnot : ms ≤ ms₀ := by
              simpa [hparse] using hlater
            refine ⟨hcount, fun hnone => ?_, fun text' htext' => ?_⟩
            · rw [hkeep, hd] at hnone
              cases hnone
            · rw [hkeep, hd] at htext'
              obtain rfl := Option.some.inj htext'
              refine ⟨i, ms₀, hlatest.concat fun text' ms' htime' => ?_⟩
              rw [hx'] at htime'
              obtain ⟨-, hpair⟩ := Prod.mk.inj (Option.some.inj htime')
              obtain ⟨-, hms⟩ := Prod.mk.inj hpair
              omega

/-- What is gathered of an application, nothing where it has no entry. -/
def detailsOf (byApplication : List (Uuid × Details)) (id : Uuid) : Details :=
  ((byApplication.find? fun entry => entry.1 == id).map Prod.snd).getD
    ⟨0, none⟩

/-- The table after the turn of a variable of an application. -/
def countedFor (calendar : Calendar) (x : Json) (app : Uuid)
    (byApplication : List (Uuid × Details)) : List (Uuid × Details) :=
  upsert (fun entry => entry.1 == app)
    (fun entry => (app, ((entry.map Prod.snd).getD ⟨0, none⟩).counted
      calendar x)) byApplication

theorem detailsOf_counted (byApplication : List (Uuid × Details)) {x : Json} :
    detailsOf (countedFor calendar x app byApplication) app
      = (detailsOf byApplication app).counted calendar x := by
  have hfind := find?_upsert_self
    (p := fun entry : Uuid × Details => entry.1 == app)
    (f := fun entry => (app, ((entry.map Prod.snd).getD ⟨0, none⟩).counted
      calendar x)) (fun _ _ => beq_self_eq_true app) byApplication
  unfold detailsOf countedFor
  rw [hfind]
  rfl

theorem detailsOf_counted_other (byApplication : List (Uuid × Details))
    {x : Json} (hid : id ≠ app) :
    detailsOf (countedFor calendar x app byApplication) id
      = detailsOf byApplication id := by
  unfold detailsOf countedFor
  rw [find?_upsert_other]
  · exact fun _ _ => beq_eq_false_iff_ne.mpr (Ne.symm hid)
  · intro a ha
    rw [beq_iff_eq.mp ha]
    exact beq_eq_false_iff_ne.mpr (Ne.symm hid)

/-- The loop's invariant. -/
structure Counted (calendar : Calendar) (records : List Json)
    (byApplication : List (Uuid × Details)) : Prop where
  distinct : (byApplication.map Prod.fst).Nodup
  gathered : ∀ id, Gathered calendar records id (detailsOf byApplication id)

theorem counted_nil : Counted calendar [] [] :=
  ⟨List.nodup_nil, fun _ =>
    ⟨Nat.le_refl _, fun _ _ hr => (nomatch hr), fun _ h => (nomatch h)⟩⟩

/-- A turn of the loop passes an internal variable, and counts any other
for its application. -/
theorem countVariable_eq_ok {byApplication : List (Uuid × Details)}
    {x : Json} (h : countVariable calendar byApplication x = .ok next) :
    (isInternal x = true ∧ next = byApplication) ∨
      (¬isInternal x = true ∧ ∃ app,
        Uuid.read? (fieldOf "applicationId" x) = some app
          ∧ next = countedFor calendar x app byApplication) := by
  unfold countVariable at h
  split at h
  · rename_i hinternal
    exact .inl ⟨hinternal, (Except.ok.inj h).symm⟩
  · rename_i hvariable
    obtain ⟨app, happ, h⟩ := Lib.Result.bind_eq_ok.mp h
    refine .inr ⟨hvariable, app, ?_, (Except.ok.inj h).symm⟩
    unfold normalizeApplicationId at happ
    cases hid : Uuid.read? (fieldOf "applicationId" x) with
    | none =>
        rw [hid] at happ
        cases happ
    | some id =>
        rw [hid] at happ
        rw [show id = app from Except.ok.inj happ]

/-- One turn of the loop. -/
theorem Counted.step {byApplication : List (Uuid × Details)}
    (h : Counted calendar records byApplication) {x : Json}
    (hx : countVariable calendar byApplication x = .ok next) :
    Counted calendar (records ++ [x]) next := by
  obtain ⟨hinternal, rfl⟩ | ⟨hvariable, app, hread, rfl⟩ :=
    countVariable_eq_ok hx
  · refine ⟨h.distinct, fun id => (h.gathered id).concat fun text ms => ?_⟩
    unfold timed
    rw [if_pos hinternal]
    exact fun heq => nomatch heq
  · have htimed : timed calendar x
        = (timeOf calendar x).map fun time => (app, time) := by
      unfold timed
      rw [if_neg hvariable, hread]
      rfl
    refine ⟨nodup_upsert (k := app) (fun _ _ => rfl) (fun a => beq_iff_eq)
      h.distinct, fun id => ?_⟩
    by_cases hid : id = app
    · subst hid
      rw [detailsOf_counted]
      exact (h.gathered id).counted htimed
    · rw [detailsOf_counted_other byApplication hid]
      refine (h.gathered id).concat fun text ms heq => ?_
      rw [htimed] at heq
      obtain ⟨time, -, hpair⟩ := Option.map_eq_some_iff.mp heq
      exact hid (Prod.mk.inj hpair).1.symm

/-- The loop over all variables. -/
theorem Counted.run {byApplication final : List (Uuid × Details)}
    (h : Counted calendar records byApplication) {rest : List Json}
    (hrest : rest.foldlM (countVariable calendar) byApplication = .ok final) :
    Counted calendar (records ++ rest) final := by
  induction rest generalizing records byApplication with
  | nil =>
      obtain rfl := Except.ok.inj hrest
      rw [List.append_nil]
      exact h
  | cons x rest ih =>
      rw [List.foldlM_cons] at hrest
      obtain ⟨next, hx, hrest⟩ := Lib.Result.bind_eq_ok.mp hrest
      have hall := ih (h.step hx) hrest
      rwa [List.append_assoc] at hall

end loop

-- ====== the reload

section reload

variable {calendar : Calendar} {now : Int}

theorem readChange_json {n : Nat} {change : Change} :
    readChange (Change.json ⟨.migration, n, 0, 0⟩) = .ok change
      ↔ n ≤ 9007199254740991 ∧ change = ⟨.migration, n, 0, 0⟩ := by
  show Lib.Result.demand _ (((SafeNat.read? (.num n)).map SafeNat.val).bind
    fun added => some (⟨.migration, added, 0, 0⟩ : Change)) = _ ↔ _
  by_cases hn : n ≤ 9007199254740991
  · have hread : SafeNat.read? (.num n) = some ⟨n, hn⟩ :=
      SafeNat.read?_json ⟨n, hn⟩
    rw [hread]
    show Except.ok _ = _ ↔ _
    rw [Except.ok.injEq, eq_comm, and_iff_right hn]
  · have hread : SafeNat.read? (.num n) = none := by
      show (if h : _ then _ else _) = _
      rw [dif_neg]
      omega
    rw [hread]
    exact iff_of_false nofun fun h => hn h.1

/-- The text a migration writes for the last change. -/
def changedAt (calendar : Calendar) (now : Int) (d : Details) : String :=
  d.timestamp.getD (calendar.toISOString now)

/-- What the loader asks of the details a migration wrote down. -/
def Readable (calendar : Calendar) (now : Int) (d : Details) : Prop :=
  d.count ≤ 9007199254740991
    ∧ calendar.isCanonical (changedAt calendar now d) = true

/-- A migrated environment is read back as it is, where it is read at
all. -/
theorem readEnvironment_migrated {entry : Uuid × Details}
    {m : SavedEnvironment} :
    readEnvironment calendar (migrated calendar now entry).json = .ok m
      ↔ Readable calendar now entry.2 ∧ m = migrated calendar now entry := by
  have hid : normalizeApplicationId entry.1.json = .ok entry.1 := by
    unfold normalizeApplicationId
    rw [Uuid.read?_json]
    rfl
  show ofRegistry (normalizeApplicationId entry.1.json) >>= _ = _ ↔ _
  rw [hid]
  show (readChange (Change.json ⟨.migration, entry.2.count, 0, 0⟩)).map some
    >>= _ = _ ↔ _
  cases hchange : readChange (Change.json ⟨.migration, entry.2.count, 0, 0⟩) with
  | error e =>
      refine iff_of_false nofun fun h => ?_
      rw [readChange_json.mpr ⟨h.1.1, rfl⟩] at hchange
      cases hchange
  | ok change =>
      obtain ⟨hcount, rfl⟩ := readChange_json.mp hchange
      show Except.map some (Lib.Result.demand _ (Option.filter
        calendar.isCanonical (some (changedAt calendar now entry.2))))
          >>= _ = _ ↔ _
      by_cases hcanonical :
          calendar.isCanonical (changedAt calendar now entry.2) = true
      · rw [Option.filter_some_pos hcanonical]
        show Except.ok (migrated calendar now entry) = _ ↔ _
        rw [Except.ok.injEq, eq_comm, and_iff_right ⟨hcount, hcanonical⟩]
      · rw [Option.filter_some_neg (Bool.not_eq_true _ ▸ hcanonical)]
        exact iff_of_false nofun fun h => hcanonical h.1.2

/-- A migrated store is read back as it is, where each of its environments
is readable. -/
theorem initFile_migrated {now' : Int} {records : List Json}
    {byApplication : List (Uuid × Details)}
    (hdistinct : (byApplication.map Prod.fst).Nodup) {s : SavedState} :
    initFile calendar now'
        (SavedState.json ⟨records, byApplication.map (migrated calendar now)⟩)
          = .ok s
      ↔ (∀ entry ∈ byApplication, Readable calendar now entry.2)
          ∧ s = ⟨records, byApplication.map (migrated calendar now)⟩ := by
  have hids : (byApplication.map (migrated calendar now)).map
      SavedEnvironment.applicationId = byApplication.map Prod.fst := by
    rw [List.map_map]
    rfl
  show initV2 calendar records ((byApplication.map (migrated calendar now)).map
    SavedEnvironment.json) = _ ↔ _
  have hread (environments : List SavedEnvironment) :
      ((byApplication.map (migrated calendar now)).map
          SavedEnvironment.json).mapM (readEnvironment calendar)
            = .ok environments
        ↔ (∀ entry ∈ byApplication, Readable calendar now entry.2)
          ∧ environments = byApplication.map (migrated calendar now) := by
    rw [Lib.Result.mapM_eq_ok_iff, List.map_map, List.forall₂_map_left_iff,
      ← Lib.Result.forall₂_eq_map]
    simp only [Function.comp_apply, readEnvironment_migrated]
  unfold initV2
  rw [Lib.Result.bind_eq_ok]
  constructor
  · rintro ⟨environments, henvironments, hrest⟩
    obtain ⟨hall, rfl⟩ := (hread environments).mp henvironments
    obtain ⟨_, -, hs⟩ := Lib.Result.bind_eq_ok.mp hrest
    exact ⟨hall, (Except.ok.inj hs).symm⟩
  · rintro ⟨hall, rfl⟩
    refine ⟨_, (hread _).mpr ⟨hall, rfl⟩, ?_⟩
    rw [hids, decide_eq_true hdistinct]
    rfl

/-- The environments a migration made are readable where the first of the
variables of each application that were changed last has a canonical
date. -/
theorem Counted.readable_iff {records : List Json}
    {byApplication : List (Uuid × Details)}
    (h : Counted calendar records byApplication)
    (hnow : calendar.isCanonical (calendar.toISOString now) = true)
    (hlen : records.length < 4294967296) :
    (∀ entry ∈ byApplication, Readable calendar now entry.2)
      ↔ ∀ i id text ms, FirstLatest calendar records i id text ms →
          calendar.isCanonical text = true := by
  constructor
  · intro hall i id text ms hlatest
    obtain ⟨r, hr, htime⟩ := hlatest.here
    have hgathered := h.gathered id
    cases hd : (detailsOf byApplication id).timestamp with
    | none =>
        exact absurd htime
          (hgathered.undated hd r (List.mem_of_getElem? hr) text ms)
    | some text' =>
        obtain ⟨j, ms', hlatest'⟩ := hgathered.latest text' hd
        obtain rfl := hlatest.unique hlatest'
        cases hfind : byApplication.find? fun entry => entry.1 == id with
        | none =>
            unfold detailsOf at hd
            rw [hfind] at hd
            cases hd
        | some entry =>
            have hcanonical := (hall entry (List.mem_of_find?_eq_some hfind)).2
            unfold detailsOf at hd
            rw [hfind] at hd
            unfold changedAt at hcanonical
            rw [show entry.2.timestamp = some text from hd] at hcanonical
            exact hcanonical
  · intro hall entry hentry
    have hd : detailsOf byApplication entry.1 = entry.2 := by
      unfold detailsOf
      rw [find?_key h.distinct hentry rfl]
      rfl
    have hgathered := h.gathered entry.1
    rw [hd] at hgathered
    refine ⟨by have hcount := hgathered.count; omega, ?_⟩
    unfold changedAt
    cases htext : entry.2.timestamp with
    | none => exact hnow
    | some text =>
        obtain ⟨i, ms, hlatest⟩ := hgathered.latest text htext
        exact hall i entry.1 text ms hlatest

/-- A store of version 1 that is loaded is loaded again once it is
migrated, with the same variables, exactly where for each application the
first of the variables that were changed last has a canonical date. An
array has fewer than 2^32 entries. -/
theorem migration_loads_iff (calendar : Calendar) (now now' : Int)
    (parsed : Json) {records : List Json} {s : SavedState}
    (hnow : calendar.isCanonical (calendar.toISOString now) = true)
    (hversion : fieldOf "version" parsed = .num 1)
    (hrecords : fieldOf "variables" parsed = .arr records)
    (hlen : records.length < 4294967296)
    (h : initFile calendar now parsed = .ok s) :
    (∃ s', initFile calendar now' s.json = .ok s' ∧ s'.records = records)
      ↔ ∀ i id text ms, FirstLatest calendar records i id text ms →
          calendar.isCanonical text = true := by
  unfold initFile at h
  rw [hversion, hrecords] at h
  obtain ⟨byApplication, hloop, hs⟩ := Lib.Result.bind_eq_ok.mp h
  obtain rfl := Except.ok.inj hs
  have hcounted : Counted calendar records byApplication :=
    counted_nil.run hloop
  rw [← hcounted.readable_iff hnow hlen]
  constructor
  · rintro ⟨s', hs', -⟩
    exact ((initFile_migrated hcounted.distinct).mp hs').1
  · intro hall
    exact ⟨_, (initFile_migrated hcounted.distinct).mpr ⟨hall, rfl⟩, rfl⟩

end reload

-- ====== samples

/-- What the platform says of one second of a day, with and without its
milliseconds. -/
def someCalendar : Calendar where
  parse text :=
    if text == "2026-01-02T03:04:05Z"
        || text == "2026-01-02T03:04:05.000Z" then
      some 1767323045000
    else none
  toISOString _ := "2026-01-02T03:04:05.000Z"

def portChanged (updatedAt : String) : Json :=
  .obj [("applicationId", .str "9c858901-8a57-4791-81fe-4c455b099bc9"),
    ("key", .str "PORT"), ("value", .str "3000"), ("secret", .bool false),
    ("createdAt", .str updatedAt), ("updatedAt", .str updatedAt)]

/-- A store of version 1 with one variable. -/
def storeOfOne (updatedAt : String) : Json :=
  .obj [("version", .num 1), ("variables", .arr [portChanged updatedAt])]

theorem migration_loads_iff_sample : ∃ s : SavedState,
    initFile someCalendar 1767323045000 (storeOfOne "2026-01-02T03:04:05.000Z")
        = .ok s ∧
    ((∃ s', initFile someCalendar 1767323045000 s.json = .ok s'
        ∧ s'.records = [portChanged "2026-01-02T03:04:05.000Z"])
      ↔ ∀ i id text ms, FirstLatest someCalendar
          [portChanged "2026-01-02T03:04:05.000Z"] i id text ms →
          someCalendar.isCanonical text = true) :=
  ⟨_, rfl, migration_loads_iff someCalendar 1767323045000 1767323045000
    (storeOfOne "2026-01-02T03:04:05.000Z")
    (by decide) rfl rfl (by decide : (1 : Nat) < 4294967296) rfl⟩

/-- A date without milliseconds is migrated as it is, and is then
refused. -/
theorem migration_without_milliseconds : ∃ s : SavedState,
    initFile someCalendar 1767323045000 (storeOfOne "2026-01-02T03:04:05Z")
        = .ok s ∧
    initFile someCalendar 1767323045000 s.json = .error (.error
      "application environment change timestamp is invalid") :=
  ⟨_, rfl, rfl⟩

end Yunpanel.Environment
