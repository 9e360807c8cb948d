/-
Every run of the registry of credentials.

# The runs

Calls of all four kinds overlap at will, writes settle or fail, and the
process may start again from its file at any point. In a run whose look-ups
are answered where their calls are steady, every change is the one its call
was made for, on the revision that call expected; no revision of a
credential is used twice in one life of the process; no binding has two
credentials; and the file is one the registry loads as it is.

# Where it fails

The three calls that compare a revision do so before they wait, and do not
look again (`createCredential` does). Two deletions of one credential that
overlap take out two credentials: the second finds its neighbour at the
position it remembers.
-/
import Yunpanel.Databases.Proofs.CredentialChanges

namespace Yunpanel.Databases

open Lib Lib.Result
open Secrets hiding Failure

-- ====== notes

namespace Note

/-- A change is the one its call was made for. -/
def Lawful : Note → Prop
  | applied _ l before after => l.Lawful before after
  | refused _ => True

instance (note : Note) : Decidable note.Lawful := by
  cases note with
  | applied _ l before after =>
      exact inferInstanceAs (Decidable (l.Lawful before after))
  | refused _ => exact .isTrue trivial

/-- In which life of the process which revision of which credential a
change used. -/
def stamp? : Note → Option (Nat × Uuid × Nat)
  | applied life l _ _ => l.stamp?.map fun stamp => (life, stamp)
  | refused _ => none

end Note

/-- The revisions that were used up, in the order of the changes. -/
def stamps (notes : List (Nat × Note)) : List (Nat × Uuid × Nat) :=
  notes.filterMap fun note => note.2.stamp?

/-- A look-up is answered where its call is steady. -/
def steady (config : Config) (f : Flight Panel Stage) :
    Flight.Event Call Env World → Bool
  | .answer id env =>
      match f.stage id with
      | some (.looking l) => l.steady config env f.shared.mem
      | _ => true
  | _ => true

-- ====== one call

section Changes

variable {config : Config} (hc : config.crypto.cipher.Streams)
  {env : Env} {m m' : Memory} {reply : Memory → Except Failure Reply}
include hc

variable {id : Uuid} {expected : Nat}

theorem creating_written (h : Loadable config m.credentials)
    {requested : Option Json} {confirmation : Json}
    (hsteady : (Lookup.creating id requested confirmation).steady config env
      m = true)
    (he : (Lookup.creating id requested confirmation).effect config env m
      = .written m' reply) :
    Loadable config m'.credentials
      ∧ (Lookup.creating id requested confirmation).Lawful m.credentials
          m'.credentials
      ∧ ∀ stamp, Spent m stamp → Spent m' stamp := by
  unfold Lookup.effect at he
  dsimp only at he
  split at he
  · cases he
  · rename_i r hr
    obtain ⟨rfl, -⟩ := Effect.written.inj he
    obtain ⟨hstorable, hid, hbinding, hunused⟩ := createRecord_eq_ok hc hr
    simp only [Lookup.steady, Bool.and_eq_true, Bool.not_eq_true',
      List.any_eq_false, bne_iff_ne, beq_iff_eq, not_and] at hsteady
    have hfresh : ∀ s ∈ m.objects, s.id ≠ r.id :=
      fun s hs => hid ▸ hsteady.1 s hs
    refine ⟨loadable_push h hstorable
      (fun s hs => hfresh s (List.mem_append_left _ hs)) ?_ ?_,
      ⟨hunused, ?_, ?_⟩, fun stamp hstamp => hstamp.push hfresh⟩
    · exact fun s hs => hbinding ▸ hunused s hs
    · intro s hs
      rw [hstorable.derived, hbinding]
      exact hsteady.2 s hs (hunused s hs)
    · exact List.dropLast_concat
    · simp [Memory.push, hbinding]

omit hc in
theorem setting_written (h : Loadable config m.credentials)
    {normalized : Privileges}
    (hsteady : (Lookup.setting id expected normalized).steady config env m
      = true)
    (he : (Lookup.setting id expected normalized).effect config env m
      = .written m' reply) :
    Loadable config m'.credentials
      ∧ (Lookup.setting id expected normalized).Lawful m.credentials
          m'.credentials
      ∧ (∀ stamp, Spent m stamp → Spent m' stamp)
      ∧ ¬Spent m (id, expected) ∧ Spent m' (id, expected) := by
  unfold Lookup.effect at he
  dsimp only at he
  split at he
  · cases he
  · split at he
    · cases he
    · rename_i howned
      obtain ⟨rfl, -⟩ := Effect.written.inj he
      have hreached : env.unavailable = false := by
        simp only [requireOwned, requireBinding, bind_eq_ok, exists_unit,
          ensure_eq_ok, Bool.not_eq_true'] at howned
        exact howned.choose_spec.1.1
      simp only [Lookup.steady, hreached, Bool.false_or, Bool.and_eq_true,
        decide_eq_true_eq, List.any_eq_true, beq_iff_eq] at hsteady
      obtain ⟨hbound, r, hr, rfl, rfl⟩ := hsteady
      have hrenews := renews_granted env.now normalized
      refine ⟨loadable_assign h hrenews fun s hs hid => ?_,
        lawful_assign h.ids hr hrenews,
        fun stamp hstamp => hstamp.assign hrenews _, not_spent_of_mem hr,
        spent_assign h.ids hr hrenews⟩
      have hsame : s = r := List.inj_on_of_nodup_map h.ids hs hr hid
      exact hsame ▸ storable_granted (h.storable r hr) hbound

theorem rotating_written (h : Loadable config m.credentials)
    (hsteady : (Lookup.rotating id expected).steady config env m = true)
    (he : (Lookup.rotating id expected).effect config env m
      = .written m' reply) :
    Loadable config m'.credentials
      ∧ (Lookup.rotating id expected).Lawful m.credentials m'.credentials
      ∧ (∀ stamp, Spent m stamp → Spent m' stamp)
      ∧ ¬Spent m (id, expected) ∧ Spent m' (id, expected) := by
  unfold Lookup.effect at he
  dsimp only at he
  split at he
  · cases he
  · rename_i held hheld
    split at he
    · cases he
    · rename_i e hrotated
      obtain ⟨rfl, -⟩ := Effect.written.inj he
      have hreached : env.unavailable = false
          ∧ isPassword env.generatePassword = true := by
        simp only [rotatedEnvelope, requireOwned, requireBinding, password,
          bind_eq_ok, exists_unit, ensure_eq_ok, Bool.not_eq_true']
          at hrotated
        obtain ⟨⟨b, ⟨havailable, -⟩, -⟩, -, ⟨hpassword, -⟩, -⟩ := hrotated
        exact ⟨havailable, hpassword⟩
      simp only [Lookup.steady, hreached.1, hreached.2, Bool.not_true,
        Bool.false_or, Bool.and_eq_true, decide_eq_true_eq,
        List.any_eq_true, beq_iff_eq] at hsteady
      obtain ⟨hbound, r, hr, rfl, rfl⟩ := hsteady
      -- the object the call holds is the stored credential
      have hobject : held = r := by
        rw [object?_of_mem h.ids hr] at hheld
        exact (Option.some.inj hheld).symm
      subst hobject
      have hrenews := renews_rotated env.now e
      refine ⟨loadable_assign h hrenews fun s hs hid => ?_,
        lawful_assign h.ids hr hrenews,
        fun stamp hstamp => hstamp.assign hrenews _, not_spent_of_mem hr,
        spent_assign h.ids hr hrenews⟩
      have hsame : s = held := List.inj_on_of_nodup_map h.ids hs hr hid
      exact hsame ▸ storable_rotated hc (h.storable held hr) hbound hrotated

omit hc in
theorem deleting_written (h : Loadable config m.credentials) {index : Nat}
    (hsteady : (Lookup.deleting index id expected).steady config env m
      = true) (he : (Lookup.deleting index id expected).effect config env m
      = .written m' reply) :
    Loadable config m'.credentials
      ∧ (Lookup.deleting index id expected).Lawful m.credentials
          m'.credentials
      ∧ (∀ stamp, Spent m stamp → Spent m' stamp)
      ∧ ¬Spent m (id, expected) ∧ Spent m' (id, expected) := by
  unfold Lookup.effect at he
  dsimp only at he
  split at he
  · cases he
  · split at he
    · cases he
    · rename_i howned
      obtain ⟨rfl, -⟩ := Effect.written.inj he
      have hreached : env.unavailable = false := by
        simp only [requireOwned, requireBinding, bind_eq_ok, exists_unit,
          ensure_eq_ok, Bool.not_eq_true'] at howned
        exact howned.choose_spec.1.1
      simp only [Lookup.steady, hreached, Bool.false_or, Option.any_eq_true,
        Bool.and_eq_true, beq_iff_eq] at hsteady
      obtain ⟨r, hr, rfl, rfl⟩ := hsteady
      exact ⟨loadable_splice h index, lawful_splice h.ids hr,
        fun stamp hstamp => hstamp.splice index,
        not_spent_of_mem (List.mem_of_getElem? hr), spent_splice h.ids hr⟩

/-- Every kind of call at once. -/
theorem effect_written (h : Loadable config m.credentials) {l : Lookup}
    (hsteady : l.steady config env m = true)
    (he : l.effect config env m = .written m' reply) :
    Loadable config m'.credentials ∧ l.Lawful m.credentials m'.credentials
      ∧ (∀ stamp, Spent m stamp → Spent m' stamp)
      ∧ ∀ stamp, l.stamp? = some stamp → ¬Spent m stamp ∧ Spent m' stamp := by
  cases l with
  | creating id requested confirmation =>
      obtain ⟨hload, hlawful, hspent⟩ := creating_written hc h hsteady he
      exact ⟨hload, hlawful, hspent, fun stamp hstamp => nomatch hstamp⟩
  | setting id expected normalized =>
      obtain ⟨hload, hlawful, hspent, hnew⟩ := setting_written h hsteady he
      refine ⟨hload, hlawful, hspent, fun stamp hstamp => ?_⟩
      obtain rfl := Option.some.inj hstamp
      exact hnew
  | rotating id expected =>
      obtain ⟨hload, hlawful, hspent, hnew⟩ :=
        rotating_written hc h hsteady he
      refine ⟨hload, hlawful, hspent, fun stamp hstamp => ?_⟩
      obtain rfl := Option.some.inj hstamp
      exact hnew
  | deleting index id expected =>
      obtain ⟨hload, hlawful, hspent, hnew⟩ := deleting_written h hsteady he
      refine ⟨hload, hlawful, hspent, fun stamp hstamp => ?_⟩
      obtain rfl := Option.some.inj hstamp
      exact hnew

end Changes

-- ====== invariant

/-- What holds between two segments: memory, the file and what is on its
way there are loadable, `init` let the process start, and the revisions
used so far are spent, those of this life in memory. -/
structure Sound (config : Config) (s : Panel)
    (past : List (Nat × Uuid × Nat)) : Prop where
  store : s.store.Holds fun m => Loadable config m.credentials
  accepted : s.refusal = none
  past : ∀ k ∈ past, k.1 ≤ s.life ∧ (k.1 = s.life → Spent s.mem k.2)

variable {credentials : List Credential} {past : List (Nat × Uuid × Nat)}
  {bs : Bytes}

theorem started_of_loadable {config : Config}
    (h : Loadable config credentials) (life : Nat) :
    Panel.started config life credentials
      = { store := .opened (.ofFile credentials), refusal := none, life } := by
  unfold Panel.started
  rw [loadable_iff.mp h]

theorem sound_started {config : Config} {stored : List Credential}
    (h : init config stored = .ok credentials) (life : Nat) :
    Sound config (Panel.started config life stored) [] := by
  unfold Panel.started
  rw [h]
  exact ⟨Store.holds_opened (loadable_of_init h), rfl, fun k hk => nomatch hk⟩

/-- The step of a call whose look-up is answered. -/
theorem sound_looking {config : Config} (hc : config.crypto.cipher.Streams)
    {s : Panel} (h : Sound config s past) {l : Lookup} {env : Env}
    (hsteady : l.steady config env s.mem = true) (id : Nat) :
    let after := resume config s (.looking l) env
    let notes := after.2.2.map fun note => (id, note)
    (∀ note ∈ notes, note.2.Lawful) ∧ (stamps notes).Nodup
      ∧ (∀ k ∈ stamps notes, k ∉ past)
      ∧ Sound config after.1 (past ++ stamps notes) := by
  have hquiet : Sound config s (past ++ []) := by
    rw [List.append_nil]
    exact h
  cases he : l.effect config env s.mem with
  | refused e =>
      simp only [resume, he]
      exact ⟨by simp [Note.Lawful], by simp [stamps, Note.stamp?],
        by simp [stamps, Note.stamp?], hquiet⟩
  | spoiled m e =>
      simp only [resume, he]
      exact ⟨by simp [Note.Lawful], by simp [stamps, Note.stamp?],
        by simp [stamps, Note.stamp?], hquiet⟩
  | replied a =>
      simp only [resume, he]
      exact ⟨by simp, by simp [stamps], by simp [stamps], hquiet⟩
  | written m reply =>
      obtain ⟨hload, hlawful, hspent, hnew⟩ :=
        effect_written hc h.store.mem hsteady he
      have hstamps : stamps [(id, Note.applied s.life l s.mem.credentials
          m.credentials)] = (l.stamp?.map fun k => (s.life, k)).toList := by
        cases hstamp : l.stamp? <;> simp [stamps, Note.stamp?, hstamp]
      simp only [resume, he, List.map_singleton, hstamps]
      refine ⟨fun note hnote => ?_, ?_, fun k hk hpast => ?_, ?_, h.accepted,
        fun k hk => ?_⟩
      · rw [List.mem_singleton.mp hnote]
        exact hlawful
      · cases l.stamp? <;> simp
      · obtain ⟨stamp, hstamp, rfl⟩ := Option.map_eq_some_iff.mp
          (Option.mem_toList.mp hk)
        exact (hnew stamp hstamp).1 ((h.past _ hpast).2 rfl)
      · apply h.store.call
        · intro t r ht
          obtain ⟨rfl, -⟩ := Effect.written.inj ht
          exact hload
        · exact fun t e ht => nomatch ht
      · show k.1 ≤ s.life ∧ (k.1 = s.life → Spent m k.2)
        rcases List.mem_append.mp hk with hk | hk
        · exact ⟨(h.past k hk).1, fun hlife =>
            hspent k.2 ((h.past k hk).2 hlife)⟩
        · obtain ⟨stamp, hstamp, rfl⟩ := Option.map_eq_some_iff.mp
            (Option.mem_toList.mp hk)
          exact ⟨Nat.le_refl _, fun _ => (hnew stamp hstamp).2⟩

/-- One step of a run, whatever it is. -/
theorem sound_next {config : Config} (hc : config.crypto.cipher.Streams)
    {f : Flight Panel Stage} {e : Flight.Event Call Env World}
    (hsteady : steady config f e = true) (h : Sound config f.shared past) :
    let notes := (protocol config).machine.answer f e
    (∀ note ∈ notes, note.2.Lawful) ∧ (stamps notes).Nodup
      ∧ (∀ k ∈ stamps notes, k ∉ past)
      ∧ Sound config ((protocol config).machine.next f e).shared
          (past ++ stamps notes) := by
  have hquiet : ∀ s, Sound config s past →
      (∀ note ∈ ([] : List (Nat × Note)), note.2.Lawful)
        ∧ (stamps []).Nodup ∧ (∀ k ∈ stamps [], k ∉ past)
        ∧ Sound config s (past ++ stamps []) := by
    intro s hs
    have hnone : stamps [] = [] := rfl
    rw [hnone, List.append_nil]
    exact ⟨by simp, List.nodup_nil, by simp, hs⟩
  cases e with
  | start c => exact hquiet f.shared h
  | world x =>
      cases x with
      | settle ok =>
          refine hquiet _ ⟨h.store.settle .store ok, h.accepted, ?_⟩
          show ∀ k ∈ past, k.1 ≤ f.shared.life ∧ (k.1 = f.shared.life →
            Spent (f.shared.store.settle .store ok).1.mem k.2)
          rw [Store.settle_mem]
          exact h.past
  | restart =>
      refine hquiet _ ?_
      show Sound config (Panel.started config (f.shared.life + 1)
        f.shared.store.file.credentials) past
      rw [started_of_loadable h.store.file]
      refine ⟨Store.holds_opened h.store.file, rfl, fun k hk => ?_⟩
      have hle := (h.past k hk).1
      show k.1 ≤ f.shared.life + 1 ∧ (k.1 = f.shared.life + 1 → _)
      exact ⟨by omega, fun heq => by omega⟩
  | answer id env =>
      cases hstage : f.stage id with
      | none =>
          have hstep := Protocol.step_answer_none (p := protocol config) env
            hstage
          show (∀ note ∈ ((protocol config).step f (.answer id env)).2, _) ∧ _
          simp only [Machine.answer, Machine.next, Protocol.machine, hstep]
          exact hquiet f.shared h
      | some k =>
          have hstep := Protocol.step_answer (p := protocol config) env
            hstage
          simp only [Machine.answer, Machine.next, Protocol.machine, hstep]
          cases k with
          | looking l =>
              have hl : l.steady config env f.shared.mem = true := by
                simpa only [steady, hstage] using hsteady
              exact sound_looking hc h hl id
          | entered c =>
              show let after := resume config f.shared (.entered c) env
                let notes := after.2.2.map fun note => (id, note)
                (∀ note ∈ notes, note.2.Lawful) ∧ (stamps notes).Nodup
                  ∧ (∀ k ∈ stamps notes, k ∉ past)
                  ∧ Sound config after.1 (past ++ stamps notes)
              have hstays : Sound config f.shared (past ++ []) := by
                rw [List.append_nil]
                exact h
              simp only [resume, h.accepted]
              cases c.check f.shared.mem with
              | error e =>
                  exact ⟨by simp [Note.Lawful], by simp [stamps, Note.stamp?],
                    by simp [stamps, Note.stamp?], hstays⟩
              | ok l =>
                  exact ⟨by simp, by simp [stamps], by simp [stamps], hstays⟩

-- ====== runs

/-- In every run whose look-ups are answered where their calls are steady,
each change is the one its call was made for, no revision of a credential
is used twice, no binding has two credentials, and the file is one the
registry loads as it is. -/
theorem credentials_change_as_expected {config : Config}
    (hc : config.crypto.cipher.Streams)
    {stored credentials : List Credential}
    (hstored : init config stored = .ok credentials)
    {events : List (Flight.Event Call Env World)}
    (hsteady : (protocol config).machine.Allowed
      (fun f e => steady config f e = true)
      (Flight.fresh (Panel.started config 0 stored)) events) :
    let start := Flight.fresh (Panel.started config 0 stored)
    let notes := ((protocol config).machine.answers start events).flatten
    let s := ((protocol config).machine.run start events).shared
    (∀ note ∈ notes, note.2.Lawful) ∧ (stamps notes).Nodup
      ∧ (s.mem.credentials.map Credential.databaseBindingId).Nodup
      ∧ init config s.store.file.credentials
          = .ok s.store.file.credentials := by
  intro start notes s
  have hstart : Sound config start.shared [] := sound_started hstored 0
  have hlawful : ∀ answer ∈ (protocol config).machine.answers start events,
      ∀ note ∈ answer, note.2.Lawful := by
    refine Machine.forall_mem_answers_of_allowed
      (P := fun f => ∃ past, Sound config f.shared past)
      (Q := fun answer => ∀ note ∈ answer, note.2.Lawful)
      (fun f e hok hf => ?_) hsteady ⟨[], hstart⟩
    obtain ⟨past, hpast⟩ := hf
    obtain ⟨hlawful, -, -, hnext⟩ := sound_next hc hok hpast
    exact ⟨hlawful, _, hnext⟩
  have hnodup := (Machine.nodup_keys_of_allowed stamps
    (P := fun f past => Sound config f.shared past)
    (fun f e past hok hf => (sound_next hc hok hf).2) hsteady hstart).1
  obtain ⟨past, hend⟩ : ∃ past, Sound config s past := by
    refine Machine.invariant_of_allowed
      (P := fun f => ∃ past, Sound config f.shared past)
      (fun f e hok hf => ?_) hsteady ⟨[], hstart⟩
    obtain ⟨past, hpast⟩ := hf
    exact ⟨_, (sound_next hc hok hpast).2.2.2⟩
  refine ⟨fun note hnote => ?_, ?_, hend.store.mem.bindings,
    loadable_iff.mp hend.store.file⟩
  · obtain ⟨answer, hanswer, hin⟩ := List.mem_flatten.mp hnote
    exact hlawful answer hanswer note hin
  · show (List.filterMap _ (List.flatten _)).Nodup
    rw [List.filterMap_flatten]
    exact hnodup

-- ====== samples

/-- A text of ASCII characters in one byte for each, any other behind a
byte that none of these is. -/
def streamBytes (cs : List Char) : Bytes :=
  if cs.all fun c => c.toNat < 128 then cs.map fun c => UInt8.ofNat c.toNat
  else 255 :: sampleBytes cs

def streamChars : Bytes → Option (List Char)
  | [] => some []
  | b :: bs =>
      if b = 255 then
        (sampleChars bs).filter fun cs => !cs.all fun c => c.toNat < 128
      else if (b :: bs).all fun b => b.toNat < 128 then
        some ((b :: bs).map fun b => Char.ofNat b.toNat)
      else none

def streamSize (cs : List Char) : Nat :=
  if cs.all fun c => c.toNat < 128 then cs.length else 4 * cs.length + 1

theorem streamChars_ascii (h : ∀ b ∈ bs, b.toNat < 128) :
    streamChars bs = some (bs.map fun b => Char.ofNat b.toNat) := by
  cases bs with
  | nil => rfl
  | cons b bs =>
      have hb : b ≠ 255 := by
        rintro rfl
        exact absurd (h 255 List.mem_cons_self) (by decide)
      have hall : ((b :: bs).all fun b => decide (b.toNat < 128)) = true := by
        simpa [List.all_eq_true] using h
      rw [streamChars, if_neg hb, if_pos hall]

theorem streamChars_streamBytes (cs : List Char) :
    streamChars (streamBytes cs) = some cs := by
  unfold streamBytes
  by_cases hascii : (cs.all fun c => decide (c.toNat < 128)) = true
  · rw [if_pos hascii]
    have hlt : ∀ c ∈ cs, (UInt8.ofNat c.toNat).toNat = c.toNat := by
      intro c hc
      have h128 : c.toNat < 128 := by
        simpa using List.all_eq_true.mp hascii c hc
      rw [UInt8.toNat_ofNat']
      omega
    rw [streamChars_ascii, List.map_map]
    · congr 1
      refine (List.map_congr_left fun c hc => ?_).trans (List.map_id cs)
      show Char.ofNat (UInt8.ofNat c.toNat).toNat = c
      rw [hlt c hc, Char.ofNat_toNat]
    · intro b hb
      obtain ⟨c, hc, rfl⟩ := List.mem_map.mp hb
      rw [hlt c hc]
      simpa using List.all_eq_true.mp hascii c hc
  · rw [if_neg hascii, streamChars, if_pos rfl, sampleChars_sampleBytes]
    rw [Option.filter_some, if_pos (by simpa using hascii)]

theorem length_streamBytes (cs : List Char) :
    (streamBytes cs).length = streamSize cs := by
  unfold streamBytes streamSize
  split
  · exact List.length_map _
  · rw [List.length_cons, length_sampleBytes]

theorem toNat_ofNat_ascii : ∀ n < 128, (Char.ofNat n).toNat = n := by
  decide

theorem length_of_streamChars {cs : List Char}
    (h : streamChars bs = some cs) : bs.length = streamSize cs := by
  cases bs with
  | nil =>
      obtain rfl := Option.some.inj h
      rfl
  | cons b bs =>
      unfold streamSize
      by_cases hb : b = 255
      · rw [streamChars, if_pos hb] at h
        obtain ⟨hsample, hascii⟩ := Option.filter_eq_some_iff.mp h
        rw [if_neg (by simpa using hascii), List.length_cons,
          length_of_sampleChars hsample]
      · rw [streamChars, if_neg hb] at h
        by_cases hall : ((b :: bs).all fun b => decide (b.toNat < 128)) = true
        · rw [if_pos hall] at h
          have hlt : ∀ c ∈ cs, c.toNat < 128 := by
            intro c hc
            rw [← Option.some.inj h] at hc
            obtain ⟨b', hb', rfl⟩ := List.mem_map.mp hc
            have hb128 : b'.toNat < 128 := by
              simpa using List.all_eq_true.mp hall b' hb'
            rw [toNat_ofNat_ascii _ hb128]
            exact hb128
          rw [if_pos (by simpa [List.all_eq_true] using hlt),
            ← Option.some.inj h, List.length_map]
        · rw [if_neg hall] at h
          cases h

/-- A stream cipher that only names the key a text is sealed with. -/
def streamCipher : Aead Key where
  encrypt key iv _ text :=
    ⟨iv, key.bytes.take 16, streamBytes text.toList⟩
  decrypt key _ e :=
    if e.tag = key.bytes.take 16 then
      (streamChars e.ciphertext).map String.ofList
    else none
  size text := streamSize text.toList
  decrypt_encrypt key iv aad text := by
    show (if _ then _ else _) = _
    rw [if_pos rfl, streamChars_streamBytes]
    simp
  encrypt_iv _ _ _ _ := rfl
  encrypt_tag key _ _ _ := by
    show (key.bytes.take 16).length = 16
    rw [List.length_take, key.sized]
    rfl
  encrypt_size _ _ _ text := length_streamBytes text.toList
  decrypt_size key aad e text h := by
    split at h
    · obtain ⟨cs, hcs, rfl⟩ := Option.map_eq_some_iff.mp h
      rw [String.toList_ofList]
      exact length_of_streamChars hcs
    · cases h

theorem streams_streamCipher : streamCipher.Streams := by
  intro text hascii
  show streamSize text.toList = text.toList.length
  unfold streamSize
  rw [if_pos (by simpa [List.all_eq_true] using hascii)]

-- ====== sample

def sampleServerId : Uuid := ⟨"22345678-1234-4234-8234-123456789012", Eq.refl true⟩

def sampleBinding : Binding where
  id := ⟨"12345678-1234-4234-8234-123456789012", Eq.refl true⟩
  serverId := sampleServerId
  databaseName := ⟨"app_main", Eq.refl true⟩
  websiteId := ⟨"32345678-1234-4234-8234-123456789012", Eq.refl true⟩
  applicationId := ⟨"42345678-1234-4234-8234-123456789012", Eq.refl true⟩
  unixUser := ⟨"yunapp-abcdef123456", Eq.refl true⟩
  revision := 1
  createdAt := ⟨1789264800000⟩
  updatedAt := ⟨1789264800000⟩

def neighbourBinding : Binding :=
  { sampleBinding with
    id := ⟨"52345678-1234-4234-8234-123456789012", Eq.refl true⟩
    databaseName := ⟨"app_shop", Eq.refl true⟩ }

/-- The digests of the two bindings' ids. -/
def sampleDigest (text : String) : Sha256 :=
  if text = sampleBinding.id.text then
    ⟨"d9f59d29173c219f47c718e5b8988d5fd5f68f24d8532e9ee194a4ef03c2cb08",
      by decide⟩
  else
    ⟨"2f4df8b9a5d8ace90f9b3f2336e30e691b7f8109804c8c4eb924ee19aca27066",
      by decide⟩

def sampleConfig : Config where
  crypto := ⟨streamCipher, id⟩
  key := some ⟨List.replicate 32 7, by decide⟩
  sha256 := sampleDigest
  bindings := [sampleBinding, neighbourBinding]

def sampleCredentialId : Uuid :=
  ⟨"62345678-1234-4234-8234-123456789012", Eq.refl true⟩

def neighbourCredentialId : Uuid :=
  ⟨"72345678-1234-4234-8234-123456789012", by decide⟩

/-- What a segment finds around it that draws this id. -/
def sampleEnv (randomUUID : Uuid) : Env where
  unavailable := false
  now := ⟨1789266600000⟩
  randomUUID
  nonce := ⟨List.replicate 12 1, by decide⟩
  generatePassword := "AQEBAQEBAQEBAQEBAQEBAQEBAQEBAQEBAQEBAQEBAQE"

/-- The two bindings get a credential each. -/
def twoCreated : List (Flight.Event Call Env World) :=
  [.start (.createCredential sampleBinding.id.json none
      (.str ("create-database-credential:12345678-1234-4234-8234-123456789012"
        ++ ":ydb_d9f59d29173c219f47c718e5"))),
    .start (.createCredential neighbourBinding.id.json none
      (.str ("create-database-credential:52345678-1234-4234-8234-123456789012"
        ++ ":ydb_2f4df8b9a5d8ace90f9b3f22"))),
    .answer 0 (sampleEnv sampleCredentialId),
    .answer 1 (sampleEnv neighbourCredentialId),
    .answer 0 (sampleEnv sampleCredentialId),
    .answer 1 (sampleEnv neighbourCredentialId),
    .world (.settle true), .world (.settle true)]

/-- The first of them is deleted, at the revision it was created with. -/
def deleteSample : Call :=
  .deleteCredential sampleCredentialId.json (.num 1)
    (.str ("delete-database-credential:"
      ++ "62345678-1234-4234-8234-123456789012:1"))

/-- The two creations, and one deletion. -/
def sampleEvents : List (Flight.Event Call Env World) :=
  twoCreated ++ [.start deleteSample,
    .answer 2 (sampleEnv sampleCredentialId),
    .answer 2 (sampleEnv sampleCredentialId), .world (.settle true)]

/-- The same with the deletion asked for twice: both calls find the
credential before either takes it out. -/
def overlappingDeletions : List (Flight.Event Call Env World) :=
  twoCreated ++ [.start deleteSample, .start deleteSample,
    .answer 2 (sampleEnv sampleCredentialId),
    .answer 3 (sampleEnv sampleCredentialId),
    .answer 2 (sampleEnv sampleCredentialId),
    .answer 3 (sampleEnv sampleCredentialId),
    .world (.settle true), .world (.settle true)]

theorem credentials_change_as_expected_sample :
    let start := Flight.fresh (Panel.started sampleConfig 0 [])
    let notes :=
      ((protocol sampleConfig).machine.answers start sampleEvents).flatten
    let s := ((protocol sampleConfig).machine.run start sampleEvents).shared
    (∀ note ∈ notes, note.2.Lawful) ∧ (stamps notes).Nodup
      ∧ (s.mem.credentials.map Credential.databaseBindingId).Nodup
      ∧ init sampleConfig s.store.file.credentials
          = .ok s.store.file.credentials :=
  credentials_change_as_expected streams_streamCipher rfl
    (by decide +kernel)

/-- Two deletions of one credential that overlap both change the list, and
the second takes out the credential of another binding. -/
theorem overlapping_deletions_take_neighbour :
    ∃ note ∈ ((protocol sampleConfig).machine.answers
        (Flight.fresh (Panel.started sampleConfig 0 []))
        overlappingDeletions).flatten,
      ¬note.2.Lawful := by
  decide +kernel

example : isDatabaseName "" = false := by decide +kernel

end Yunpanel.Databases
