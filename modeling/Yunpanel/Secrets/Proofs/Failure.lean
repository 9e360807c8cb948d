/-
What a rotation leaves behind where it throws.

The tried part ends in a state that says which files were replaced and
whether the transaction was committed (`Halted`); the two are read off the
calls that failed (`replaces`, `commits`). What catches the error restores
each replaced file whose restoring does not fail, and marks the manifest
where one is left. It does nothing about a committed transaction.
-/
import Yunpanel.Secrets.Proofs.Staging

namespace Yunpanel.Secrets

open Lib Exec

namespace Rotation

variable {c : Rotation} {w₀ w : World} {p : Prepared}

-- ====== halted

/-- Where the tried part threw: `a` is what a commit leaves in the
database, `n` what the files are replaced by. -/
structure Halted (c : Rotation) (w₀ : World) (a : AuthDb)
    (n : (f : StoreFile) → Option (Content f.Store)) (w : World) :
    Prop where
  auth : w.auth = if c.commits w₀ then a else w₀.auth
  file : ∀ f, w.file f = if c.replaces w₀ f then n f else w₀.file f
  others : w.others = w₀.others
  replaced : ∀ f, w.replaced f = c.replaces w₀ f
  backup : ∀ f, c.replaces w₀ f = true → w.backupFile f = w₀.file f
  quiet : ∀ m, w.backupManifest = some m → m.status ≠ .rollbackRequired
  calm : w.manifest.status ≠ .rollbackRequired

theorem replaces_of_not_reaches (h : c.reaches w₀ = false)
    (f : StoreFile) : c.replaces w₀ f = false := by
  unfold replaces
  rw [h]
  rfl

theorem commits_of_not_reaches (h : c.reaches w₀ = false) :
    c.commits w₀ = false := by
  unfold commits
  rw [h]
  rfl

variable {e : Failure} {done rest : List StoreFile} {a : AuthDb}

/-- A call that throws early has replaced and committed nothing. -/
theorem Early.halted (h : Early c w₀ e w) (a : AuthDb)
    (n : (f : StoreFile) → Option (Content f.Store)) :
    Halted c w₀ a n w := by
  obtain ⟨hu, hreaches⟩ := h
  have hreplaces := replaces_of_not_reaches hreaches
  exact
    { auth := by rw [hu.auth, commits_of_not_reaches hreaches]; rfl
      file := fun f => by rw [hu.file f, hreplaces f]; rfl
      others := hu.others
      replaced := fun f => by rw [hu.replaced f, hreplaces f]
      backup := fun f hf => by rw [hreplaces f] at hf; cases hf
      quiet := hu.quiet
      calm := hu.calm }

-- ====== writes

/-- These files have been replaced, where there are such files. -/
structure Replacing (c : Rotation) (w₀ : World) (p : Prepared)
    (fs : List StoreFile) (w : World) : Prop where
  auth : w.auth = w₀.auth
  transaction : w.transaction = some (c.nextAuth w₀ p)
  file : ∀ f, w.file f
    = if f ∈ fs ∧ c.present w₀ f = true then p.next f else w₀.file f
  others : w.others = w₀.others
  replaced : ∀ f, w.replaced f = (decide (f ∈ fs) && c.present w₀ f)
  backup : ∀ f, c.present w₀ f = true → w.backupFile f = w₀.file f
  quiet : ∀ m, w.backupManifest = some m → m.status ≠ .rollbackRequired
  calm : w.manifest.status ≠ .rollbackRequired
  written : ∀ f ∈ fs, c.present w₀ f = true → c.fails (.write f) = none

variable {f : StoreFile}

/-- Where a loop over the files stands. -/
theorem split_all (h : done ++ f :: rest = StoreFile.all) :
    (done = [] ∧ f = .environment)
      ∨ (done = [.environment] ∧ f = .dnsProvider)
      ∨ (done = [.environment, .dnsProvider] ∧ f = .mailbox) := by
  unfold StoreFile.all at h
  rcases done with _ | ⟨a, _ | ⟨b, _ | ⟨d, done⟩⟩⟩
  · simp only [List.nil_append, List.cons.injEq] at h
    exact .inl ⟨rfl, h.1⟩
  · simp only [List.cons_append, List.nil_append, List.cons.injEq] at h
    exact .inr (.inl ⟨by rw [h.1], h.2.1⟩)
  · simp only [List.cons_append, List.nil_append, List.cons.injEq] at h
    exact .inr (.inr ⟨by rw [h.1, h.2.1], h.2.2.1⟩)
  · have hlen := congrArg List.length h
    simp at hlen

/-- A file is replaced where every file up to it that there is could be
written. -/
theorem replaces_eq_true (h : c.reaches w₀ = true) :
    c.replaces w₀ f = true ↔ c.present w₀ f = true
      ∧ ∀ g ∈ f.upTo, c.present w₀ g = true → c.fails (.write g) = none := by
  unfold replaces
  rw [h, Bool.true_and, Bool.and_eq_true, clear_map]
  simp only [List.mem_filter, and_imp]

theorem commits_eq_true (h : c.reaches w₀ = true) :
    c.commits w₀ = true ↔
      (∀ f, c.present w₀ f = true → c.fails (.write f) = none)
        ∧ c.fails .commit = none := by
  unfold commits
  rw [h, Bool.true_and, Bool.and_eq_true, clear_map]
  simp only [mem_presentFiles, Option.isNone_iff_eq_none]

/-- Which files are replaced where the writing of one fails. -/
theorem replaces_of_failed {code : String} (h : c.reaches w₀ = true)
    (hsplit : done ++ f :: rest = StoreFile.all)
    (hwritten : ∀ g ∈ done, c.present w₀ g = true →
      c.fails (.write g) = none) (hpresent : c.present w₀ f = true)
    (hfails : c.fails (.write f) = some code) (g : StoreFile) :
    c.replaces w₀ g = (decide (g ∈ done) && c.present w₀ g) := by
  rw [Bool.eq_iff_iff, replaces_eq_true h, Bool.and_eq_true,
    decide_eq_true_eq]
  have hstuck : f ∈ g.upTo → ¬∀ g' ∈ g.upTo, c.present w₀ g' = true →
      c.fails (.write g') = none := by
    intro hf hall
    rw [hall f hf hpresent] at hfails
    cases hfails
  have hdone : (∀ g' ∈ g.upTo, g' ∈ done) → ∀ g' ∈ g.upTo,
      c.present w₀ g' = true → c.fails (.write g') = none :=
    fun hsub g' hg' => hwritten g' (hsub g' hg')
  have hcases : (g ∈ done ∧ ∀ g' ∈ g.upTo, g' ∈ done)
      ∨ (g ∉ done ∧ f ∈ g.upTo) := by
    rcases split_all hsplit with ⟨rfl, rfl⟩ | ⟨rfl, rfl⟩ | ⟨rfl, rfl⟩
    · cases g <;> decide
    · cases g <;> decide
    · cases g <;> decide
  rcases hcases with ⟨hmem, hsub⟩ | ⟨hnot, hf⟩
  · exact ⟨fun h => ⟨hmem, h.1⟩, fun h => ⟨h.2, hdone hsub⟩⟩
  · exact ⟨fun h => absurd h.2 (hstuck hf), fun h => absurd h.1 hnot⟩

/-- A file is written, or the rotation halts at it. -/
theorem meets_replaceFile (hprepared : c.prepared w₀ = .ok p)
    (hreaches : c.reaches w₀ = true)
    (hsplit : done ++ f :: rest = StoreFile.all)
    (h : Replacing c w₀ p done w) :
    Meets (c.replaceFile p f) w
      (fun _ t => Replacing c w₀ p (done ++ [f]) t)
      (fun _ t => Halted c w₀ (c.nextAuth w₀ p) p.next t) := by
  have hsome := isSome_next hprepared f
  have hmem : ∀ g, g ∈ done ++ [f] ↔ g ∈ done ∨ g = f := fun g => by simp
  unfold replaceFile
  cases hnext : p.next f with
  | none =>
      rw [hnext] at hsome
      have habsent : c.present w₀ f = false := hsome.symm
      have hsame : ∀ g, (g ∈ done ++ [f] ∧ c.present w₀ g = true)
          ↔ (g ∈ done ∧ c.present w₀ g = true) := by
        intro g
        rw [hmem]
        constructor
        · rintro ⟨hg | rfl, hp⟩
          · exact ⟨hg, hp⟩
          · rw [habsent] at hp
            cases hp
        · exact fun hg => ⟨.inl hg.1, hg.2⟩
      refine meets_pure
        { h with
          file := fun g => by rw [h.file g]; simp only [hsame]
          replaced := fun g => ?_
          written := fun g hg hp => h.written g ((hsame g).mp ⟨hg, hp⟩).1 hp }
      rw [h.replaced g, Bool.eq_iff_iff, Bool.and_eq_true,
        Bool.and_eq_true, decide_eq_true_eq, decide_eq_true_eq]
      exact (hsame g).symm
  | some content =>
      rw [hnext] at hsome
      have hpresent : c.present w₀ f = true := hsome.symm
      refine meets_io_bind (fun hwrite => meets_modify ?_) fun code hcode => ?_
      · exact
          { auth := h.auth
            transaction := h.transaction
            file := fun g => by
              show Function.update w.file f (some content) g = _
              by_cases hgf : g = f
              · subst hgf
                rw [Function.update_self, hnext]
                simp [hpresent]
              · rw [Function.update_of_ne hgf, h.file g]
                simp [hmem, hgf]
            others := h.others
            replaced := fun g => by
              show Function.update w.replaced f true g = _
              by_cases hgf : g = f
              · subst hgf
                rw [Function.update_self]
                simp [hpresent]
              · rw [Function.update_of_ne hgf, h.replaced g]
                simp [hgf]
            backup := h.backup
            quiet := h.quiet
            calm := h.calm
            written := fun g hg hp => by
              rcases (hmem g).mp hg with hg | rfl
              · exact h.written g hg hp
              · exact hwrite }
      · have hreplaces : ∀ g, c.replaces w₀ g
            = (decide (g ∈ done) && c.present w₀ g) := fun g =>
          replaces_of_failed hreaches hsplit h.written hpresent hcode g
        have hcommits : c.commits w₀ = false := by
          rw [← Bool.not_eq_true, commits_eq_true hreaches]
          intro hall
          rw [hall.1 f hpresent] at hcode
          cases hcode
        exact
          { auth := by rw [h.auth, hcommits]; rfl
            file := fun g => by
              rw [h.file g, hreplaces g]
              simp only [Bool.and_eq_true, decide_eq_true_eq]
            others := h.others
            replaced := fun g => by rw [h.replaced g, hreplaces g]
            backup := fun g hg => by
              rw [hreplaces g, Bool.and_eq_true] at hg
              exact h.backup g hg.2
            quiet := h.quiet
            calm := h.calm }

/-- The transaction commits, or the rotation halts in it. -/
theorem meets_apply (hstarted : Started c) (h : Passed c w₀ p w) :
    Meets (c.apply p) w
      (fun _ t => Halted c w₀ (c.nextAuth w₀ p) p.next t
        ∧ c.commits w₀ = true)
      (fun _ t => Halted c w₀ (c.nextAuth w₀ p) p.next t) := by
  refine ((meets_stage hstarted h).mono (fun _ t ht => ht)
    fun e t he => he.halted _ _).bind fun _ t ht => ?_
  have hu := ht.ready.untouched
  have hall : ∀ f, f ∈ StoreFile.all := fun f => by cases f <;> decide
  refine (meets_forEach (P := fun fs t => Replacing c w₀ p fs t) ?_
    fun done f rest t hsplit hdone => meets_replaceFile h.prepared
      ht.reaches hsplit hdone).bind fun _ t hwritten => ?_
  · exact
      { auth := hu.auth
        transaction := ht.transaction
        file := fun f => by rw [hu.file f]; simp
        others := hu.others
        replaced := fun f => by rw [hu.replaced f]; simp
        backup := fun f hf => (ht.ready.backed f (hall f) hf).1
        quiet := hu.quiet
        calm := hu.calm
        written := fun f hf => by cases hf }
  have hreplaces : ∀ f, c.replaces w₀ f = c.present w₀ f := by
    intro f
    rw [Bool.eq_iff_iff, replaces_eq_true ht.reaches]
    exact ⟨fun hf => hf.1,
      fun hf => ⟨hf, fun g _ => hwritten.written g (hall g)⟩⟩
  have hfile : ∀ f, t.file f
      = if c.replaces w₀ f then p.next f else w₀.file f := by
    intro f
    rw [hwritten.file f, hreplaces f]
    simp [hall]
  have hreplaced : ∀ f, t.replaced f = c.replaces w₀ f := by
    intro f
    rw [hwritten.replaced f, hreplaces f]
    simp [hall]
  have hbackup : ∀ f, c.replaces w₀ f = true →
      t.backupFile f = w₀.file f := by
    intro f hf
    rw [hreplaces f] at hf
    exact hwritten.backup f hf
  refine meets_io_bind (fun hcommit => meets_modify ?_) fun code hcode => ?_
  · have hcommits : c.commits w₀ = true := (commits_eq_true ht.reaches).mpr
      ⟨fun f => hwritten.written f (hall f), hcommit⟩
    refine ⟨⟨?_, hfile, hwritten.others, hreplaced, hbackup,
      hwritten.quiet, hwritten.calm⟩, hcommits⟩
    show t.transaction.getD t.auth = _
    rw [hwritten.transaction, hcommits]
    rfl
  · have hcommits : c.commits w₀ = false := by
      rw [← Bool.not_eq_true, commits_eq_true ht.reaches]
      intro hboth
      rw [hboth.2] at hcode
      cases hcode
    refine ⟨?_, hfile, hwritten.others, hreplaced, hbackup,
      hwritten.quiet, hwritten.calm⟩
    rw [hwritten.auth, hcommits]
    rfl

/-- What a rotation that returns leaves behind. -/
structure Rotated (c : Rotation) (w₀ w : World) : Prop where
  exists_prepared : ∃ p, c.prepared w₀ = .ok p
    ∧ w.auth = c.nextAuth w₀ p
    ∧ ∀ f, w.file f = if c.present w₀ f then p.next f else w₀.file f
  others : w.others = w₀.others

theorem reaches_of_commits (h : c.commits w₀ = true) :
    c.reaches w₀ = true := by
  unfold commits at h
  rw [Bool.and_eq_true, Bool.and_eq_true] at h
  exact h.1.1

/-- A transaction is committed where every file there is was replaced. -/
theorem replaces_of_commits (h : c.commits w₀ = true) (f : StoreFile) :
    c.replaces w₀ f = c.present w₀ f := by
  have hreaches := reaches_of_commits h
  have hwritten := ((commits_eq_true hreaches).mp h).1
  rw [Bool.eq_iff_iff, replaces_eq_true hreaches]
  exact ⟨fun hf => hf.1, fun hf => ⟨hf, fun g _ => hwritten g⟩⟩

theorem Halted.rotated (h : Halted c w₀ (c.nextAuth w₀ p) p.next w)
    (hprepared : c.prepared w₀ = .ok p) (hcommits : c.commits w₀ = true) :
    Rotated c w₀ w := by
  refine ⟨⟨p, hprepared, ?_, fun f => ?_⟩, h.others⟩
  · rw [h.auth, if_pos hcommits]
  · rw [h.file f, replaces_of_commits hcommits f]

/-- The tried part throws where it halted, and nowhere else. -/
theorem meets_body {current next : Key} (hstarted : Started c)
    (hkeys : c.keys = .ok (current, next)) (h : Untouched w₀ w) :
    Meets (c.body current next) w (fun _ t => Rotated c w₀ t)
      (fun _ t => ∃ a n, Halted c w₀ a n t
        ∧ ∀ p, c.prepared w₀ = .ok p → a = c.nextAuth w₀ p ∧ n = p.next) := by
  refine ((meets_preflight hkeys h).mono (fun _ _ ht => ht)
    fun e t he => ?_).bind fun p t ht => ?_
  · cases hprepared : c.prepared w₀ with
    | error e' =>
        exact ⟨w₀.auth, w₀.file, he.halted _ _, fun p hp => by cases hp⟩
    | ok p =>
        refine ⟨_, _, he.halted (c.nextAuth w₀ p) p.next, fun p' hp' => ?_⟩
        obtain rfl := Except.ok.inj hp'
        exact ⟨rfl, rfl⟩
  have hsame : ∀ p', c.prepared w₀ = .ok p' →
      c.nextAuth w₀ p = c.nextAuth w₀ p' ∧ p.next = p'.next := by
    intro p' hp'
    obtain rfl := Except.ok.inj (ht.prepared.symm.trans hp')
    exact ⟨rfl, rfl⟩
  refine ((meets_apply hstarted ht).mono (fun _ _ hu => hu)
    fun e u hu => ⟨_, _, hu, hsame⟩).bind fun _ u ⟨hu, hcommits⟩ => ?_
  have happlied : Halted c w₀ (c.nextAuth w₀ p) p.next
      { u with manifest := { u.manifest with
        status := .applied
        appliedAt := some c.finishedAt } } :=
    { hu with calm := fun hs => by cases hs }
  refine meets_modify_bind ((meets_writeManifest fun code _ => ?_).mono
    ?_ fun _ _ he => he)
  · exact ⟨_, _, happlied, hsame⟩
  · rintro - v ⟨rfl, -⟩
    obtain ⟨hprepared, hothers⟩ :=
      happlied.rotated ht.prepared hcommits
    exact ⟨hprepared, hothers⟩

-- ====== recovery

/-- A replaced file that could not be restored. -/
def stuck (c : Rotation) (w₀ : World) (f : StoreFile) : Bool :=
  c.replaces w₀ f && (c.fails (.restore f)).isSome

/-- These files have been restored, where that did not fail. -/
structure Restoring (c : Rotation) (w₀ : World) (a : AuthDb)
    (n : (f : StoreFile) → Option (Content f.Store)) (fs : List StoreFile)
    (w : World) : Prop where
  auth : w.auth = if c.commits w₀ then a else w₀.auth
  file : ∀ f, w.file f
    = if (if f ∈ fs then c.stuck w₀ f else c.replaces w₀ f) = true
      then n f else w₀.file f
  others : w.others = w₀.others
  replaced : ∀ f, w.replaced f
    = if f ∈ fs then c.stuck w₀ f else c.replaces w₀ f
  backup : ∀ f, c.replaces w₀ f = true → w.backupFile f = w₀.file f
  quiet : ∀ m, w.backupManifest = some m → m.status ≠ .rollbackRequired

theorem meets_restoreFile {n : (f : StoreFile) → Option (Content f.Store)}
    {fs : List StoreFile} (hf : f ∉ fs) (h : Restoring c w₀ a n fs w)
    {E : Failure → World → Prop} :
    Meets (c.restoreFile f) w
      (fun _ t => Restoring c w₀ a n (fs ++ [f]) t) E := by
  have hmem : ∀ g, g ∈ fs ++ [f] ↔ g ∈ fs ∨ g = f := fun g => by simp
  have hreplaced := h.replaced f
  rw [if_neg hf] at hreplaced
  refine meets_read_bind ?_
  rw [hreplaced]
  -- what holds of every other file is what held of it
  have hother : ∀ g, g ≠ f →
      (if g ∈ fs ++ [f] then c.stuck w₀ g else c.replaces w₀ g)
        = if g ∈ fs then c.stuck w₀ g else c.replaces w₀ g := by
    intro g hgf
    simp [hgf]
  have hself : (if f ∈ fs ++ [f] then c.stuck w₀ f else c.replaces w₀ f)
      = c.stuck w₀ f := by simp
  have hsame : c.stuck w₀ f = c.replaces w₀ f →
      Restoring c w₀ a n (fs ++ [f]) w := by
    intro hstuck
    have hall : ∀ g,
        (if g ∈ fs ++ [f] then c.stuck w₀ g else c.replaces w₀ g)
          = if g ∈ fs then c.stuck w₀ g else c.replaces w₀ g := by
      intro g
      by_cases hgf : g = f
      · subst hgf
        rw [hself, if_neg hf, hstuck]
      · exact hother g hgf
    exact
      { h with
        file := fun g => by rw [h.file g, hall g]
        replaced := fun g => by rw [h.replaced g, hall g] }
  refine meets_onlyIf (fun hreplaces => ?_) fun hnot => hsame ?_
  · refine Meets.attempt (R := fun _ t => t = w
        ∧ (c.fails (.restore f)).isSome = true) ?_ ?_
    · refine meets_io_bind (fun hrestore => meets_modify ?_)
        fun code hcode => ⟨rfl, by rw [hcode]; rfl⟩
      have hstuck : c.stuck w₀ f = false := by
        unfold stuck
        rw [hrestore]
        simp
      refine { h with file := fun g => ?_, replaced := fun g => ?_ }
      · show Function.update w.file f (w.backupFile f) g = _
        by_cases hgf : g = f
        · subst hgf
          rw [Function.update_self, hself, hstuck, h.backup g hreplaces]
          rfl
        · rw [Function.update_of_ne hgf, h.file g, hother g hgf]
      · show Function.update w.replaced f false g = _
        by_cases hgf : g = f
        · subst hgf
          rw [Function.update_self, hself, hstuck]
        · rw [Function.update_of_ne hgf, h.replaced g, hother g hgf]
    · rintro e t ⟨rfl, hfails⟩
      refine meets_pure (hsame ?_)
      unfold stuck
      rw [hfails, Bool.and_true]
  · unfold stuck
    rw [hnot, Bool.false_and]

/-- What a rotation that was tried and threw leaves behind. -/
structure Recovered (c : Rotation) (w₀ : World) (a : AuthDb)
    (n : (f : StoreFile) → Option (Content f.Store)) (w : World) :
    Prop where
  auth : w.auth = if c.commits w₀ then a else w₀.auth
  file : ∀ f, w.file f = if c.stuck w₀ f then n f else w₀.file f
  others : w.others = w₀.others
  marked : (∃ m, w.backupManifest = some m ∧ m.status = .rollbackRequired)
    ↔ (∃ f, c.stuck w₀ f = true) ∧ c.fails .writeFailed = none

theorem meets_recover {n : (f : StoreFile) → Option (Content f.Store)}
    (h : Halted c w₀ a n w) :
    Meets (c.recover e) w (fun _ _ => False)
      (fun _ t => Recovered c w₀ a n t) := by
  have hall : ∀ f, f ∈ StoreFile.all := fun f => by cases f <;> decide
  have hnodup : StoreFile.all.Nodup := by decide
  refine meets_modify_bind ?_
  refine (meets_forEach (P := fun fs t => Restoring c w₀ a n fs t) ?_
    fun done f rest t hsplit hdone => meets_restoreFile ?_ hdone).bind
      fun _ t ht => ?_
  · exact
      { auth := h.auth
        file := fun f => by rw [h.file f]; simp
        others := h.others
        replaced := fun f => by rw [h.replaced f]; simp
        backup := h.backup
        quiet := h.quiet }
  · intro hf
    rw [← hsplit, List.nodup_append] at hnodup
    exact hnodup.2.2 f hf f (List.mem_cons_self ..) rfl
  have hfile : ∀ f, t.file f
      = if c.stuck w₀ f then n f else w₀.file f := by
    intro f
    rw [ht.file f, if_pos (hall f)]
  have hleft : StoreFile.all.any t.replaced = true
      ↔ ∃ f, c.stuck w₀ f = true := by
    rw [List.any_eq_true]
    constructor
    · rintro ⟨f, hf, hreplaced⟩
      rw [ht.replaced f, if_pos hf] at hreplaced
      exact ⟨f, hreplaced⟩
    · rintro ⟨f, hstuck⟩
      refine ⟨f, hall f, ?_⟩
      rw [ht.replaced f, if_pos (hall f), hstuck]
  refine meets_read_bind (meets_modify_bind ?_)
  refine Meets.bind (R := fun _ u => Recovered c w₀ a n u) ?_
    fun _ u hu => meets_fail hu
  refine Meets.attempt (R := fun _ u => Recovered c w₀ a n u) ?_
    fun _ u hu => meets_pure hu
  refine (meets_writeManifest fun code hcode => ?_).mono ?_ fun _ _ hu => hu
  · refine ⟨ht.auth, hfile, ht.others, ?_⟩
    constructor
    · rintro ⟨m, hm, hstatus⟩
      exact absurd hstatus (ht.quiet m hm)
    · rintro ⟨-, hnone⟩
      rw [hnone] at hcode
      cases hcode
  · rintro - u ⟨rfl, hwrite⟩
    refine ⟨ht.auth, hfile, ht.others, ?_⟩
    rw [← hleft]
    constructor
    · rintro ⟨m, hm, hstatus⟩
      obtain rfl := Option.some.inj hm
      refine ⟨?_, hwrite⟩
      by_contra hnone
      simp [hnone] at hstatus
    · rintro ⟨hany, -⟩
      refine ⟨_, rfl, ?_⟩
      simp [hany]

/-- Nothing was replaced and nothing is left over. -/
theorem Early.recovered (h : Early c w₀ e w) (a : AuthDb)
    (n : (f : StoreFile) → Option (Content f.Store)) :
    Recovered c w₀ a n w := by
  have hhalted := h.halted a n
  have hstuck : ∀ f, c.stuck w₀ f = false := fun f => by
    unfold stuck
    rw [replaces_of_not_reaches h.2 f, Bool.false_and]
  refine ⟨hhalted.auth, fun f => ?_, hhalted.others, ?_⟩
  · rw [h.1.file f, hstuck f]
    rfl
  · constructor
    · rintro ⟨m, hm, hstatus⟩
      exact absurd hstatus (hhalted.quiet m hm)
    · rintro ⟨⟨f, hf⟩, -⟩
      rw [hstuck f] at hf
      cases hf

/-- What a rotation leaves behind where it returns, and where it throws,
whatever made it throw. -/
theorem meets_rotateSecretMasterKey (h : Untouched w₀ w₀) :
    Meets c.rotateSecretMasterKey w₀ (fun _ t => Rotated c w₀ t)
      (fun _ t => ∃ a n, Recovered c w₀ a n t
        ∧ ∀ p, c.prepared w₀ = .ok p → a = c.nextAuth w₀ p ∧ n = p.next) := by
  -- where nothing is tried yet
  have hearly : ∀ (e : Failure) (t : World), Early c w₀ e t →
      ∃ a n, Recovered c w₀ a n t
        ∧ ∀ p, c.prepared w₀ = .ok p → a = c.nextAuth w₀ p ∧ n = p.next := by
    intro e t he
    cases hprepared : c.prepared w₀ with
    | error e' =>
        exact ⟨w₀.auth, w₀.file, he.recovered _ _, fun p hp => by cases hp⟩
    | ok p =>
        refine ⟨_, _, he.recovered (c.nextAuth w₀ p) p.next, fun p' hp' => ?_⟩
        obtain rfl := Except.ok.inj hp'
        exact ⟨rfl, rfl⟩
  refine meets_ofExcept_bind (fun keys hkeys => ?_) fun e he => hearly e _ ?_
  rotate_left
  · refine h.early_of_refused (?_ : c.prepared w₀ = .error e)
    unfold prepared
    rw [he]
    rfl
  refine meets_io_bind (fun hlstatAuth => ?_) fun code hcode =>
    hearly (.platform code) _ (h.early hcode (by simp [opsBeforeWrites]))
  refine (meets_forEach (P := fun fs t => t = w₀ ∧ ∀ f ∈ fs,
      c.given f = true → c.fails (.lstat f) = none)
    ⟨rfl, fun f hf => (by cases hf)⟩ ?_).bind fun _ t hlstats => ?_
  · rintro fs f rest t hsplit ⟨rfl, hfs⟩
    have hf : f ∈ StoreFile.all := by
      rw [← hsplit]
      exact List.mem_append_right _ (List.mem_cons_self ..)
    have hsnoc : (c.given f = true → c.fails (.lstat f) = none) →
        ∀ g ∈ fs ++ [f], c.given g = true → c.fails (.lstat g) = none := by
      intro hf g hg
      rcases List.mem_append.mp hg with hg | hg
      · exact hfs g hg
      · obtain rfl := List.mem_singleton.mp hg
        exact hf
    refine meets_onlyIf (fun hgiven => ?_) fun hgiven =>
      ⟨rfl, hsnoc fun hg => by rw [hgiven] at hg; cases hg⟩
    refine meets_io (fun hlstat => ⟨rfl, hsnoc fun _ => hlstat⟩)
      fun code hcode => hearly (.platform code) _ (h.early hcode ?_)
    simp [opsBeforeWrites, hf, hgiven]
  obtain ⟨rfl, hlstat⟩ := hlstats
  have hall : ∀ f, f ∈ StoreFile.all := fun f => by cases f <;> decide
  refine meets_io_bind (fun hmakeDirectory => ?_) fun code hcode =>
    hearly (.platform code) _ (h.early hcode (by simp [opsBeforeWrites]))
  refine meets_io_bind (fun hopenDatabase => ?_) fun code hcode =>
    hearly (.platform code) _ (h.early hcode (by simp [opsBeforeWrites]))
  have hstarted : Started c :=
    ⟨hlstatAuth, fun f => hlstat f (hall f), hmakeDirectory, hopenDatabase⟩
  have hstart : Untouched t { t with manifest := c.startManifest t } :=
    h.setManifest fun hs => by cases hs
  have htried : Meets (attempt (c.body keys.1 keys.2) c.recover)
      { t with manifest := c.startManifest t } (fun _ u => Rotated c t u)
      (fun _ u => ∃ a n, Recovered c t a n u
        ∧ ∀ p, c.prepared t = .ok p →
          a = c.nextAuth t p ∧ n = p.next) :=
    (meets_body hstarted hkeys hstart).attempt fun e u hbody => by
      obtain ⟨a, n, hu, hsame⟩ := hbody
      exact (meets_recover hu).mono (fun _ _ hv => hv.elim)
        fun _ _ hv => ⟨a, n, hv, hsame⟩
  refine meets_modify_bind ⟨fun r hr => ?_, fun e he => ?_⟩
  · obtain ⟨hprepared, hothers⟩ := htried.1 r hr
    exact ⟨hprepared, hothers⟩
  obtain ⟨a, n, hu, hsame⟩ := htried.2 e he
  exact ⟨a, n, ⟨hu.auth, hu.file, hu.others, hu.marked⟩, hsame⟩

-- ====== safety

/-- Every store holds what it held. -/
def Unrotated (w₀ w : World) : Prop :=
  w.auth = w₀.auth ∧ (∀ f, w.file f = w₀.file f) ∧ w.others = w₀.others

/-- The manifest in the backup directory asks for a rollback. -/
def AsksForRollback (w : World) : Prop :=
  ∃ m, w.backupManifest = some m ∧ m.status = .rollbackRequired

/-- Either nothing that was changed stays changed: no commit that changed
anything, and each replaced file is restored or was the same anyway. Or a
file could not be restored, and the manifest that says so is written. -/
def FailsSafely (c : Rotation) (w₀ : World) : Prop :=
  (∀ p, c.prepared w₀ = .ok p →
    (c.commits w₀ = true → c.nextAuth w₀ p = w₀.auth)
      ∧ ∀ f, c.stuck w₀ f = true → p.next f = w₀.file f)
  ∨ (∃ f, c.stuck w₀ f = true) ∧ c.fails .writeFailed = none

theorem reaches_of_stuck (h : c.stuck w₀ f = true) :
    c.reaches w₀ = true := by
  unfold stuck replaces at h
  rw [Bool.and_eq_true, Bool.and_eq_true, Bool.and_eq_true] at h
  exact h.1.1.1

theorem exists_prepared_of_reaches (h : c.reaches w₀ = true) :
    ∃ p, c.prepared w₀ = .ok p := by
  unfold reaches at h
  cases hprepared : c.prepared w₀ with
  | ok p => exact ⟨p, rfl⟩
  | error e =>
      rw [hprepared] at h
      cases h

theorem unrotated_iff {n : (f : StoreFile) → Option (Content f.Store)}
    (h : Recovered c w₀ a n w) (hsame : ∀ p, c.prepared w₀ = .ok p →
      a = c.nextAuth w₀ p ∧ n = p.next) :
    Unrotated w₀ w ↔ ∀ p, c.prepared w₀ = .ok p →
      (c.commits w₀ = true → c.nextAuth w₀ p = w₀.auth)
        ∧ ∀ f, c.stuck w₀ f = true → p.next f = w₀.file f := by
  constructor
  · rintro ⟨hauth, hfile, -⟩ p hp
    obtain ⟨rfl, rfl⟩ := hsame p hp
    refine ⟨fun hcommits => ?_, fun f hstuck => ?_⟩
    · rw [h.auth, if_pos hcommits] at hauth
      exact hauth
    · have hf := hfile f
      rw [h.file f, if_pos hstuck] at hf
      exact hf
  · intro hall
    refine ⟨?_, fun f => ?_, h.others⟩
    · rw [h.auth]
      by_cases hcommits : c.commits w₀ = true
      · obtain ⟨p, hp⟩ :=
          exists_prepared_of_reaches (reaches_of_commits hcommits)
        rw [if_pos hcommits, (hsame p hp).1]
        exact (hall p hp).1 hcommits
      · rw [if_neg hcommits]
    · rw [h.file f]
      by_cases hstuck : c.stuck w₀ f = true
      · obtain ⟨p, hp⟩ :=
          exists_prepared_of_reaches (reaches_of_stuck hstuck)
        rw [if_pos hstuck, (hsame p hp).2]
        exact (hall p hp).2 f hstuck
      · rw [if_neg hstuck]

theorem untouched_before (auth : AuthDb)
    (file : (f : StoreFile) → Option (Content f.Store))
    (others : List (OtherSecret × Envelope)) :
    Untouched (.before auth file others) (.before auth file others) :=
  ⟨rfl, fun _ => rfl, rfl, fun _ => rfl, fun m hm => (by cases hm),
    fun hs => by cases hs⟩

/-- Where a rotation throws: every store holds what it held, or the
manifest asks for a rollback, exactly where it fails safely. -/
theorem throws_safely_iff (c : Rotation) (auth : AuthDb)
    (file : (f : StoreFile) → Option (Content f.Store))
    (others : List (OtherSecret × Envelope)) (e : Failure)
    (hthrows : (c.rotateSecretMasterKey.run
      (.before auth file others)).1 = .error e) :
    let w₀ := World.before auth file others
    let w := (c.rotateSecretMasterKey.run w₀).2
    (Unrotated w₀ w ∨ AsksForRollback w) ↔ c.FailsSafely w₀ := by
  intro w₀ w
  obtain ⟨a, n, hrecovered, hsame⟩ :=
    (meets_rotateSecretMasterKey
      (untouched_before auth file others)).2 e hthrows
  unfold FailsSafely
  rw [← unrotated_iff hrecovered hsame]
  exact or_congr Iff.rfl hrecovered.marked

end Rotation

-- ====== a sample

def sampleKey : Key := ⟨List.replicate 32 0x11, List.length_replicate⟩

/-- A rotation from one key to another. -/
def sampleRotation (fails : Op → Option String) : Rotation where
  authDbPath := "/var/lib/yunpanel/auth.sqlite"
  applicationEnvironmentStorePath :=
    "/var/lib/yunpanel/application-environment-registry.json"
  backupDirectory := "/var/lib/yunpanel/rotation"
  dnsProviderCredentialStorePath := none
  mailboxStorePath := none
  currentMasterKey := .buffer (List.replicate 32 0x11)
  nextMasterKey := .buffer (List.replicate 32 0x22)
  crypto := sampleCrypto
  nonces := fun _ _ => ⟨List.replicate 12 0, rfl⟩
  createdAt := ⟨0⟩
  eventAt := ⟨1⟩
  finishedAt := ⟨2⟩
  fails := fails

/-- One user with a second factor. -/
def sampleAuth : AuthDb where
  table := fun
    | .active => some ⟨[⟨"owner-1", some (vaultEncrypt sampleCrypto sampleKey
        ⟨List.replicate 12 0, rfl⟩ "owner-1" "ACTIVE-SECRET"), .null⟩],
        by decide⟩
    | .pending => none
  events := none

/-- One application with a secret. -/
def sampleFile : (f : StoreFile) → Option (Content f.Store)
  | .environment => some (.stored (⟨.two,
      [⟨"app", "API_TOKEN", .secret (sealText sampleCrypto sampleKey
        ⟨List.replicate 12 0, rfl⟩ "app:API_TOKEN" "token"), .null⟩],
      .null⟩ : EnvironmentStore))
  | .dnsProvider => none
  | .mailbox => none

/-- The disk is full when the manifest is written after the commit. -/
def sampleFailure : Op → Option String
  | .writeApplied => some "ENOSPC"
  | _ => none

theorem throws_safely_iff_sample :
    let c := sampleRotation sampleFailure
    let w₀ := World.before sampleAuth sampleFile []
    let w := (c.rotateSecretMasterKey.run w₀).2
    (Rotation.Unrotated w₀ w ∨ Rotation.AsksForRollback w)
      ↔ c.FailsSafely w₀ :=
  Rotation.throws_safely_iff (sampleRotation sampleFailure) sampleAuth
    sampleFile [] (.platform "ENOSPC") (by decide +kernel)

/-- The rotation throws with the second factors under the next key, the
environments under the current one, and a manifest that says `failed`. -/
theorem committed_but_failed :
    ¬ ∀ (c : Rotation) (auth : AuthDb)
      (file : (f : StoreFile) → Option (Content f.Store))
      (others : List (OtherSecret × Envelope)) (e : Failure),
      (c.rotateSecretMasterKey.run (.before auth file others)).1
        = .error e →
      let w₀ := World.before auth file others
      let w := (c.rotateSecretMasterKey.run w₀).2
      Rotation.Unrotated w₀ w ∨ Rotation.AsksForRollback w := by
  intro h
  have hrows : decide (((sampleRotation sampleFailure
      ).rotateSecretMasterKey.run (.before sampleAuth sampleFile [])
      ).2.auth.rows .active = sampleAuth.rows .active) = false := by
    decide +kernel
  have hmanifest : ((sampleRotation sampleFailure
      ).rotateSecretMasterKey.run (.before sampleAuth sampleFile [])
      ).2.backupManifest.map Manifest.status = some .failed := by
    decide +kernel
  rcases h (sampleRotation sampleFailure) sampleAuth sampleFile []
    (.platform "ENOSPC") (by decide +kernel) with hsame | ⟨m, hm, hstatus⟩
  · rw [hsame.1] at hrows
    simp [World.before] at hrows
  · rw [hm] at hmanifest
    have hfailed := Option.some.inj hmanifest
    rw [hstatus] at hfailed
    cases hfailed

example : Text.isHex 'z' = false := by decide +kernel

end Yunpanel.Secrets
