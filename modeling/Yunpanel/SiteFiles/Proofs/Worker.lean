/-
Which operations of the site-file worker reject with the tree changed.

# The ways

An operation looks before it changes anything, so it is in the change
itself and behind it that a rejection may come too late (`Slips`). A file
that is written leaves its temporary file where that cannot be removed. A
directory that was made, an entry that was moved and a file that was
replaced stay where the look at them, or the mode of the directory, fails.
A removal that stops half-way leaves the other half. And a batch checks
each path only when it comes to it: what stands before one that is no path
is gone by then.

The content of an upload is read as the bytes a download wrote it from.
-/
import Yunpanel.Lib.Result
import Yunpanel.SiteFiles.Worker

namespace Yunpanel.SiteFiles

open Lib Lib.Exec Lib.Result

variable {env : Env} {o : Answers} {t : Tree}

-- ====== looks

variable {n : Node} {sights : Path → Sight} {final : Bool} {request : Json}

theorem lstat_eq_ok {f : Sight} {p : Path} (h : lstat f p t = .ok n) :
    t p = some n := by
  unfold lstat at h
  cases f with
  | some e => cases h
  | none =>
      cases hp : t p with
      | none =>
          rw [hp] at h
          cases h
      | some m =>
          rw [hp] at h
          rw [Except.ok.inj h]

theorem lstat_eq_error {f : Sight} {p : Path} {e : SysError}
    (h : lstat f p t = .error e) : e.code = "ENOENT" ↔ f = none := by
  unfold lstat at h
  cases f with
  | some e' =>
      obtain rfl := Except.error.inj h
      exact iff_of_false e'.2 nofun
  | none =>
      cases hp : t p with
      | none =>
          rw [hp] at h
          obtain rfl := Except.error.inj h
          exact iff_of_true rfl rfl
      | some m =>
          rw [hp] at h
          cases h

theorem ensureAbsent_eq_ok {absolute : Path} {u : Unit}
    (h : ensureAbsent o absolute t = .ok u) : t absolute = none := by
  unfold ensureAbsent at h
  cases hl : lstat o.absent absolute t with
  | ok n =>
      rw [hl] at h
      cases h
  | error e =>
      rw [hl] at h
      dsimp only at h
      split at h
      · rename_i hcode
        have hf := (lstat_eq_error hl).mp hcode
        unfold lstat at hl
        rw [hf] at hl
        cases hp : t absolute with
        | none => rfl
        | some n =>
            rw [hp] at hl
            cases hl
      · cases h

variable {here rest relative : Path} {paths : List Json}

/-- A walk ends at something that is there. -/
theorem walkFrom_eq_ok {p : Path}
    (h : walkFrom sights final t here rest = .ok (p, n)) : t p = some n := by
  induction rest generalizing here with
  | nil => cases h
  | cons segment rest ih =>
      unfold walkFrom at h
      dsimp only at h
      cases hl : lstat (sights (here ++ [segment])) (here ++ [segment]) t with
      | error e =>
          rw [hl] at h
          dsimp only at h
          split at h
          · cases h
          · cases h
      | ok info =>
          rw [hl] at h
          dsimp only at h
          split at h
          · cases h
          · split at h
            · cases h
            · split at h
              · obtain ⟨rfl, rfl⟩ := Prod.mk.inj (Except.ok.inj h)
                exact lstat_eq_ok hl
              · exact ih h

theorem walk_eq_ok {p : Path}
    (h : walk sights final relative t = .ok (p, n)) : t p = some n := by
  unfold walk at h
  split at h
  · cases hl : lstat (sights []) [] t with
    | error e =>
        rw [hl] at h
        cases h
    | ok info =>
        rw [hl] at h
        obtain ⟨rfl, rfl⟩ := Prod.mk.inj (Except.ok.inj h)
        exact lstat_eq_ok hl
  · exact walkFrom_eq_ok h

/-- A walk goes where it was told to. -/
theorem walkFrom_path {p : Path}
    (h : walkFrom sights final t here rest = .ok (p, n)) :
    p = here ++ rest := by
  induction rest generalizing here with
  | nil => cases h
  | cons segment rest ih =>
      unfold walkFrom at h
      dsimp only at h
      split at h
      · split at h
        · cases h
        · cases h
      · split at h
        · cases h
        · split at h
          · cases h
          · split at h
            · rename_i hfinal
              rw [List.isEmpty_iff.mp hfinal]
              exact (Prod.mk.inj (Except.ok.inj h)).1.symm
            · rw [ih h, List.append_assoc]
              rfl

theorem walk_path {p : Path} (h : walk sights final relative t = .ok (p, n)) :
    p = relative := by
  unfold walk at h
  split at h
  · rename_i hroot
    split at h
    · rw [hroot]
      exact (Prod.mk.inj (Except.ok.inj h)).1.symm
    · cases h
  · exact walkFrom_path h

theorem report_of_none {absolute : Path} (h : o.reported = none)
    (hn : t absolute = some n) :
    report o absolute t = .ok n := by
  unfold report lstat
  rw [h, hn]
  rfl

variable (t) in
theorem report_of_ne_none (absolute : Path) (h : o.reported ≠ none) :
    ∃ e, report o absolute t = .error e := by
  obtain ⟨e, he⟩ := Option.ne_none_iff_exists'.mp h
  unfold report lstat
  rw [he]
  exact ⟨_, rfl⟩

-- ====== operations

section Operations

variable {f : Fate} {p : Path}

theorem openNew_run (hfree : t p = none) (mode : Nat) :
    (openNew none p mode).run t = (.ok (), t.put p (some (.file [] mode))) := by
  unfold openNew
  rw [run_bind_ok (show (ofExcept (Fate.check none)).run t = (.ok (), t)
    from rfl), run_read_bind, hfree]
  rfl

/-- A file is not opened where its name is taken. -/
theorem openNew_run_error (h : f ≠ none ∨ t p ≠ none) (mode : Nat) :
    ∃ e, (openNew f p mode).run t = (.error e, t) := by
  unfold openNew
  cases f with
  | some e => exact ⟨.system e, rfl⟩
  | none =>
      obtain ⟨n, hn⟩ := Option.ne_none_iff_exists'.mp
        (h.resolve_left fun h => h rfl)
      rw [run_bind_ok (show (ofExcept (Fate.check none)).run t = (.ok (), t)
        from rfl), run_read_bind, hn]
      exact ⟨_, rfl⟩

theorem rmFile_run_ok {n : Option Node} (hn : t p = n)
    (hfile : n.any Node.isDirectory = false) :
    (rmFile none p).run t = (.ok (), t.put p none) := by
  unfold rmFile
  rw [run_bind_ok (show (ofExcept (Fate.check none)).run t = (.ok (), t)
    from rfl), run_read_bind, hn, hfile]
  rfl

theorem rmFile_run_error
    (h : f ≠ none ∨ (t p).any Node.isDirectory = true) :
    ∃ e, (rmFile f p).run t = (.error e, t) := by
  unfold rmFile
  cases f with
  | some e => exact ⟨.system e, rfl⟩
  | none =>
      have hdir := h.resolve_left fun h => h rfl
      rw [run_bind_ok (show (ofExcept (Fate.check none)).run t = (.ok (), t)
        from rfl), run_read_bind, hdir]
      exact ⟨_, rfl⟩

theorem rename_run {source : Path} (target : Path) (hn : t source = some n)
    (hfits : ¬((t target).any Node.isDirectory = true
      ∧ n.isDirectory = false)) :
    (rename none source target).run t
      = (.ok (), t.renamed source target n) := by
  unfold rename
  rw [run_bind_ok (show (ofExcept (Fate.check none)).run t = (.ok (), t)
    from rfl), run_read_bind, run_read_bind, hn]
  have hcond : ((t target).any Node.isDirectory && !n.isDirectory)
      = false := by
    rw [Bool.and_eq_false_iff, Bool.not_eq_false']
    by_cases hdir : (t target).any Node.isDirectory = true
    · right
      by_contra hn'
      exact hfits ⟨hdir, Bool.not_eq_true _ |>.mp hn'⟩
    · exact .inl (Bool.not_eq_true _ |>.mp hdir)
  dsimp only
  rw [hcond]
  rfl

theorem rename_run_error {source : Path} (target : Path)
    (hn : t source = some n)
    (h : f ≠ none ∨ (t target).any Node.isDirectory = true
      ∧ n.isDirectory = false) :
    ∃ e, (rename f source target).run t = (.error e, t) := by
  unfold rename
  cases f with
  | some e => exact ⟨.system e, rfl⟩
  | none =>
      obtain ⟨hdir, hfile⟩ := h.resolve_left fun h => h rfl
      rw [run_bind_ok (show (ofExcept (Fate.check none)).run t = (.ok (), t)
        from rfl), run_read_bind, run_read_bind, hn]
      dsimp only
      rw [hdir, hfile]
      exact ⟨_, rfl⟩

end Operations

-- ====== writing

section Writing

variable {absolute : Path} {content : Bytes} {mode : Nat}

theorem temporaryPath_ne (o : Answers) (absolute : Path) :
    absolute ≠ temporaryPath o absolute := by
  intro h
  unfold temporaryPath at h
  rcases List.eq_nil_or_concat absolute with rfl | ⟨ps, s, rfl⟩
  · cases h
  · rw [List.concat_eq_append, List.dropLast_concat, List.getLastD_concat] at h
    have hs := List.append_cancel_left h
    have hlength := congrArg String.length (List.cons.inj hs).1
    simp only [String.length_append] at hlength
    have hword : ".yunpanel-".length = 10 := by decide
    omega

theorem put_self (p : Path) (n : Option Node) (t : Tree) :
    t.put p n p = n := by
  unfold Tree.put
  rw [Function.update_self]

theorem put_of_ne {p q : Path} (h : q ≠ p) (n : Option Node) (t : Tree) :
    t.put p n q = t q := by
  unfold Tree.put
  rw [Function.update_of_ne h]

theorem put_put_self (p : Path) (n m : Option Node) (t : Tree) :
    (t.put p n).put p m = t.put p m := by
  unfold Tree.put
  rw [Function.update_idem]

theorem put_of_eq {p : Path} {n : Option Node} (h : t p = n) :
    t.put p n = t := by
  unfold Tree.put
  rw [← h, Function.update_eq_self]

theorem put_ne_self {p : Path} {n : Option Node} (h : t p ≠ n) :
    t.put p n ≠ t := by
  intro he
  apply h
  have hself := put_self p n t
  rwa [he] at hself

/-- A write does not come to its end once the temporary file is open. -/
def WriteFails (o : Answers) (absolute : Path) (t : Tree) : Prop :=
  o.written ≠ none ∨ o.synced ≠ none ∨ o.closed ≠ none ∨ o.renamed ≠ none
    ∨ (t absolute).any Node.isDirectory = true

/-- The steps up to the renaming. -/
def writeTemporary (o : Answers) (absolute : Path) (content : Bytes)
    (mode : Nat) : Run Unit := do
  openNew o.opened (temporaryPath o absolute) mode
  writeOpen o.written o.half (temporaryPath o absolute) mode content
  ofExcept o.synced.check
  ofExcept o.closed.check
  rename o.renamed (temporaryPath o absolute) absolute

theorem atomicWrite_eq : atomicWrite o absolute content mode
    = attempt (writeTemporary o absolute content mode) (fun e => do
        let _ ← caught (rmFile o.temporaryRemoved (temporaryPath o absolute))
        fail e) := rfl

variable (content mode) in
theorem writeTemporary_taken
    (h : o.opened ≠ none ∨ t (temporaryPath o absolute) ≠ none) :
    ∃ e, (writeTemporary o absolute content mode).run t = (.error e, t) := by
  obtain ⟨e, he⟩ := openNew_run_error h mode
  exact ⟨e, run_bind_error he⟩

variable (content mode) in
/-- A write that fails with the file open has left it there. -/
theorem writeTemporary_fails (hopened : o.opened = none)
    (hfree : t (temporaryPath o absolute) = none)
    (hfails : WriteFails o absolute t) :
    ∃ e part, (writeTemporary o absolute content mode).run t
      = (.error e,
          t.put (temporaryPath o absolute) (some (.file part mode))) := by
  unfold writeTemporary
  rw [hopened, run_bind_ok (openNew_run hfree mode)]
  unfold WriteFails at hfails
  cases hwritten : o.written with
  | some e =>
      refine ⟨.system e, o.half, run_bind_error ?_⟩
      change (Except.error _, (t.put _ _).put _ _) = _
      rw [put_put_self]
  | none =>
      have hwrite : (writeOpen none o.half (temporaryPath o absolute) mode
          content).run (t.put (temporaryPath o absolute)
            (some (.file [] mode)))
          = (.ok (), t.put (temporaryPath o absolute)
              (some (.file content mode))) := by
        change (Except.ok _, (t.put _ _).put _ _) = _
        rw [put_put_self]
      rw [run_bind_ok hwrite]
      cases hsynced : o.synced with
      | some e => exact ⟨.system e, content, rfl⟩
      | none =>
          cases hclosed : o.closed with
          | some e => exact ⟨.system e, content, rfl⟩
          | none =>
              rw [hwritten, hsynced, hclosed] at hfails
              have hlast : o.renamed ≠ none
                  ∨ (t absolute).any Node.isDirectory = true := by
                rcases hfails with h | h | h | h
                · exact absurd rfl h
                · exact absurd rfl h
                · exact absurd rfl h
                · exact h
              have hself : (t.put (temporaryPath o absolute)
                  (some (.file content mode))) absolute = t absolute :=
                put_of_ne (temporaryPath_ne o absolute) _ t
              obtain ⟨e, he⟩ := rename_run_error (f := o.renamed)
                absolute
                (show (t.put (temporaryPath o absolute)
                  (some (.file content mode))) (temporaryPath o absolute)
                  = some (.file content mode) from put_self _ _ t)
                (hlast.imp_right fun h => ⟨hself ▸ h, rfl⟩)
              exact ⟨e, content, he⟩

/-- A write that does not fail has replaced the file. -/
theorem writeTemporary_succeeds (hopened : o.opened = none)
    (hfree : t (temporaryPath o absolute) = none)
    (hnot : ¬WriteFails o absolute t) :
    (writeTemporary o absolute content mode).run t
      = (.ok (), t.put absolute (some (.file content mode))) := by
  unfold WriteFails at hnot
  simp only [not_or, not_not] at hnot
  obtain ⟨hwritten, hsynced, hclosed, hrenamed, hfile⟩ := hnot
  unfold writeTemporary
  rw [hopened, hwritten, hsynced, hclosed, hrenamed,
    run_bind_ok (openNew_run hfree mode)]
  have hwrite : (writeOpen none o.half (temporaryPath o absolute) mode
      content).run (t.put (temporaryPath o absolute)
        (some (.file [] mode)))
      = (.ok (), t.put (temporaryPath o absolute)
          (some (.file content mode))) := by
    change (Except.ok _, (t.put _ _).put _ _) = _
    rw [put_put_self]
  rw [run_bind_ok hwrite]
  have hself : (t.put (temporaryPath o absolute)
      (some (.file content mode))) absolute = t absolute :=
    put_of_ne (temporaryPath_ne o absolute) _ t
  refine (rename_run absolute
    (show (t.put (temporaryPath o absolute) (some (.file content mode)))
      (temporaryPath o absolute) = some (.file content mode)
      from put_self _ _ t) fun h => ?_).trans ?_
  · rw [hself] at h
    exact hfile h.1
  · change (Except.ok _, (((t.put _ _).put _ none).put _ _)) = _
    rw [put_put_self, put_of_eq hfree]

/-- What the `catch` of a write leaves. -/
theorem dropTemporary_run (e : Thrown) :
    ((do
      let _ ← caught (rmFile o.temporaryRemoved (temporaryPath o absolute))
      fail e : Run Unit)).run t
      = (.error e, ((rmFile o.temporaryRemoved
          (temporaryPath o absolute)).run t).2) := rfl

/-- Someone else's file of the temporary name is taken away, or the file
that was opened stays. -/
def LeavesTemporary (o : Answers) (absolute : Path) (t : Tree) : Prop :=
  (o.temporaryRemoved = none ∧ ∃ n, t (temporaryPath o absolute) = some n
      ∧ n.isDirectory = false)
    ∨ (o.temporaryRemoved ≠ none ∧ t (temporaryPath o absolute) = none
      ∧ o.opened = none ∧ WriteFails o absolute t)

theorem atomicWrite_atomic_iff :
    Atomic (atomicWrite o absolute content mode) t
      ↔ ¬LeavesTemporary o absolute t := by
  rw [atomicWrite_eq]
  unfold LeavesTemporary
  by_cases hopen : o.opened ≠ none ∨ t (temporaryPath o absolute) ≠ none
  · obtain ⟨e, he⟩ := writeTemporary_taken content mode hopen
    rw [atomic_iff_of_run_error ((run_attempt_error he).trans
      (dropTemporary_run e))]
    have hsecond : ¬(o.temporaryRemoved ≠ none
        ∧ t (temporaryPath o absolute) = none ∧ o.opened = none
        ∧ WriteFails o absolute t) := by
      intro ⟨_, hfree, hopened, _⟩
      exact hopen.elim (fun h => h hopened) fun h => h hfree
    rw [or_iff_left hsecond]
    by_cases hkept : o.temporaryRemoved ≠ none
        ∨ (t (temporaryPath o absolute)).any Node.isDirectory = true
    · obtain ⟨e', he'⟩ := rmFile_run_error hkept
      rw [he']
      refine iff_of_true rfl fun ⟨hremoved, n, hn, hfile⟩ => ?_
      have hdir := hkept.resolve_left fun h => h hremoved
      rw [hn] at hdir
      exact absurd (hfile.symm.trans hdir) (by decide)
    · rw [not_or, not_not] at hkept
      obtain ⟨hremoved, hfile⟩ := hkept
      rw [hremoved, rmFile_run_ok rfl (Bool.not_eq_true _ |>.mp hfile)]
      cases hn : t (temporaryPath o absolute) with
      | none => exact iff_of_true (put_of_eq hn) fun ⟨_, n, h, _⟩ => by cases h
      | some n =>
          refine iff_of_false (put_ne_self (by rw [hn]; nofun)) ?_
          rw [not_not]
          refine ⟨rfl, n, rfl, ?_⟩
          rw [hn] at hfile
          exact Bool.not_eq_true _ |>.mp hfile
  · rw [not_or, not_not, not_not] at hopen
    obtain ⟨hopened, hfree⟩ := hopen
    by_cases hfails : WriteFails o absolute t
    · obtain ⟨e, part, he⟩ := writeTemporary_fails content mode hopened hfree
        hfails
      rw [atomic_iff_of_run_error ((run_attempt_error he).trans
        (dropTemporary_run e))]
      by_cases hremoved : o.temporaryRemoved = none
      · rw [hremoved, rmFile_run_ok (put_self _ _ t) rfl]
        refine iff_of_true ?_ ?_
        · change (t.put _ _).put _ none = t
          rw [put_put_self, put_of_eq hfree]
        · rintro (⟨-, n, hn, -⟩ | ⟨h, -⟩)
          · rw [hfree] at hn
            cases hn
          · exact h rfl
      · obtain ⟨e', he'⟩ := rmFile_run_error (p := temporaryPath o absolute)
          (t := t.put (temporaryPath o absolute) (some (.file part mode)))
          (.inl hremoved)
        rw [he']
        refine iff_of_false (put_ne_self (by rw [hfree]; nofun)) ?_
        rw [not_not]
        exact .inr ⟨hremoved, hfree, hopened, hfails⟩
    · refine iff_of_true (atomic_of_run_ok (run_attempt_ok
        (writeTemporary_succeeds hopened hfree hfails))) ?_
      rintro (⟨-, n, hn, -⟩ | ⟨-, -, -, h⟩)
      · rw [hfree] at hn
        cases hn
      · exact hfails h

/-- Nothing hinders the write. -/
def Writes (o : Answers) (absolute : Path) (t : Tree) : Prop :=
  t (temporaryPath o absolute) = none ∧ o.opened = none
    ∧ ¬WriteFails o absolute t

theorem atomicWrite_run (h : Writes o absolute t) :
    (atomicWrite o absolute content mode).run t
      = (.ok (), t.put absolute (some (.file content mode))) :=
  run_attempt_ok (writeTemporary_succeeds h.2.1 h.1 h.2.2)

variable {u : Tree}

/-- A write that returns was not hindered. -/
theorem writes_of_run {a : Unit}
    (h : (atomicWrite o absolute content mode).run t = (.ok a, u)) :
    Writes o absolute t := by
  rw [atomicWrite_eq] at h
  by_cases hopen : o.opened ≠ none ∨ t (temporaryPath o absolute) ≠ none
  · obtain ⟨e, he⟩ := writeTemporary_taken content mode hopen
    rw [run_attempt_error he] at h
    cases h
  · rw [not_or, not_not, not_not] at hopen
    refine ⟨hopen.2, hopen.1, fun hfails => ?_⟩
    obtain ⟨e, part, he⟩ := writeTemporary_fails content mode hopen.1 hopen.2
      hfails
    rw [run_attempt_error he] at h
    cases h

/-- What carrying out returns with is the file in its place. -/
theorem carryOut_run {p : Planned} {m : Metadata}
    (h : (carryOut env o p).run t = (.ok m, u)) :
    u = t.put p.absolute (some (.file p.content p.mode)) := by
  unfold carryOut at h
  cases hrun : (atomicWrite o p.absolute p.content p.mode).run t with
  | mk r v =>
      cases r with
      | error e =>
          rw [run_bind_error hrun] at h
          cases h
      | ok a =>
          rw [run_bind_ok hrun] at h
          have hv : u = v := by
            cases hreport : report o p.absolute v with
            | error e =>
                rw [run_bind_error (show (look (report o p.absolute)).run v
                  = (.error e, v) from Prod.ext hreport rfl)] at h
                cases h
            | ok n =>
                rw [run_bind_ok (show (look (report o p.absolute)).run v
                  = (.ok n, v) from Prod.ext hreport rfl)] at h
                exact (Prod.mk.inj h).2.symm
          rw [atomicWrite_run (writes_of_run hrun)] at hrun
          rw [hv, ← (Prod.mk.inj hrun).2]

/-- A file is written and then not looked at. -/
def Unreported (o : Answers) (p : Planned) (t : Tree) : Prop :=
  Writes o p.absolute t ∧ o.reported ≠ none
    ∧ t p.absolute ≠ some (.file p.content p.mode)

theorem carryOut_atomic_iff {p : Planned} :
    Atomic (carryOut env o p) t
      ↔ ¬(LeavesTemporary o p.absolute t ∨ Unreported o p t) := by
  unfold carryOut
  rw [atomic_bind_look_iff, atomicWrite_atomic_iff, not_or]
  refine and_congr_right fun _ => ⟨fun h hun => ?_, fun h a u e hrun hg => ?_⟩
  · obtain ⟨hwrites, hreported, hne⟩ := hun
    obtain ⟨e, he⟩ := report_of_ne_none (t.put p.absolute
      (some (.file p.content p.mode))) p.absolute hreported
    exact put_ne_self hne (h () _ e (atomicWrite_run hwrites) he)
  · have hwrites := writes_of_run hrun
    rw [atomicWrite_run hwrites] at hrun
    obtain rfl := (Prod.mk.inj hrun).2
    by_cases hreported : o.reported = none
    · rw [report_of_none hreported (put_self _ _ t)] at hg
      cases hg
    · apply put_of_eq
      by_contra hne
      exact h ⟨hwrites, hreported, hne⟩

end Writing

-- ====== operations

theorem createFile_atomic_iff :
    Atomic (createFile env o request) t
      ↔ ∀ p, createFilePlan o request t = .ok p →
        ¬(LeavesTemporary o p.absolute t ∨ Unreported o p t) := by
  unfold createFile
  rw [atomic_look_bind_iff]
  refine forall₂_congr fun p _ => ?_
  rw [atomic_map_iff, carryOut_atomic_iff]

theorem upload_atomic_iff :
    Atomic (upload env o request) t
      ↔ ∀ p created, uploadPlan o request t = .ok (p, created) →
        ¬(LeavesTemporary o p.absolute t ∨ Unreported o p t) := by
  unfold upload
  rw [atomic_look_bind_iff, Prod.forall]
  refine forall₃_congr fun p _ _ => ?_
  rw [atomic_map_iff, carryOut_atomic_iff]

theorem writeText_atomic_iff :
    Atomic (writeText env o request) t
      ↔ ∀ p, writeTextPlan env o request t = .ok p →
        ¬(LeavesTemporary o p.absolute t ∨ Unreported o p t) := by
  unfold writeText replaceText
  rw [atomic_look_bind_iff]
  refine forall₂_congr fun p _ => ?_
  rw [atomic_map_iff, carryOut_atomic_iff]

theorem mkdirPlan_eq_ok {item absolute : Path}
    (h : mkdirPlan o request t = .ok (item, absolute)) :
    t absolute = none := by
  unfold mkdirPlan at h
  obtain ⟨fields, -, h⟩ := bind_eq_ok.mp h
  obtain ⟨item', -, h⟩ := bind_eq_ok.mp h
  obtain ⟨absolute', -, h⟩ := bind_eq_ok.mp h
  obtain ⟨u, habsent, h⟩ := bind_eq_ok.mp h
  obtain ⟨-, rfl⟩ := Prod.mk.inj (Except.ok.inj h)
  exact ensureAbsent_eq_ok habsent

theorem makeDirectory_atomic_iff :
    Atomic (makeDirectory env o request) t
      ↔ ∀ item absolute, mkdirPlan o request t = .ok (item, absolute) →
        ¬(o.made = none ∧ (o.chmod ≠ none ∨ o.reported ≠ none)) := by
  unfold makeDirectory
  rw [atomic_look_bind_iff, Prod.forall]
  refine forall₃_congr fun item absolute hplan => ?_
  have habsent := mkdirPlan_eq_ok hplan
  have hne : ∀ n : Node, t.put absolute (some n) ≠ t := fun n =>
    put_ne_self (by rw [habsent]; nofun)
  cases hmade : o.made with
  | some e =>
      have hrun : (mkdir (some e) absolute directoryMode).run t
          = (.error (.system e), t) := rfl
      rw [atomic_iff_of_run_error (run_bind_error hrun)]
      exact iff_of_true rfl fun h => by cases h.1
  | none =>
      have hrun : (mkdir none absolute directoryMode).run t
          = (.ok (), t.put absolute (some (.directory directoryMode))) := by
        unfold mkdir
        rw [run_bind_ok (show (ofExcept (Fate.check none)).run t
          = (.ok (), t) from rfl), run_read_bind, habsent]
        rfl
      cases hchmod : o.chmod with
      | some e =>
          have herror : (chmod (some e) absolute directoryMode).run
              (t.put absolute (some (.directory directoryMode)))
              = (.error (.system e),
                  t.put absolute (some (.directory directoryMode))) := rfl
          rw [atomic_iff_of_run_error ((run_bind_ok hrun).trans
            (run_bind_error herror))]
          refine iff_of_false (hne _) ?_
          rw [not_not]
          exact ⟨rfl, .inl nofun⟩
      | none =>
          have hmode : (chmod none absolute directoryMode).run
              (t.put absolute (some (.directory directoryMode)))
              = (.ok (),
                  t.put absolute (some (.directory directoryMode))) := by
            change (Except.ok (), (t.put _ _).put _ _) = _
            rw [put_self, put_put_self]
            rfl
          cases hreported : o.reported with
          | none =>
              have hreport := report_of_none hreported
                (put_self absolute (some (.directory directoryMode)) t)
              refine iff_of_true (atomic_of_run_ok ((run_bind_ok hrun).trans
                ((run_bind_ok hmode).trans (run_bind_ok
                  (show (look (report o absolute)).run _
                    = (.ok (.directory directoryMode), _)
                    from Prod.ext hreport rfl))))) ?_
              rintro ⟨-, h | h⟩
              · exact h rfl
              · exact h rfl
          | some e =>
              obtain ⟨e', he'⟩ := report_of_ne_none (o := o)
                (t.put absolute (some (.directory directoryMode)))
                absolute (by rw [hreported]; nofun)
              rw [atomic_iff_of_run_error ((run_bind_ok hrun).trans
                ((run_bind_ok hmode).trans (run_bind_error
                  (show (look (report o absolute)).run _
                    = (.error e', _) from Prod.ext he' rfl))))]
              refine iff_of_false (hne _) ?_
              rw [not_not]
              exact ⟨rfl, .inr nofun⟩

theorem renamePlan_eq_ok {m : Moving} (h : renamePlan o request t = .ok m) :
    (∃ n, t m.source = some n) ∧ t m.target = none := by
  unfold renamePlan at h
  obtain ⟨fields, -, h⟩ := bind_eq_ok.mp h
  obtain ⟨item, -, h⟩ := bind_eq_ok.mp h
  obtain ⟨destinationPath, -, h⟩ := bind_eq_ok.mp h
  split at h
  · cases h
  · obtain ⟨⟨source, info⟩, hwalk, h⟩ := bind_eq_ok.mp h
    dsimp only at h
    split at h
    · cases h
    · obtain ⟨target, -, h⟩ := bind_eq_ok.mp h
      obtain ⟨u, habsent, h⟩ := bind_eq_ok.mp h
      obtain rfl := Except.ok.inj h
      exact ⟨⟨info, walk_eq_ok hwalk⟩, ensureAbsent_eq_ok habsent⟩

/-- What is moved to where nothing was is there afterwards. -/
theorem renamed_target {source : Path} (target : Path)
    (hn : t source = some n) : t.renamed source target n target = some n := by
  unfold Tree.renamed
  split
  · unfold Tree.move
    rw [if_pos List.prefix_rfl, List.drop_length, List.append_nil, hn]
  · exact put_self ..

theorem renameOperation_atomic_iff :
    Atomic (renameOperation env o request) t
      ↔ ∀ m, renamePlan o request t = .ok m →
        ¬(o.moved = none ∧ o.reported ≠ none) := by
  unfold renameOperation
  rw [atomic_look_bind_iff]
  refine forall₂_congr fun m hplan => ?_
  obtain ⟨⟨n, hn⟩, habsent⟩ := renamePlan_eq_ok hplan
  rw [atomic_bind_look_iff]
  cases hmoved : o.moved with
  | some e =>
      have hrun : (rename (some e) m.source m.target).run t
          = (.error (.system e), t) := rfl
      rw [atomic_iff_of_run_error hrun]
      refine iff_of_true ⟨rfl, fun a u e' h => ?_⟩ fun h => by cases h.1
      rw [hrun] at h
      cases h
  | none =>
      have hrun := rename_run m.target hn
        (by rw [habsent]; exact fun h => by cases h.1)
      have hchanged : t.renamed m.source m.target n ≠ t := by
        intro he
        have hthere := renamed_target m.target hn
        rw [he, habsent] at hthere
        cases hthere
      have hatomic := atomic_of_run_ok hrun
      rw [and_iff_right hatomic]
      by_cases hreported : o.reported = none
      · refine iff_of_true (fun a u e h hg => ?_) fun h => h.2 hreported
        rw [hrun] at h
        obtain rfl := (Prod.mk.inj h).2
        rw [report_of_none hreported (renamed_target _ hn)] at hg
        cases hg
      · obtain ⟨e, he⟩ := report_of_ne_none
          (t.renamed m.source m.target n) m.target hreported
        refine iff_of_false (fun h => hchanged (h () _ e hrun he)) ?_
        rw [not_not]
        exact ⟨rfl, hreported⟩

/-- A removal that fails has taken something. -/
def TakesSome (r : Removal) (p : Path) (info : Node) (t : Tree) : Prop :=
  ∃ e stays, r = .failed e stays ∧ info.isDirectory = true
    ∧ t.remove p stays ≠ t

theorem rm_atomic_iff {r : Removal} {p : Path} {info : Node} :
    Atomic (rm r info.isDirectory p) t ↔ ¬TakesSome r p info t := by
  cases r with
  | done =>
      refine iff_of_true (atomic_of_run_ok (show (rm .done _ p).run t
        = (.ok (), _) from rfl)) ?_
      rintro ⟨e, stays, h, -⟩
      cases h
  | failed e stays =>
      cases hdir : info.isDirectory with
      | true =>
          have hrun : (rm (.failed e stays) true p).run t
              = (.error (.system e), t.remove p stays) := rfl
          rw [atomic_iff_of_run_error hrun]
          refine ⟨fun h ⟨e', stays', he, _, hne⟩ => ?_, fun h => ?_⟩
          · obtain ⟨rfl, rfl⟩ := Removal.failed.inj he
            exact hne h
          · by_contra hne
            exact h ⟨e, stays, rfl, hdir, hne⟩
      | false =>
          have hrun : (rm (.failed e stays) false p).run t
              = (.error (.system e), t) := rfl
          rw [atomic_iff_of_run_error hrun]
          refine iff_of_true rfl ?_
          rintro ⟨-, -, -, h, -⟩
          rw [hdir] at h
          cases h

theorem deleteOperation_atomic_iff :
    Atomic (deleteOperation o request) t
      ↔ ∀ item absolute info,
        deletePlan o request t = .ok (item, absolute, info) →
          ¬TakesSome (o.removed 0) absolute info t := by
  unfold deleteOperation
  rw [atomic_look_bind_iff]
  simp only [Prod.forall]
  refine forall₄_congr fun item absolute info _ => ?_
  rw [← rm_atomic_iff]
  exact atomic_map_iff

-- ====== batch

/-- What is left of the tree when one of the paths has been removed, as
well as it goes. -/
def leftAfterItem (o : Answers) (i : Nat) (item : Path) (t : Tree) : Tree :=
  match walk (o.walkedFor i) true item t with
  | .error _ => t
  | .ok (absolute, info) =>
      match o.removed i with
      | .done => t.remove absolute fun _ => false
      | .failed _ stays =>
          if info.isDirectory then t.remove absolute stays else t

/-- What is left when some of them have been. -/
def leftAfter (o : Answers) : Nat → List Path → Tree → Tree
  | _, [], t => t
  | i, p :: ps, t => leftAfter o (i + 1) ps (leftAfterItem o i p t)

theorem removeItem_run (i : Nat) (item : Path) :
    ∃ outcome, (caught (removeItem o i item)).run t
      = (.ok outcome, leftAfterItem o i item t) := by
  refine ⟨((removeItem o i item).run t).1, Prod.ext rfl ?_⟩
  change ((removeItem o i item).run t).2 = _
  unfold removeItem leftAfterItem
  cases hwalk : walk (o.walkedFor i) true item t with
  | error e =>
      rw [run_bind_error (show (look (walk (o.walkedFor i) true item)).run t
        = (.error e, t) from Prod.ext hwalk rfl)]
  | ok found =>
      obtain ⟨absolute, info⟩ := found
      rw [run_bind_ok (show (look (walk (o.walkedFor i) true item)).run t
        = (.ok (absolute, info), t) from Prod.ext hwalk rfl)]
      cases o.removed i with
      | done => rfl
      | failed e stays =>
          dsimp only
          cases info.isDirectory with
          | true => rfl
          | false => rfl

/-- The paths in front of the first value that is none, if there is one. -/
def pathsBeforeBad : List Json → Option (List Path)
  | [] => none
  | p :: ps =>
      match relativePath p false "path" with
      | .error _ => some []
      | .ok item => (pathsBeforeBad ps).map (item :: ·)

/-- Where every value is a path the loop comes to its end. -/
theorem removeItems_run_ok (h : pathsBeforeBad paths = none) (i : Nat)
    (t : Tree) :
    ∃ entries u, (removeItems o i paths).run t = (.ok entries, u) := by
  induction paths generalizing i t with
  | nil => exact ⟨[], t, rfl⟩
  | cons p ps ih =>
      unfold pathsBeforeBad at h
      unfold removeItems
      cases hp : relativePath p false "path" with
      | error e =>
          rw [hp] at h
          cases h
      | ok item =>
          rw [hp] at h
          obtain ⟨outcome, hout⟩ := removeItem_run (o := o) (t := t) i item
          obtain ⟨entries, u, hrest⟩ := ih (Option.map_eq_none_iff.mp h)
            (i + 1) (leftAfterItem o i item t)
          exact ⟨_, u, (run_bind_ok (show (ofExcept (.ok item)).run t
            = (.ok item, t) from rfl)).trans ((run_bind_ok hout).trans
              (run_bind_ok hrest))⟩

/-- Where one is not, those in front of it have been removed when the loop
throws. -/
theorem removeItems_run_error {items : List Path}
    (h : pathsBeforeBad paths = some items) (i : Nat) (t : Tree) :
    ∃ e, (removeItems o i paths).run t
      = (.error e, leftAfter o i items t) := by
  induction paths generalizing i t items with
  | nil => cases h
  | cons p ps ih =>
      unfold pathsBeforeBad at h
      unfold removeItems
      cases hp : relativePath p false "path" with
      | error e =>
          rw [hp] at h
          obtain rfl := Option.some.inj h
          exact ⟨e, rfl⟩
      | ok item =>
          rw [hp] at h
          obtain ⟨rest, hrest, rfl⟩ := Option.map_eq_some_iff.mp h
          obtain ⟨outcome, hout⟩ := removeItem_run (o := o) (t := t) i item
          obtain ⟨e, he⟩ := ih hrest (i + 1) (leftAfterItem o i item t)
          exact ⟨e, (run_bind_ok (show (ofExcept (.ok item)).run t
            = (.ok item, t) from rfl)).trans ((run_bind_ok hout).trans
              (run_bind_error he))⟩

theorem batchDelete_atomic_iff :
    Atomic (batchDelete o request) t
      ↔ ∀ paths items, batchPaths request = .ok paths →
        pathsBeforeBad paths = some items → leftAfter o 0 items t = t := by
  unfold batchDelete
  rw [atomic_look_bind_iff]
  refine forall_congr' fun paths => ?_
  rw [forall_comm]
  refine forall_congr' fun hpaths => ?_
  rw [atomic_map_iff]
  cases hbad : pathsBeforeBad paths with
  | none =>
      obtain ⟨entries, u, hrun⟩ := removeItems_run_ok (o := o) hbad 0 t
      exact iff_of_true (atomic_of_run_ok hrun) fun _ h => by cases h
  | some items =>
      obtain ⟨e, hrun⟩ := removeItems_run_error (o := o) hbad 0 t
      rw [atomic_iff_of_run_error hrun]
      refine ⟨fun h items' heq => ?_, fun h => h items rfl⟩
      rw [← Option.some.inj heq]
      exact h

-- ====== worker

/-- The rejection of an operation would come too late. -/
def Slips (env : Env) (o : Answers) (request : Json) (t : Tree) :
    Operation → Prop
  | .list => False
  | .download => False
  | .readText => False
  | .createFile => ∃ p, createFilePlan o request t = .ok p
      ∧ (LeavesTemporary o p.absolute t ∨ Unreported o p t)
  | .upload => ∃ p created, uploadPlan o request t = .ok (p, created)
      ∧ (LeavesTemporary o p.absolute t ∨ Unreported o p t)
  | .writeText => ∃ p, writeTextPlan env o request t = .ok p
      ∧ (LeavesTemporary o p.absolute t ∨ Unreported o p t)
  | .mkdir => ∃ item absolute,
      mkdirPlan o request t = .ok (item, absolute)
        ∧ o.made = none ∧ (o.chmod ≠ none ∨ o.reported ≠ none)
  | .rename => ∃ m, renamePlan o request t = .ok m
      ∧ o.moved = none ∧ o.reported ≠ none
  | .delete => ∃ item absolute info,
      deletePlan o request t = .ok (item, absolute, info)
        ∧ TakesSome (o.removed 0) absolute info t
  | .batchDelete => ∃ paths items, batchPaths request = .ok paths
      ∧ pathsBeforeBad paths = some items ∧ leftAfter o 0 items t ≠ t

theorem dispatch_atomic_iff (operation : Operation) :
    Atomic (dispatch env o request operation) t
      ↔ ¬Slips env o request t operation := by
  cases operation with
  | list => exact iff_of_true (atomic_look _) not_false
  | download => exact iff_of_true (atomic_look _) not_false
  | readText => exact iff_of_true (atomic_look _) not_false
  | createFile =>
      refine createFile_atomic_iff.trans ?_
      simp only [Slips, not_exists, not_and]
  | upload =>
      refine upload_atomic_iff.trans ?_
      simp only [Slips, not_exists, not_and]
  | writeText =>
      refine writeText_atomic_iff.trans ?_
      simp only [Slips, not_exists, not_and]
  | mkdir =>
      refine makeDirectory_atomic_iff.trans ?_
      simp only [Slips, not_exists, not_and]
  | rename =>
      refine renameOperation_atomic_iff.trans ?_
      simp only [Slips, not_exists, not_and]
  | delete =>
      refine deleteOperation_atomic_iff.trans ?_
      simp only [Slips, not_exists, not_and]
  | batchDelete =>
      refine batchDelete_atomic_iff.trans ?_
      simp only [Slips, not_exists, not_and, ne_eq, not_not]

/-- What the request asks for, and the root it names. -/
def requested (request : Json) : Option Operation :=
  operation? ((request.object?.getD []).get "operation")

def requestedRoot (request : Json) : Json :=
  (request.object?.getD []).get "root"

theorem executeSiteFileOperation_atomic_iff :
    Atomic (executeSiteFileOperation env o request) t
      ↔ ∀ operation, requested request = some operation →
        managedRoot o (requestedRoot request) = .ok () →
          ¬Slips env o request t operation := by
  unfold executeSiteFileOperation
  rw [show operation? ((request.object?.getD []).get "operation")
    = requested request from rfl]
  cases requested request with
  | none =>
      refine iff_of_true ?_ fun _ h => by cases h
      intro e u hrun
      exact (Prod.mk.inj hrun).2.symm
  | some operation =>
      refine atomic_attempt_fail_iff.trans ?_
      have hlook : (do
          ofExcept (managedRoot o ((request.object?.getD []).get "root"))
          dispatch env o request operation : Run Result)
          = (do
            look fun _ => managedRoot o (requestedRoot request)
            dispatch env o request operation) := rfl
      rw [hlook, atomic_look_bind_iff]
      constructor
      · intro h operation' heq hroot
        obtain rfl := Option.some.inj heq
        exact (dispatch_atomic_iff operation).mp (h () hroot)
      · intro h _ hroot
        exact (dispatch_atomic_iff operation).mpr (h operation rfl hroot)

end Yunpanel.SiteFiles
