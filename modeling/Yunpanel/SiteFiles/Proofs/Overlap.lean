/-
Of overlapping text edits that expect the same digest one at most is
accepted, as long as none replaces a file that has changed since it was
read.

# Between the halves

The digest is compared when the file is read, not when it is replaced. Two
workers that have both read it both replace it, and both are accepted
(`both_edits_accepted`). `Careful` says that the file still has the digest
when it is replaced, and that what is written has another: then nothing is
replaced after the first edit.
-/
import Yunpanel.SiteFiles.Proofs.Worker

namespace Yunpanel.SiteFiles

open Lib Lib.Exec Lib.Result

variable {env : Env} {o : Answers} {t : Tree}

-- ====== edits

/-- The file at a path has a digest. -/
def HasDigest (env : Env) (t : Tree) (item : Path) (sha256 : String) :
    Prop :=
  ∃ content mode, t item = some (.file content mode)
    ∧ env.sha256 content = sha256

instance (env : Env) (t : Tree) (item : Path) (sha256 : String) :
    Decidable (HasDigest env t item sha256) :=
  match h : t item with
  | some (.file content mode) =>
      decidable_of_iff (env.sha256 content = sha256)
        ⟨fun hd => ⟨content, mode, h, hd⟩, fun ⟨c, m, hf, hd⟩ => by
          rw [h] at hf
          obtain ⟨rfl, -⟩ := Node.file.inj (Option.some.inj hf)
          exact hd⟩
  | some (.directory _) =>
      .isFalse fun ⟨c, m, hf, _⟩ => by
        rw [h] at hf
        cases hf
  | some (.symlink _) =>
      .isFalse fun ⟨c, m, hf, _⟩ => by
        rw [h] at hf
        cases hf
  | some (.other _) =>
      .isFalse fun ⟨c, m, hf, _⟩ => by
        rw [h] at hf
        cases hf
  | none =>
      .isFalse fun ⟨c, m, hf, _⟩ => by
        rw [h] at hf
        cases hf

/-- A request to edit a file of an expected digest. -/
structure Edits (request : Json) (item : Path) (expected : String) :
    Prop where
  operation : requested request = some .writeText
  path : relativePath ((request.object?.getD []).get "path") false "path"
    = .ok item
  digest : (request.object?.getD []).get "expectedSha256" = .str expected

theorem regularFile_eq_ok {maxBytes : Nat} {info : Node} {content : Bytes}
    (h : regularFile maxBytes info = .ok content) :
    ∃ mode, info = .file content mode := by
  cases info with
  | directory mode => cases h
  | symlink mode => cases h
  | other mode => cases h
  | file found mode =>
      unfold regularFile at h
      dsimp only at h
      split at h
      · cases h
      · exact ⟨mode, by rw [Except.ok.inj h]⟩

variable {p : Planned} {u : Tree}

/-- What was planned is an edit of the file that was asked for, and it had
the digest that was expected. -/
theorem editPlan_eq_ok {request : Json} {item : Path} {expected : String}
    (hedits : Edits request item expected)
    (h : editPlan env o request t = .ok p) :
    p.absolute = item ∧ HasDigest env t item expected := by
  unfold editPlan at h
  obtain ⟨u, -, h⟩ := bind_eq_ok.mp h
  unfold writeTextPlan at h
  obtain ⟨fields, hfields, h⟩ := bind_eq_ok.mp h
  have hobject : request.object?.getD [] = fields := by
    unfold exactRequest at hfields
    cases request with
    | obj all =>
        cases hexact : Json.exactObject
            ["operation", "root", "path", "content", "expectedSha256"]
            (.obj all) with
        | none =>
            rw [hexact] at hfields
            cases hfields
        | some found =>
            rw [hexact] at hfields
            obtain rfl := Except.ok.inj hfields
            unfold Json.exactObject at hexact
            dsimp only at hexact
            split at hexact
            · exact Option.some.inj hexact
            · cases hexact
    | null => cases hfields
    | bool b => cases hfields
    | num n => cases hfields
    | str s => cases hfields
    | arr items => cases hfields
  obtain ⟨⟨text, expected'⟩, htexts, h⟩ := bind_eq_ok.mp h
  obtain ⟨item', hitem, h⟩ := bind_eq_ok.mp h
  obtain ⟨⟨absolute, info⟩, hwalk, h⟩ := bind_eq_ok.mp h
  obtain ⟨previous, hprevious, h⟩ := bind_eq_ok.mp h
  obtain ⟨u', -, h⟩ := bind_eq_ok.mp h
  have hpath := hedits.path
  rw [hobject, hitem] at hpath
  obtain rfl := Except.ok.inj hpath
  have hexpected : expected' = expected := by
    have hdigest := hedits.digest
    rw [hobject] at hdigest
    unfold editTexts at htexts
    rw [hdigest] at htexts
    split at htexts
    · rename_i content e hcontent he
      split at htexts
      · have hsecond := (Prod.mk.inj (Except.ok.inj htexts)).2
        rw [← hsecond]
        exact (Option.some.inj he).symm
      · cases htexts
    · cases htexts
  split at h
  · cases h
  · rename_i hdigest
    split at h
    · cases h
    · obtain rfl := Except.ok.inj h
      obtain rfl := walk_path hwalk
      obtain ⟨mode, rfl⟩ := regularFile_eq_ok hprevious
      refine ⟨rfl, previous, mode, walk_eq_ok hwalk, ?_⟩
      rw [not_not.mp hdigest, hexpected]

/-- An edit that is accepted has put its text in the place of the file. -/
theorem replaceText_run {r : Result}
    (h : (replaceText env o p).run t = (.ok r, u)) :
    u = t.put p.absolute (some (.file p.content p.mode)) := by
  unfold replaceText at h
  cases hrun : (carryOut env o p).run t with
  | mk r' v =>
      cases r' with
      | error e =>
          rw [run_bind_error hrun] at h
          cases h
      | ok m =>
          rw [run_bind_ok hrun] at h
          rw [← (Prod.mk.inj h).2]
          exact carryOut_run hrun

-- ====== overlap

section Overlap

variable {ι : Type} [DecidableEq ι] {request : ι → Json} {item : Path}
  {expected : String}

def Accepted (s : Shared ι) (i : ι) : Prop :=
  ∃ r, s.editor i = .finished (.ok r)

variable {s : Shared ι} {i : ι}

omit [DecidableEq ι] in
theorem accepted_iff :
    Accepted s i ↔ (match s.editor i with
      | .finished (.ok _) => true
      | _ => false) = true := by
  unfold Accepted
  cases s.editor i with
  | waiting => exact iff_of_false (fun ⟨_, h⟩ => by cases h) nofun
  | holding p => exact iff_of_false (fun ⟨_, h⟩ => by cases h) nofun
  | finished result =>
      cases result with
      | ok r => exact iff_of_true ⟨r, rfl⟩ rfl
      | error e =>
          refine iff_of_false (fun ⟨_, h⟩ => ?_) nofun
          cases Editor.finished.inj h

instance (s : Shared ι) (i : ι) : Decidable (Accepted s i) :=
  decidable_of_iff _ accepted_iff.symm

/-- The operation is the two halves of an edit. -/
theorem executeSiteFileOperation_eq {request : Json}
    (hrequested : requested request = some .writeText) :
    executeSiteFileOperation env o request
      = attempt (do
          let planned ← look (editPlan env o request)
          replaceText env o planned)
        fun e => fail e.mapSystemError := by
  unfold executeSiteFileOperation
  rw [show operation? ((request.object?.getD []).get "operation")
    = some .writeText from hrequested]
  funext u
  unfold editPlan dispatch writeText
  dsimp only
  cases hroot : managedRoot o ((request.object?.getD []).get "root") with
  | error e => rfl
  | ok v => rfl

/-- A worker that is let do its two halves one right after the other does
the operation. -/
theorem step_step (s : Shared ι) (i : ι) (o : Answers)
    (hwaiting : s.editor i = .waiting)
    (hrequested : requested (request i) = some .writeText) :
    ((s.step env request i o).step env request i o).editor i = .finished
        ((executeSiteFileOperation env o (request i)).run s.tree).1
      ∧ ((s.step env request i o).step env request i o).tree
        = ((executeSiteFileOperation env o (request i)).run s.tree).2 := by
  rw [executeSiteFileOperation_eq hrequested]
  cases hplan : editPlan env o (request i) s.tree with
  | error e =>
      have hfirst : s.step env request i o = { s with
          editor := Function.update s.editor i
            (.finished (.error e.mapSystemError)) } := by
        unfold Shared.step
        rw [hwaiting]
        dsimp only
        rw [hplan]
      have hrun : (attempt (do
          let planned ← look (editPlan env o (request i))
          replaceText env o planned)
          (fun e => fail e.mapSystemError)).run s.tree
          = (.error e.mapSystemError, s.tree) :=
        run_attempt_error (run_bind_error
          (show (look (editPlan env o (request i))).run s.tree
            = (.error e, s.tree) from Prod.ext hplan rfl))
      rw [hrun, hfirst]
      unfold Shared.step
      dsimp only
      rw [Function.update_self]
      exact ⟨Function.update_self .., rfl⟩
  | ok p =>
      have hfirst : s.step env request i o = { s with
          editor := Function.update s.editor i (.holding p) } := by
        unfold Shared.step
        rw [hwaiting]
        dsimp only
        rw [hplan]
      have hlook : (do
          let planned ← look (editPlan env o (request i))
          replaceText env o planned : Run Result).run s.tree
          = (replaceText env o p).run s.tree :=
        run_bind_ok (show (look (editPlan env o (request i))).run s.tree
          = (.ok p, s.tree) from Prod.ext hplan rfl)
      rw [hfirst]
      unfold Shared.step
      dsimp only
      rw [Function.update_self]
      dsimp only
      cases hrun : (replaceText env o p).run s.tree with
      | mk r u =>
          rw [hrun] at hlook
          cases r with
          | ok a =>
              rw [run_attempt_ok hlook]
              exact ⟨Function.update_self .., rfl⟩
          | error e =>
              rw [run_attempt_error hlook]
              exact ⟨Function.update_self .., rfl⟩

/-- A file is replaced only while it has the digest that was expected, and
by one of another digest. -/
def Careful (env : Env) (item : Path) (expected : String) (s : Shared ι)
    (input : ι × Answers) : Prop :=
  ∀ p, s.editor input.1 = .holding p →
    HasDigest env s.tree item expected ∧ env.sha256 p.content ≠ expected

instance (env : Env) (item : Path) (expected : String) (s : Shared ι)
    (input : ι × Answers) : Decidable (Careful env item expected s input) :=
  match h : s.editor input.1 with
  | .holding p =>
      decidable_of_iff (HasDigest env s.tree item expected
          ∧ env.sha256 p.content ≠ expected)
        ⟨fun hc q hq => by
          rw [h] at hq
          rw [← Editor.holding.inj hq]
          exact hc, fun hc => hc p h⟩
  | .waiting => .isTrue fun q hq => by
      rw [h] at hq
      cases hq
  | .finished _ => .isTrue fun q hq => by
      rw [h] at hq
      cases hq

/-- What is held is an edit of the file; once an edit has been accepted the
file has another digest, and no other was accepted. -/
structure Exclusive (env : Env) (item : Path) (expected : String)
    (s : Shared ι) : Prop where
  held : ∀ i p, s.editor i = .holding p → p.absolute = item
  moved : ∀ i, Accepted s i → ¬HasDigest env s.tree item expected
  one : ∀ i j, Accepted s i → Accepted s j → i = j

/-- A worker that comes to something other than being accepted, with the
tree as it was, leaves it at that. -/
theorem Exclusive.update (h : Exclusive env item expected s) {next : Editor}
    (hheld : ∀ p, next = .holding p →
      p.absolute = item) (hnot : ∀ r, next ≠ .finished (.ok r)) :
    Exclusive env item expected
      { s with editor := Function.update s.editor i next } := by
  have hback : ∀ j, Accepted
      { s with editor := Function.update s.editor i next } j →
        Accepted s j := by
    intro j ⟨r, hr⟩
    dsimp only at hr
    by_cases hj : j = i
    · subst hj
      rw [Function.update_self] at hr
      exact absurd hr (hnot r)
    · rw [Function.update_of_ne hj] at hr
      exact ⟨r, hr⟩
  refine ⟨fun j p hp => ?_, fun j hj => h.moved j (hback j hj),
    fun j k hj hk => h.one j k (hback j hj) (hback k hk)⟩
  dsimp only at hp
  by_cases hj : j = i
  · subst hj
    rw [Function.update_self] at hp
    exact hheld p hp
  · rw [Function.update_of_ne hj] at hp
    exact h.held j p hp

/-- Once the file is replaced by one of another digest, the one who did so
is the only one accepted. -/
theorem Exclusive.replace (h : Exclusive env item expected s)
    {result : Except Thrown Result}
    (hfirst : HasDigest env s.tree item expected)
    (hu : ∀ r, result = .ok r → ¬HasDigest env u item expected) :
    Exclusive env item expected
      ⟨u, Function.update s.editor i (.finished result)⟩ := by
  have hnone : ∀ j, ¬Accepted s j := fun j hj => h.moved j hj hfirst
  have hself : ∀ j, Accepted
      ⟨u, Function.update s.editor i (.finished result)⟩ j →
        j = i ∧ ∃ r, result = .ok r := by
    intro j ⟨r, hr⟩
    dsimp only at hr
    by_cases hj : j = i
    · subst hj
      rw [Function.update_self] at hr
      exact ⟨rfl, r, Editor.finished.inj hr⟩
    · rw [Function.update_of_ne hj] at hr
      exact absurd ⟨r, hr⟩ (hnone j)
  refine ⟨fun j p hp => ?_, fun j hj => ?_, fun j k hj hk => ?_⟩
  · dsimp only at hp
    by_cases hj : j = i
    · subst hj
      rw [Function.update_self] at hp
      cases hp
    · rw [Function.update_of_ne hj] at hp
      exact h.held j p hp
  · obtain ⟨-, r, hr⟩ := hself j hj
    exact hu r hr
  · exact (hself j hj).1.trans (hself k hk).1.symm

theorem exclusive_step (hedits : ∀ i, Edits (request i) item expected)
    (s : Shared ι) (input : ι × Answers)
    (hcareful : Careful env item expected s input)
    (h : Exclusive env item expected s) :
    Exclusive env item expected (s.step env request input.1 input.2) := by
  obtain ⟨i, o⟩ := input
  unfold Shared.step
  cases heditor : s.editor i with
  | waiting =>
      dsimp only
      cases hplan : editPlan env o (request i) s.tree with
      | ok p =>
          refine h.update (fun q hq => ?_) fun r hr => by cases hr
          rw [← Editor.holding.inj hq]
          exact (editPlan_eq_ok (hedits i) hplan).1
      | error e =>
          exact h.update (fun q hq => by cases hq) fun r hr => by
            cases Editor.finished.inj hr
  | holding p =>
      dsimp only
      obtain ⟨hfirst, hother⟩ := hcareful p heditor
      refine h.replace hfirst fun r hr => ?_
      cases hrun : (replaceText env o p).run s.tree with
      | mk result u =>
          rw [hrun] at hr
          cases result with
          | error e => cases hr
          | ok a =>
              rw [replaceText_run hrun, h.held i p heditor]
              intro ⟨content, mode, hfile, hdigest⟩
              dsimp only at hfile
              rw [put_self] at hfile
              obtain ⟨rfl, -⟩ := Node.file.inj (Option.some.inj hfile)
              exact hother hdigest
  | finished result => exact h

/-- All workers at the beginning. -/
def Fresh (s : Shared ι) : Prop := ∀ i, s.editor i = .waiting

omit [DecidableEq ι] in
theorem exclusive_of_fresh (h : Fresh s) :
    Exclusive env item expected s := by
  have hnone : ∀ i, ¬Accepted s i := by
    intro i ⟨r, hr⟩
    rw [h i] at hr
    cases hr
  refine ⟨fun i p hp => ?_, fun i hi => absurd hi (hnone i),
    fun i j hi => absurd hi (hnone i)⟩
  rw [h i] at hp
  cases hp

end Overlap

-- ====== the law

/-- A request that is rejected leaves the tree as it was exactly where its
operation does not slip; and of text edits of one file that expect the same
digest one at most is accepted, however they overlap, in a run that is
careful. -/
theorem site_files_kept_iff (env : Env) (o : Answers) (request : Json)
    (t : Tree) :
    ((∀ e u, (executeSiteFileOperation env o request).run t = (.error e, u) →
        u = t)
      ↔ ∀ operation, requested request = some operation →
        managedRoot o (requestedRoot request) = .ok () →
          ¬Slips env o request t operation)
    ∧ ∀ (ι : Type) [DecidableEq ι] (requests : ι → Json) (item : Path)
        (expected : String) (s : Shared ι) (inputs : List (ι × Answers)),
      (∀ i, Edits (requests i) item expected) → Fresh s →
      (editing env requests).Allowed (Careful env item expected) s inputs →
      ∀ i j, Accepted ((editing env requests).run s inputs) i →
        Accepted ((editing env requests).run s inputs) j → i = j := by
  refine ⟨executeSiteFileOperation_atomic_iff, ?_⟩
  intro ι _ requests item expected s inputs hedits hfresh hcareful
  have hstep : ∀ s input, Careful env item expected s input →
      Exclusive env item expected s →
      Exclusive env item expected ((editing env requests).next s input) :=
    fun s input => exclusive_step hedits s input
  exact (Machine.invariant_of_allowed hstep hcareful
    (exclusive_of_fresh hfresh)).one

section Examples

/-- A digest that tells how long a file is. -/
def someEnv : Env where
  sha256 bytes :=
    String.ofList ((Nat.toDigits 10 bytes.length).leftpad 64 '0')
  compare := compare
  uid _ := 1000
  gid _ := 1000
  modifiedAt _ := "2026-01-01T00:00:00.000Z"

def someRoot : String :=
  "/var/www/yunpanel/apps/11111111-1111-4111-8111-111111111111/current"

def someAnswers : Answers where
  realpath := .ok someRoot
  suffix := "000000000000000000000000"

def someTree : Tree := fun p =>
  if p = [] then some (.directory 488)
  else if p = ["index.html"] then some (.file [104, 105] 416)
  else none

/-- To write a text over two bytes. -/
def someEdit (content : String) : Json :=
  .obj [("operation", .str "write_text"), ("root", .str someRoot),
    ("path", .str "index.html"), ("content", .str content),
    ("expectedSha256", .str (someEnv.sha256 [104, 105]))]

def twoEditors : Shared Bool where
  tree := someTree
  editor _ := .waiting

def someRequests (i : Bool) : Json :=
  if i then someEdit "hello" else someEdit "hey"

theorem edits_some (i : Bool) : Edits (someRequests i) ["index.html"]
    (someEnv.sha256 [104, 105]) := by
  cases i
  all_goals exact ⟨rfl, by decide +kernel, rfl⟩

/-- The law where one edit comes after the other: the first is accepted and
the second is not. -/
theorem site_files_kept_some :
    Accepted ((editing someEnv someRequests).run twoEditors
        [(true, someAnswers), (true, someAnswers), (false, someAnswers),
          (false, someAnswers)]) true
      ∧ ¬Accepted ((editing someEnv someRequests).run twoEditors
        [(true, someAnswers), (true, someAnswers), (false, someAnswers),
          (false, someAnswers)]) false := by
  have hfirst : Accepted ((editing someEnv someRequests).run twoEditors
      [(true, someAnswers), (true, someAnswers), (false, someAnswers),
        (false, someAnswers)]) true := by decide +kernel
  refine ⟨hfirst, fun hsecond => ?_⟩
  have hsame := (site_files_kept_iff someEnv someAnswers .null someTree).2
    Bool someRequests ["index.html"] (someEnv.sha256 [104, 105]) twoEditors
    [(true, someAnswers), (true, someAnswers), (false, someAnswers),
      (false, someAnswers)] edits_some (fun _ => rfl) (by decide +kernel)
    true false hfirst hsecond
  cases hsame

/-- A batch of a file and a value that is no path is rejected, and the file
is gone. Two edits that have both read the file are both accepted. -/
theorem batch_removes_and_both_edits_accepted :
    ((executeSiteFileOperation someEnv someAnswers
        (.obj [("operation", .str "batch_delete"), ("root", .str someRoot),
          ("paths", .arr [.str "index.html", .str "../etc"])])).run
            someTree).1 = .error (.pathInvalid "path")
      ∧ ((executeSiteFileOperation someEnv someAnswers
          (.obj [("operation", .str "batch_delete"), ("root", .str someRoot),
            ("paths", .arr [.str "index.html", .str "../etc"])])).run
              someTree).2 ["index.html"] = none
      ∧ Accepted ((editing someEnv someRequests).run twoEditors
          [(true, someAnswers), (false, someAnswers), (true, someAnswers),
            (false, someAnswers)]) true
      ∧ Accepted ((editing someEnv someRequests).run twoEditors
          [(true, someAnswers), (false, someAnswers), (true, someAnswers),
            (false, someAnswers)]) false := by
  decide +kernel

end Examples

end Yunpanel.SiteFiles
