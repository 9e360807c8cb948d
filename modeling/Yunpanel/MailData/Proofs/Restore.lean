/-
A restore that fails gives the old tree back, as long as the removal of
what was put aside does not stop half-way.

# The way through

Until the live tree is renamed only the stage has changed. From then on
the old tree is what is put aside (`Recoverable`), and the rollback brings
back what is there. The removal of what was put aside is in the same `try`:
where it stops half-way, what is put back is what it has left, and the call
says that the previous state was restored.

# What is proved

A restore that returns has put the backup in place and left nothing beside
it. One that rejects with another code than those of a failed rollback or
clean-up has left the tree as it was exactly where it does not lose
entries so (`Loses`).
-/
import Yunpanel.MailData.Restore
import Yunpanel.MailData.Proofs.Disk

namespace Yunpanel.MailData.Restore

open Lib Lib.Exec Lib.Result

variable {dg : Digests} {request : Request} {o : Answers dg} {d s : Disk}

-- ====== preparing

/-- What was looked up before anything is changed. -/
theorem checked_eq_ok {c : Checked dg}
    (h : checked request o d = .ok c) :
    o.selected = .ok c.selected ∧ c.present = (d.tree .target).isSome
      ∧ d.tree .previous = none := by
  unfold checked at h
  obtain ⟨selected, hs, h⟩ := bind_eq_ok.mp h
  split at h
  · cases h
  · obtain ⟨target, htarget, h⟩ := bind_eq_ok.mp h
    obtain ⟨inspection, -, hpresent⟩ := bind_eq_ok.mp htarget
    obtain rfl := Except.ok.inj hpresent
    split at h
    · cases h
    · split at h
      · cases h
      · obtain ⟨preRestore, -, h⟩ := bind_eq_ok.mp h
        obtain ⟨previous, hprevious, h⟩ := bind_eq_ok.mp h
        cases previous with
        | true => cases h
        | false =>
            obtain ⟨same, -, h⟩ := bind_eq_ok.mp h
            cases same with
            | false => cases h
            | true =>
                obtain rfl := Except.ok.inj h
                exact ⟨checkRequest_eq_ok hs, rfl,
                  tree_of_pathState hprevious⟩

theorem keeps_makeManaged {I : Disk → Prop}
    (h : ∀ d p, I d → I (d.make p true)) (a : ParentAnswers) (p : Parent)
    (created : List Parent) : Keeps I (makeManaged a p created) := by
  refine keeps_bind (fun _ h => h) fun present => ?_
  refine keeps_ite (keeps_pure _) ?_
  refine keeps_bind (keeps_ofExcept _) fun _ => ?_
  refine keeps_bind (keeps_modify fun d hd => h d p hd) fun _ => ?_
  refine keeps_bind (keeps_ofExcept _) fun _ => ?_
  exact keeps_bind (keeps_ofExcept _) fun _ => keeps_pure _

theorem keeps_ensureManaged {I : Disk → Prop}
    (h : ∀ d p, I d → I (d.make p true)) (ps created : List Parent) :
    Keeps I (ensureManaged o ps created) := by
  induction ps generalizing created with
  | nil => exact keeps_pure _
  | cons p ps ih =>
      refine keeps_bind (keeps_makeManaged h _ _ _) fun created' => ?_
      refine keeps_bind (keeps_ofExcept _) fun _ => ?_
      exact keeps_ite (keeps_fail _) (ih created')

theorem ensureManagedParent_meets (scope : Scope) :
    Meets (ensureManagedParent o scope) s (fun _ d => d.tree = s.tree)
      fun _ d => d.tree = s.tree := by
  refine Keeps.meets (keeps_bind (keeps_ofExcept _) fun _ => ?_) rfl
  exact keeps_ensureManaged (fun _ _ h => h) _ _

/-- The parents are there and the stage is not; the live tree and what is
put aside are as they were. -/
structure Prepared (s d : Disk) : Prop where
  target : d.tree .target = s.tree .target
  previous : d.tree .previous = s.tree .previous
  stage : d.tree .stage = none
  begun : d.begun = false

theorem prepare_meets (scope : Scope) :
    Meets (prepare o scope) s (fun _ d => Prepared s d)
      fun _ d => d.tree .target = s.tree .target := by
  refine ((ensureManagedParent_meets scope).mono (fun _ _ h => h)
    fun _ _ h => congrFun h _).bind fun created d hd => ?_
  refine meets_look_bind (fun here hhere => ?_) fun _ _ => congrFun hd _
  have hclear : Meets (onlyIf here (rm o.stageCleared true .stage)) d
      (fun _ d' => d'.tree .target = s.tree .target
        ∧ d'.tree .previous = s.tree .previous ∧ d'.tree .stage = none)
      fun _ d' => d'.tree .target = s.tree .target := by
    refine meets_onlyIf (fun _ => ?_) fun habsent => ?_
    · refine (rm_spec _ _ _).mono (fun _ d' h => ?_) fun _ d' h => ?_
      · rw [h.1]
        simp [hd]
      · rw [h.2.1]
        simp [hd]
    · rw [hd]
      refine ⟨rfl, rfl, ?_⟩
      rw [habsent] at hhere
      rw [← hd]
      exact tree_of_pathState hhere
  refine hclear.bind fun _ d' h => meets_modify_bind (meets_pure ?_)
  exact ⟨h.1, h.2.1, h.2.2, rfl⟩

-- ====== stage

/-- Only the stage has changed. -/
structure Beside (s d : Disk) : Prop where
  target : d.tree .target = s.tree .target
  previous : d.tree .previous = s.tree .previous
  begun : d.begun = s.begun

theorem Beside.refl (s : Disk) : Beside s s := ⟨rfl, rfl, rfl⟩

theorem Beside.addToStage (h : Beside s d) (e : Entry) :
    Beside s (addToStage e d) where
  target := by simpa [Restore.addToStage] using h.target
  previous := by simpa [Restore.addToStage] using h.previous
  begun := h.begun

/-- The stage holds the entries that were added. -/
def Holds (d : Disk) : List Entry → Prop
  | [] => d.tree .stage = none
  | _ :: es => d.tree .stage = some ⟨es⟩

variable {done : List Entry} {e : Entry} {t : Option Tree} {present : Bool}
  {created : List Parent} {d₁ : Disk}

theorem Holds.add (h : Holds d done) :
    Holds (addToStage e d) (done ++ [e]) := by
  cases done with
  | nil =>
      have hnone : d.tree .stage = none := h
      simp [Holds, addToStage, hnone]
  | cons first done =>
      have hsome : d.tree .stage = some ⟨done⟩ := h
      simp [Holds, addToStage, hsome]

/-- An entry that can be counted is in the stage when it has been made. -/
theorem makeEntry_meets (hbeside : Beside s d) :
    Meets (makeEntry o e) d
      (fun _ d' => Beside s d' ∧ (e.isPlain → d' = addToStage e d))
      fun _ d' => Beside s d' := by
  unfold makeEntry
  cases hnode : e.node with
  | directory =>
      refine meets_ofExcept_bind (fun _ _ => ?_) fun _ _ => hbeside
      exact meets_modify_bind (meets_ofExcept
        (fun _ _ => ⟨hbeside.addToStage e, fun _ => rfl⟩)
        fun _ _ => hbeside.addToStage e)
  | file content =>
      dsimp only
      unfold copyBackupFile
      cases o.stageCopied e.relative with
      | copied => exact meets_modify ⟨hbeside.addToStage e, fun _ => rfl⟩
      | failed left =>
          cases left with
          | none => exact meets_fail hbeside
          | some half =>
              exact meets_modify_bind (meets_fail (hbeside.addToStage _))
  | symlink => exact meets_pure ⟨hbeside, fun h => absurd hnode h.1⟩
  | special => exact meets_pure ⟨hbeside, fun h => absurd hnode h.2⟩

theorem visit_meets (p : Progress) (e : Entry) (hbeside : Beside s d)
    (hholds : Holds d done) :
    Meets (visit o p e) d
      (fun q d' => p.add dg e = .ok q ∧ Beside s d'
        ∧ Holds d' (done ++ [e]))
      fun _ d' => Beside s d' := by
  refine (makeEntry_meets hbeside).bind fun _ d' h => ?_
  refine meets_ofExcept (fun q hq => ?_) fun _ _ => h.1
  have hadd : p.add dg e = .ok q := by
    cases hp : p.add dg e with
    | ok q' =>
        rw [hp] at hq
        exact congrArg _ (Except.ok.inj hq)
    | error r =>
        rw [hp] at hq
        cases hq
  refine ⟨hadd, h.1, ?_⟩
  rw [h.2 (add_eq_ok hadd).1]
  exact hholds.add

/-- A stage that was made is the tree it was made from, and its content
that of the tree. -/
theorem materializeTree_meets (t : Tree) (hstage : s.tree .stage = none) :
    Meets (materializeTree o t) s
      (fun c d => t.content dg = .ok c ∧ Beside s d
        ∧ d.tree .stage = some t)
      fun _ d => Beside s d := by
  have hloop : Meets (t.entries.foldlM (visit o) {}) s
      (fun q d => t.entries.foldlM (Progress.add dg) {} = .ok q
        ∧ Beside s d ∧ Holds d t.entries) fun _ d => Beside s d := by
    refine meets_foldlM (P := fun done q d =>
      done.foldlM (Progress.add dg) {} = .ok q ∧ Beside s d
        ∧ Holds d done) ⟨rfl, Beside.refl s, hstage⟩ ?_
    intro done e p d ⟨hfold, hbeside, hholds⟩
    refine (visit_meets p e hbeside hholds).mono (fun q d' h => ?_)
      fun _ _ h => h
    refine ⟨?_, h.2⟩
    rw [List.foldlM_append, hfold]
    change ([e].foldlM (Progress.add dg) p) = .ok q
    rw [List.foldlM_cons, h.1]
    rfl
  refine hloop.bind fun q d h => meets_pure ⟨?_, h.2⟩
  unfold Tree.content
  rw [h.1]
  rfl

-- ====== swap

/-- The tree comes back: it is still in place, or it is what was put
aside. -/
def Recoverable (present : Bool) (t : Option Tree) (d : Disk) : Prop :=
  d.begun = false ∧ d.tree .target = t
    ∨ d.begun = true ∧ (present = true → d.tree .previous = t)
      ∧ (present = false → t = none)

/-- The backup is in place, and what was there is put aside. -/
structure Swapped (c : Checked dg) (t : Option Tree) (d : Disk) : Prop where
  target : d.tree .target = some c.selected.data
  stage : d.tree .stage = none
  previous : d.tree .previous = t
  begun : d.begun = true

theorem Swapped.recoverable {c : Checked dg} (h : Swapped c t d)
    (hpresent : c.present = t.isSome) :
    Recoverable c.present t d := by
  refine .inr ⟨h.begun, fun _ => h.previous, fun habsent => ?_⟩
  rw [hpresent] at habsent
  exact Option.isSome_eq_false_iff.mp habsent
    |> Option.isNone_iff_eq_none.mp

theorem activate_meets {c : Checked dg}
    (hpresent : c.present = (s.tree .target).isSome)
    (hprevious : s.tree .previous = none) (hstage : s.tree .stage = none)
    (hbegun : s.begun = false) :
    Meets (activate request o c) s
      (fun _ d => Swapped c (s.tree .target) d)
      fun _ d => Recoverable c.present (s.tree .target) d := by
  have hstill : ∀ d, Beside s d →
      Recoverable c.present (s.tree .target) d :=
    fun d h => .inl ⟨h.begun.trans hbegun, h.target⟩
  refine ((materializeTree_meets c.selected.data hstage).mono
    (fun _ _ h => h) fun _ d h => hstill d h).bind fun staged d h => ?_
  obtain ⟨-, hbeside, hholds⟩ := h
  refine meets_ite (fun _ => meets_fail (hstill d hbeside)) fun _ => ?_
  refine meets_look_bind (fun live _ => ?_) fun _ _ => hstill d hbeside
  refine meets_look_bind (fun same _ => ?_) fun _ _ => hstill d hbeside
  refine meets_ite (fun _ => meets_fail (hstill d hbeside)) fun _ => ?_
  have haside : Meets (onlyIf c.present (do
        rename o.setAside .target .previous
        modify (Disk.begin true))) d
      (fun _ d' => d'.tree .target = none
        ∧ d'.tree .previous = s.tree .target
        ∧ d'.tree .stage = some c.selected.data
        ∧ Recoverable c.present (s.tree .target) d')
      fun _ d' => Recoverable c.present (s.tree .target) d' := by
    refine meets_onlyIf (fun hthere => ?_) fun habsent => ?_
    · refine ((rename_spec _ _ _).mono (fun _ _ h => h)
        fun _ _ h => h.2 ▸ hstill d hbeside).bind fun _ d' h => ?_
      obtain ⟨-, t, ht, rfl⟩ := h
      rw [hbeside.target] at ht
      refine meets_modify ⟨by simp, by simp [ht], by simp [hholds],
        .inr ⟨rfl, fun _ => by simp [ht], fun hf => ?_⟩⟩
      rw [hthere] at hf
      cases hf
    · have hnone : s.tree .target = none := by
        rw [hpresent] at habsent
        exact Option.isSome_eq_false_iff.mp habsent
          |> Option.isNone_iff_eq_none.mp
      refine ⟨hbeside.target.trans hnone, ?_, hholds, hstill d hbeside⟩
      rw [hbeside.previous, hprevious, hnone]
  refine haside.bind fun _ d' h => ?_
  obtain ⟨htarget, hput, hstaged, hrecover⟩ := h
  refine ((rename_spec _ _ _).mono (fun _ _ h => h)
    fun _ _ h => h.2 ▸ hrecover).bind fun _ d'' h => ?_
  obtain ⟨-, t, ht, rfl⟩ := h
  obtain rfl : c.selected.data = t := Option.some.inj (hstaged.symm.trans ht)
  refine meets_modify_bind (meets_read_bind ?_)
  have hswapped : Swapped c (s.tree .target)
      (((d'.put .stage none).put .target (some c.selected.data)).begin
        true) :=
    ⟨by simp, by simp, by simp [hput], rfl⟩
  exact meets_ite (fun _ => meets_fail (hswapped.recoverable hpresent))
    fun _ => meets_pure hswapped

-- ====== undoing

/-- One of the codes that say that the old state is not confirmed. -/
def Exempt (e : Rejection) : Prop :=
  e.code = some rollbackFailedCode ∨ e.code = some cleanupFailedCode

theorem removeDirectory_meets (p : Parent) :
    Meets (removeDirectory o p) s (fun _ d => d.tree = s.tree)
      fun e d => Exempt e ∧ d.tree = s.tree := by
  unfold removeDirectory
  cases o.rmdir p with
  | removed => exact meets_modify rfl
  | missing => exact meets_pure rfl
  | notEmpty => exact meets_pure rfl
  | failed => exact meets_fail ⟨.inr rfl, rfl⟩

/-- The clean-up touches no tree. -/
theorem cleanupCreatedParents_meets (created : List Parent) :
    Meets (cleanupCreatedParents o created) s (fun _ d => d.tree = s.tree)
      fun e d => Exempt e ∧ d.tree = s.tree := by
  refine meets_forEach (P := fun _ (d : Disk) => d.tree = s.tree) rfl ?_
  intro done p rest d _ hd
  rw [← hd]
  exact removeDirectory_meets p

/-- The rollback has put back what was put aside, unless it says that it
failed. -/
theorem rollbackSwap_meets
    (hprevious : present = true → s.tree .previous = t)
    (habsent : present = false → t = none) :
    Meets (rollbackSwap o present) s
      (fun _ d => d.tree .target = t
        ∧ (present = true → t ≠ none ∧ o.putBack = none)
        ∧ (s.tree .target ≠ none → o.targetDropped.fate = none))
      fun e _ => Exempt e := by
  refine Meets.bind (R := fun _ d => d = s.put .target none
      ∧ (s.tree .target ≠ none → o.targetDropped.fate = none)) ?_
    fun _ d h => ?_
  · refine Meets.attempt (R := fun _ _ => True) ?_
      fun _ _ _ => meets_fail (.inl rfl)
    refine (rm_spec _ _ _).mono (fun _ d h => ⟨h.1, fun hthere => ?_⟩)
      fun _ _ _ => trivial
    exact h.2.resolve_left hthere
  · obtain ⟨rfl, hdropped⟩ := h
    refine meets_onlyIf (fun hthere => ?_) fun hnot => ?_
    · refine Meets.attempt (R := fun _ _ => True) ?_
        fun _ _ _ => meets_fail (.inl rfl)
      refine (rename_spec _ _ _).mono (fun _ d h => ?_) fun _ _ _ => trivial
      obtain ⟨hput, u, hu, rfl⟩ := h
      have hu' : s.tree .previous = some u := by simpa using hu
      rw [hprevious hthere] at hu'
      exact ⟨by simp [hu'], fun _ => ⟨by simp [hu'], hput⟩, hdropped⟩
    · refine ⟨by simp [habsent hnot], fun hthere => ?_, hdropped⟩
      rw [hnot] at hthere
      cases hthere

theorem stageDropped_meets {E : Rejection → Disk → Prop} :
    Meets (caught (rm o.stageDropped true .stage)) s
      (fun _ d => d.tree .target = s.tree .target
        ∧ d.tree .previous = s.tree .previous ∧ d.begun = s.begun) E := by
  refine meets_caught ((rm_spec _ _ _).mono (fun _ d h => ?_) fun _ d h => ?_)
  · rw [h.1]
    simp
  · rw [h.2.1]
    simp

/-- What the `catch` says of the clean-up: an error of its own is
thrown only in place of another of its own. -/
theorem cleanedUp_meets (created : List Parent) (e : Rejection) :
    Meets (attempt (cleanupCreatedParents o created)
      fun cleanupError =>
        if e.isOwn then fail cleanupError else pure ()) s
      (fun _ d => d.tree = s.tree)
      fun e' _ => Exempt e' ∧ e.isOwn = true := by
  refine (cleanupCreatedParents_meets created).attempt fun e' d h => ?_
  exact meets_ite (fun hown => meets_fail ⟨h.1, hown⟩)
    fun _ => meets_pure h.2

/-- The `catch` throws; unless it throws one of the exempt codes, the tree
that was recoverable is back. -/
theorem undo_meets {α : Type} {P : α → Disk → Prop} (created : List Parent)
    (e : Rejection) (hrecover : Recoverable present t s) :
    Meets (undo o present created e : Run α) s P
      (fun e' d => Exempt e' ∨ d.tree .target = t
        ∧ (s.begun = true → present = true → t ≠ none ∧ o.putBack = none
          ∧ (s.tree .target ≠ none → o.targetDropped.fate = none))) := by
  refine stageDropped_meets.bind fun _ d h => ?_
  obtain ⟨htarget, hprevious, hbegun⟩ := h
  refine meets_read_bind ?_
  have hback : Meets (onlyIf d.begun (rollbackSwap o present)) d
      (fun _ d' => d'.tree .target = t
        ∧ (s.begun = true → present = true → t ≠ none ∧ o.putBack = none
          ∧ (s.tree .target ≠ none → o.targetDropped.fate = none)))
      fun e' d' => Exempt e' ∨ d'.tree .target = t
        ∧ (s.begun = true → present = true → t ≠ none ∧ o.putBack = none
          ∧ (s.tree .target ≠ none → o.targetDropped.fate = none)) := by
    rcases hrecover with ⟨hfalse, htree⟩ | ⟨htrue, hthere, hnot⟩
    · rw [hbegun, hfalse]
      exact meets_pure ⟨htarget.trans htree, fun h => by cases h⟩
    · rw [hbegun, htrue]
      refine (rollbackSwap_meets (fun hp => hprevious.trans (hthere hp))
        hnot).mono (fun _ d' h => ?_) fun _ _ h => .inl h
      rw [htarget] at h
      exact ⟨h.1, fun _ hp => ⟨(h.2.1 hp).1, (h.2.1 hp).2, h.2.2⟩⟩
  refine hback.bind fun _ d' h => ?_
  refine ((cleanedUp_meets created e).mono (fun _ _ h => h)
    fun _ _ h => .inl h.1).bind fun _ d'' hd'' => ?_
  have hend := h
  rw [← hd''] at hend
  exact meets_ite (fun _ => meets_fail (.inr hend))
    fun _ => meets_fail (.inr hend)

/-- With what was put aside there in part and nothing else failing, the
`catch` puts back that part and says that the previous state was
restored. -/
theorem undo_loses {α : Type} {P : α → Disk → Prop} {t u : Tree}
    (created : List Parent) {e : Rejection} (hown : e.isOwn = false)
    (hbegun : s.begun = true) (htarget : s.tree .target = some t)
    (hprevious : s.tree .previous = some u)
    (hdropped : o.targetDropped.fate = none) (hput : o.putBack = none) :
    Meets (undo o true created e : Run α) s P
      fun e' d => e' = restoreFailed ∧ d.tree .target = some u := by
  refine stageDropped_meets.bind fun _ d h => meets_read_bind ?_
  rw [h.2.2, hbegun]
  have hback : Meets (rollbackSwap o true) d
      (fun _ d' => d'.tree .target = some u)
      fun e' d => e' = restoreFailed ∧ d.tree .target = some u := by
    refine Meets.bind (R := fun _ d' => d' = d.put .target none) ?_
      fun _ d' hd' => ?_
    · refine Meets.attempt (R := fun _ _ => False) ?_ fun _ _ h => h.elim
      refine (rm_spec _ _ _).mono (fun _ _ h => h.1) fun _ _ h' => ?_
      exact h'.2.2 (by simp [h.1, htarget]) hdropped
    · have hu : d'.tree .previous = some u := by
        rw [hd']
        simp [h.2.1, hprevious]
      have hfree : d'.tree .target = none := by
        rw [hd']
        simp
      have hrun := rename_run hu hfree
      rw [← hput] at hrun
      exact meets_of_run (run_attempt_ok hrun) (by simp)
  refine Meets.bind hback fun _ d' hd' => ?_
  refine ((cleanedUp_meets created e).mono (fun _ _ h => h)
    fun _ _ h => ?_).bind fun _ d'' hd'' => ?_
  · rw [hown] at h
    cases h.2
  · rw [hown]
    exact meets_fail ⟨rfl, by rw [hd'', hd']⟩

-- ====== the restore

/-- Nothing fails before the removal of what was put aside. -/
def Reaches (request : Request) (o : Answers dg) (d : Disk) : Prop :=
  ∃ c created d₁ d₂, checked request o d = .ok c
    ∧ (prepare o c.selected.manifest.scope).run d = (.ok created, d₁)
    ∧ (activate request o c).run d₁ = (.ok (), d₂)

/-- The removal of what was put aside is reached, fails with some of it
gone, and the rollback brings back the rest. -/
structure Loses (request : Request) (o : Answers dg) (d : Disk) : Prop where
  reached : Reaches request o d
  half : ∃ t u, d.tree .target = some t ∧ o.previousRemoved.left t = some u
    ∧ u ≠ t
  stopped : o.previousRemoved.fate ≠ none
  dropped : o.targetDropped.fate = none
  putBack : o.putBack = none

/-- The backup is in place and nothing is beside it. -/
structure InPlace (o : Answers dg) (d : Disk) : Prop where
  target : ∃ selected, o.selected = .ok selected
    ∧ d.tree .target = some selected.data
  stage : d.tree .stage = none
  previous : d.tree .previous = none

theorem prepared_facts {c : Checked dg} (hc : checked request o d = .ok c)
    (hrun : (prepare o c.selected.manifest.scope).run d
      = (.ok created, d₁)) :
    c.present = (d₁.tree .target).isSome ∧ d₁.tree .target = d.tree .target
      ∧ d₁.tree .previous = none ∧ d₁.tree .stage = none
      ∧ d₁.begun = false := by
  obtain ⟨-, hpresent, hprevious⟩ := checked_eq_ok hc
  have h := (prepare_meets _).of_ok hrun
  refine ⟨?_, h.target, h.previous.trans hprevious, h.stage, h.begun⟩
  rw [h.target, hpresent]

/-- From a disk that is prepared, the `try` puts the backup in place and
removes what was put aside, or what was there can be had back, unless that
removal fails. -/
theorem try_meets {c : Checked dg} (hc : checked request o d = .ok c)
    (hrun : (prepare o c.selected.manifest.scope).run d
      = (.ok created, d₁)) :
    Meets (do
      activate request o c
      onlyIf c.present (rm o.previousRemoved true .previous)
      return restored request c) d₁
      (fun _ d' => InPlace o d')
      fun _ d' => Recoverable c.present (d.tree .target) d'
        ∨ Reaches request o d ∧ o.previousRemoved.fate ≠ none
          ∧ c.present = true ∧ d'.begun = true ∧ d'.tree .target ≠ none
          ∧ ∃ t, d.tree .target = some t
            ∧ d'.tree .previous = o.previousRemoved.left t := by
  obtain ⟨hselected, -, -⟩ := checked_eq_ok hc
  obtain ⟨hpresent, htarget, hprevious, hstage, hbegun⟩ :=
    prepared_facts hc hrun
  refine ((activate_meets hpresent hprevious hstage hbegun).run.mono
    (fun _ _ h => h) fun _ _ h => .inl (htarget ▸ h)).bind fun _ d₂ h => ?_
  obtain ⟨hswapped, hactivate⟩ := h
  rw [htarget] at hswapped
  refine Meets.bind (R := fun _ d' => InPlace o d') ?_
    fun _ _ h => meets_pure h
  refine meets_onlyIf (fun hthere => ?_) fun habsent => ?_
  · refine (rm_spec _ _ _).mono (fun _ d' h => ?_) fun _ d' h => .inr ?_
    · rw [h.1]
      exact ⟨⟨_, hselected, by simp [hswapped.target]⟩,
        by simp [hswapped.stage], by simp⟩
    · rw [hpresent, htarget] at hthere
      obtain ⟨t, ht⟩ := Option.isSome_iff_exists.mp hthere
      have hput : d₂.tree .previous = some t := hswapped.previous.trans ht
      refine ⟨⟨c, created, d₁, d₂, hc, hrun, hactivate⟩,
        h.2.2 (by simp [hput]), ?_, ?_, ?_, t, ht, ?_⟩
      · rw [hpresent, htarget, ht]
        rfl
      · rw [h.2.1]
        exact hswapped.begun
      · rw [h.2.1]
        simp [hswapped.target]
      · rw [h.2.1, hput]
        simp
  · refine ⟨⟨_, hselected, hswapped.target⟩, hswapped.stage, ?_⟩
    rw [hswapped.previous, ← htarget]
    rw [hpresent] at habsent
    exact Option.isSome_eq_false_iff.mp habsent
      |> Option.isNone_iff_eq_none.mp

theorem restoreNow_meets :
    Meets (restoreNow request o) d (fun _ d' => InPlace o d')
      fun e d' => Exempt e ∨ d'.tree .target = d.tree .target
        ∨ Loses request o d := by
  refine meets_look_bind (fun c hc => ?_) fun _ _ => .inr (.inl rfl)
  refine ((prepare_meets _).run.mono (fun _ _ h => h)
    fun _ _ h => .inr (.inl h)).bind fun created d₁ h => ?_
  refine (try_meets hc h.2).attempt fun e d' herror => ?_
  rcases herror with hrecover | ⟨hreaches, hfate, hpresent, hbegun, hlive, t,
    ht, hleft⟩
  · refine (undo_meets created e hrecover).mono (fun _ _ h => h)
      fun _ _ h => ?_
    exact h.imp_right fun h => .inl h.1
  · have hrecover : Recoverable c.present (o.previousRemoved.left t) d' := by
      refine .inr ⟨hbegun, fun _ => hleft, fun hf => ?_⟩
      rw [hpresent] at hf
      cases hf
    refine (undo_meets created e hrecover).mono (fun _ _ h => h)
      fun e' d'' h => h.imp_right fun h => ?_
    obtain ⟨hback, hhalf⟩ := h
    obtain ⟨hsome, hput, hdropped⟩ := hhalf hbegun hpresent
    obtain ⟨u, hu⟩ := Option.ne_none_iff_exists'.mp hsome
    by_cases hsame : u = t
    · left
      rw [hback, hu, hsame, ht]
    · exact .inr ⟨hreaches, ⟨t, u, ht, hu, hsame⟩, hfate, hdropped hlive,
        hput⟩

theorem restoreNow_loses (h : Loses request o d) :
    ∃ e d', (restoreNow request o).run d = (.error e, d') ∧ ¬Exempt e
      ∧ d'.tree .target ≠ d.tree .target := by
  obtain ⟨⟨c, created, d₁, d₂, hc, hprepare, hactivate⟩,
    ⟨t, u, ht, hu, hne⟩, hfate, hdropped, hput⟩ := h
  obtain ⟨hpresent, htarget, hprevious, hstage, hbegun⟩ :=
    prepared_facts hc hprepare
  have hswapped := (activate_meets hpresent hprevious hstage hbegun).of_ok
    hactivate
  have hthere : c.present = true := by
    rw [hpresent, htarget, ht]
    rfl
  have haside : d₂.tree .previous = some t := by
    rw [hswapped.previous, htarget, ht]
  have hmeets : Meets (restoreNow request o) d (fun _ _ => False)
      fun e d' => e = restoreFailed ∧ d'.tree .target = some u := by
    refine meets_look_bind (fun c' hc' => ?_) fun e he => ?_
    · obtain rfl := Except.ok.inj (hc.symm.trans hc')
      refine (meets_of_run (P := fun a t => a = created ∧ t = d₁) hprepare
        ⟨rfl, rfl⟩).bind fun _ _ h => ?_
      rw [h.1, h.2]
      refine Meets.attempt (R := fun e d' => e.isOwn = false
        ∧ d' = d₂.put .previous (some u)) ?_ fun e d' h => ?_
      · refine (meets_of_run (P := fun _ t => t = d₂) hactivate rfl).bind
          fun _ _ h => ?_
        rw [h, hthere]
        refine ((rm_spec _ _ _).mono (fun _ _ h => ?_)
          fun _ _ h => ⟨h.1, ?_⟩).bind (R := fun _ _ => False)
          fun _ _ h => h.elim
        · rcases h.2 with hnone | hnone
          · rw [haside] at hnone
            cases hnone
          · exact hfate hnone
        · rw [h.2.1, haside]
          exact congrArg (Disk.put .previous · d₂) hu
      · obtain ⟨hown, rfl⟩ := h
        rw [hthere]
        exact undo_loses created hown hswapped.begun
          (by simpa using hswapped.target) (by simp) hdropped hput
    · rw [hc] at he
      cases he
  cases hrun : (restoreNow request o).run d with
  | mk r d' =>
      cases r with
      | ok a => exact (hmeets.of_ok hrun).elim
      | error e =>
          obtain ⟨rfl, hd'⟩ := hmeets.of_error hrun
          refine ⟨_, d', rfl, ?_, ?_⟩
          · rintro (h | h)
            · exact absurd (Option.some.inj h) (by decide)
            · exact absurd (Option.some.inj h) (by decide)
          · rw [hd', ht]
            exact fun he => hne (Option.some.inj he)

end Yunpanel.MailData.Restore
