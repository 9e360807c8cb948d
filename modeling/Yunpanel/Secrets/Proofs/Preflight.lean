/-
The rotation up to the first file it replaces.

Until then every store is as it was (`Untouched`), and so is what a call
throws there: `Early` also says that the call does not get as far as
`reaches` has it. What returns knows of every call of the platform that it
did not fail, and the last step puts these together.
-/
import Yunpanel.Secrets.Proofs.Rewrapping

namespace Yunpanel.Secrets

open Lib Exec

namespace Rotation

variable {c : Rotation}

-- ====== calls

@[simp] theorem clear_append (as bs : List Op) :
    c.clear (as ++ bs) = (c.clear as && c.clear bs) := List.all_append

@[simp] theorem clear_cons (op : Op) (ops : List Op) :
    c.clear (op :: ops) = ((c.fails op).isNone && c.clear ops) := rfl

@[simp] theorem clear_nil : c.clear [] = true := rfl

theorem clear_map {α : Type} {g : α → Op} {as : List α} :
    c.clear (as.map g) = true ↔ ∀ a ∈ as, c.fails (g a) = none := by
  unfold clear
  rw [List.all_map, List.all_eq_true]
  simp

variable {op : Op} {f : StoreFile} {e : Failure} {m : Manifest}
  {current next : Key}

theorem fails_of_clear {ops : List Op} (h : c.clear ops = true)
    (hop : op ∈ ops) : c.fails op = none := by
  simpa using List.all_eq_true.mp h op hop

/-- A call of the platform returns, or throws what the platform says. -/
theorem meets_io {w : World} {P : Unit → World → Prop}
    {E : Failure → World → Prop} (hok : c.fails op = none → P ⟨⟩ w)
    (hfail : ∀ code, c.fails op = some code → E (.platform code) w) :
    Meets (c.io op) w P E := by
  unfold io
  split
  · rename_i code hcode
    exact meets_fail (hfail code hcode)
  · rename_i hnone
    exact meets_pure (hok hnone)

theorem meets_io_bind {α : Type} {w : World}
    {f : Unit → Exec World Failure α} {P : α → World → Prop}
    {E : Failure → World → Prop}
    (hok : c.fails op = none → Meets (f ⟨⟩) w P E)
    (hfail : ∀ code, c.fails op = some code → E (.platform code) w) :
    Meets (c.io op >>= f) w P E := by
  refine (meets_io (P := fun _ t => t = w ∧ c.fails op = none)
    (fun hnone => ⟨rfl, hnone⟩) hfail).bind fun _ t ⟨ht, hnone⟩ => ?_
  rw [ht]
  exact hok hnone

theorem mem_presentFiles {w : World} :
    f ∈ c.presentFiles w ↔ c.present w f = true := by
  have hall : f ∈ StoreFile.all := by cases f <;> decide
  simp [presentFiles, hall]

-- ====== untouched

/-- The stores are as they were, and the manifest says nothing of a
rollback. -/
structure Untouched (w₀ w : World) : Prop where
  auth : w.auth = w₀.auth
  file : ∀ f, w.file f = w₀.file f
  others : w.others = w₀.others
  replaced : ∀ f, w.replaced f = false
  quiet : ∀ m, w.backupManifest = some m → m.status ≠ .rollbackRequired
  calm : w.manifest.status ≠ .rollbackRequired

/-- Thrown before anything was replaced. -/
def Early (c : Rotation) (w₀ : World) (_ : Failure) (w : World) : Prop :=
  Untouched w₀ w ∧ c.reaches w₀ = false

variable {w₀ w : World}

theorem Untouched.present (h : Untouched w₀ w) (f : StoreFile) :
    c.present w f = c.present w₀ f := by
  unfold Rotation.present
  rw [h.file f]

/-- A call that fails before the files are replaced is why the rotation
does not get there. -/
theorem Untouched.early (h : Untouched w₀ w) {code : String}
    (hfails : c.fails op = some code) (hop : op ∈ c.opsBeforeWrites w₀) :
    Early c w₀ e w := by
  refine ⟨h, ?_⟩
  unfold reaches
  rw [Bool.and_eq_false_iff]
  right
  rw [← Bool.not_eq_true]
  intro hclear
  rw [fails_of_clear hclear hop] at hfails
  cases hfails

/-- Where nothing can be prepared the rotation does not get there
either. -/
theorem Untouched.early_of_refused (h : Untouched w₀ w) {e' : Failure}
    (hrefused : c.prepared w₀ = .error e') : Early c w₀ e w := by
  refine ⟨h, ?_⟩
  unfold reaches
  rw [hrefused]
  rfl

/-- Changing the manifest in memory. -/
theorem Untouched.setManifest (h : Untouched w₀ w)
    (hm : m.status ≠ .rollbackRequired) :
    Untouched w₀ { w with manifest := m } where
  auth := h.auth
  file := h.file
  others := h.others
  replaced := h.replaced
  quiet := h.quiet
  calm := hm

-- ====== preparations

/-- The backups of these files are there. -/
def Backed (c : Rotation) (w₀ w : World) (fs : List StoreFile) : Prop :=
  ∀ f ∈ fs, c.present w₀ f = true →
    w.backupFile f = w₀.file f ∧ c.fails (.copy f) = none
      ∧ c.fails (.hash f) = none

theorem meets_backupFile {fs : List StoreFile} (h : Untouched w₀ w)
    (hbacked : Backed c w₀ w fs) :
    Meets (c.backupFile f) w
      (fun _ t => Untouched w₀ t ∧ Backed c w₀ t (fs ++ [f]))
      (Early c w₀) := by
  refine meets_read_bind (meets_onlyIf (fun hpresent => ?_)
    fun hpresent => ?_)
  · rw [h.present f] at hpresent
    have hmem : f ∈ c.presentFiles w₀ := mem_presentFiles.mpr hpresent
    refine meets_io_bind (fun hcopy => ?_) fun code hcode =>
      h.early hcode (by simp [opsBeforeWrites, hmem])
    have hkept : Untouched w₀ { w with
        backupFile := Function.update w.backupFile f (w.file f) } :=
      ⟨h.auth, h.file, h.others, h.replaced, h.quiet, h.calm⟩
    refine meets_modify_bind (meets_io (fun hhash => ⟨hkept, ?_⟩)
      fun code hcode => hkept.early hcode
        (by simp [opsBeforeWrites, hmem]))
    intro g hg hgpresent
    show Function.update w.backupFile f (w.file f) g = _ ∧ _
    by_cases hgf : g = f
    · subst hgf
      rw [Function.update_self]
      exact ⟨h.file g, hcopy, hhash⟩
    · rw [Function.update_of_ne hgf]
      rcases List.mem_append.mp hg with hg | hg
      · exact hbacked g hg hgpresent
      · exact absurd (List.mem_singleton.mp hg) hgf
  · refine ⟨h, fun g hg hgpresent => ?_⟩
    rcases List.mem_append.mp hg with hg | hg
    · exact hbacked g hg hgpresent
    · obtain rfl := List.mem_singleton.mp hg
      rw [h.present, hgpresent] at hpresent
      cases hpresent

/-- Untouched, and with every backup. -/
structure Ready (c : Rotation) (w₀ w : World) : Prop where
  untouched : Untouched w₀ w
  backed : Backed c w₀ w StoreFile.all

theorem Ready.setManifest (h : Ready c w₀ w)
    (hm : m.status ≠ .rollbackRequired) :
    Ready c w₀ { w with manifest := m } :=
  ⟨h.untouched.setManifest hm, h.backed⟩

theorem meets_prepareFile (h : Ready c w₀ w)
    (hrefused : ∀ e, c.nextFile current next w₀ f = .error e →
      c.prepared w₀ = .error e) :
    Meets (c.prepareFile current next f) w
      (fun r t => Ready c w₀ t
        ∧ (c.present w₀ f = true → c.fails (.readFile f) = none)
        ∧ r.1 = (if c.present w₀ f then w₀.file f else none)
        ∧ c.nextFile current next w₀ f = .ok r.2)
      (Early c w₀) := by
  have hu := h.untouched
  refine meets_read_bind ?_
  rw [hu.present f]
  by_cases hpresent : c.present w₀ f = true
  · have hmem : f ∈ c.presentFiles w₀ := mem_presentFiles.mpr hpresent
    rw [if_pos hpresent, if_pos hpresent]
    refine meets_io_bind (fun hread => meets_read_bind ?_) fun code hcode =>
      hu.early hcode (by simp [opsBeforeWrites, hmem])
    rw [hu.file f]
    cases htext : w₀.file f with
    | none =>
        refine meets_pure ⟨h, fun _ => hread, rfl, ?_⟩
        rw [nextFile, if_pos hpresent, htext]
    | some content =>
        have hnext : c.nextFile current next w₀ f
            = (rewrapContent c.crypto current next (c.nonces (.inl f)) f
              content).map some := by
          rw [nextFile, if_pos hpresent, htext]
        refine meets_ofExcept_bind (fun rewrapped hrewrapped => ?_)
          fun e he => ?_
        · refine meets_modify_bind (meets_pure ⟨?_, fun _ => hread, rfl, ?_⟩)
          · exact h.setManifest hu.calm
          · rw [hnext, hrewrapped]
            rfl
        · refine hu.early_of_refused (hrefused e ?_)
          rw [hnext, he]
          rfl
  · rw [if_neg hpresent, if_neg hpresent]
    refine meets_pure ⟨h, fun hp => absurd hp hpresent, rfl, ?_⟩
    rw [nextFile, if_neg hpresent]

/-- Writing the manifest, or why it was not written. -/
theorem meets_writeManifest {E : Failure → World → Prop}
    (hfail : ∀ code, c.fails op = some code → E (.platform code) w) :
    Meets (c.writeManifest op) w
      (fun _ t => t = { w with backupManifest := some w.manifest }
        ∧ c.fails op = none) E := by
  unfold writeManifest
  refine meets_io_bind (fun hwrite => ?_) hfail
  exact meets_modify ⟨rfl, hwrite⟩

/-- What the preflight returns, and what it knows by then. -/
structure Passed (c : Rotation) (w₀ : World) (p : Prepared) (w : World) :
    Prop where
  ready : Ready c w₀ w
  prepared : c.prepared w₀ = .ok p
  backupAuth : c.fails .backupAuth = none
  hashAuth : c.fails .hashAuth = none
  readFile : ∀ f, c.present w₀ f = true → c.fails (.readFile f) = none
  readRows : ∀ t, c.fails (.readRows t) = none
  writePrepared : c.fails .writePrepared = none

/-- What comes of the files and rows that were rewrapped. -/
def assembled (c : Rotation) (w : World)
    (environment : Option (Content StoreFile.environment.Store))
    (dnsProvider : Option (Content StoreFile.dnsProvider.Store))
    (mailbox : Option (Content StoreFile.mailbox.Store))
    (active pending : List (MfaRow × Envelope)) : Prepared where
  text f := if c.present w f then w.file f else none
  next
    | .environment => environment
    | .dnsProvider => dnsProvider
    | .mailbox => mailbox
  rows := w.auth.rows
  nextRows
    | .active => active
    | .pending => pending

def mfaCounts (w : World) : TableName → Nat
  | .active => (w.auth.rows .active).length
  | .pending => (w.auth.rows .pending).length

/-- The preflight returns what is prepared of the stores as they are, or
throws before anything was replaced. -/
theorem meets_preflight (hkeys : c.keys = .ok (current, next))
    (h : Untouched w₀ w) :
    Meets (c.preflight current next) w (Passed c w₀) (Early c w₀) := by
  have hprepared : c.prepared w₀ = (do
      let environment ← c.nextFile current next w₀ .environment
      let dnsProvider ← c.nextFile current next w₀ .dnsProvider
      let mailbox ← c.nextFile current next w₀ .mailbox
      let active ← c.rewrapMfaRows current next .active
        (w₀.auth.rows .active)
      let pending ← c.rewrapMfaRows current next .pending
        (w₀.auth.rows .pending)
      .ok (c.assembled w₀ environment dnsProvider mailbox active
        pending)) := by
    unfold prepared
    rw [hkeys]
    rfl
  refine meets_io_bind (fun hbackupAuth => ?_) fun code hcode =>
    h.early hcode (by simp [opsBeforeWrites])
  have hcopied : Untouched w₀ { w with backupAuth := some w.auth } :=
    ⟨h.auth, h.file, h.others, h.replaced, h.quiet, h.calm⟩
  refine meets_modify_bind (meets_io_bind (fun hhashAuth => ?_)
    fun code hcode => hcopied.early hcode (by simp [opsBeforeWrites]))
  refine (meets_forEach
    (P := fun fs t => Untouched w₀ t ∧ Backed c w₀ t fs)
    ⟨hcopied, fun f hf => (by cases hf)⟩
    fun fs f _ t _ hdone => meets_backupFile hdone.1 hdone.2).bind
      fun _ t hdone => ?_
  refine (meets_prepareFile ⟨hdone.1, hdone.2⟩ fun e he => ?_).bind
    fun environment t hread => ?_
  · rw [hprepared, he]
    rfl
  obtain ⟨ht, hread₁, htext₁, hnext₁⟩ := hread
  rw [hnext₁] at hprepared
  refine (meets_prepareFile ht fun e he => ?_).bind
    fun dnsProvider t hread => ?_
  · rw [hprepared, he]
    rfl
  obtain ⟨ht, hread₂, htext₂, hnext₂⟩ := hread
  rw [hnext₂] at hprepared
  refine (meets_prepareFile ht fun e he => ?_).bind
    fun mailbox t hread => ?_
  · rw [hprepared, he]
    rfl
  obtain ⟨ht, hread₃, htext₃, hnext₃⟩ := hread
  rw [hnext₃] at hprepared
  refine meets_io_bind (fun hactive => meets_read_bind ?_) fun code hcode =>
    ht.untouched.early hcode (by simp [opsBeforeWrites])
  refine meets_io_bind (fun hpending => meets_read_bind ?_)
    fun code hcode => ht.untouched.early hcode (by simp [opsBeforeWrites])
  rw [ht.untouched.auth]
  refine meets_ofExcept_bind (fun active hrows₁ => ?_) fun e he => ?_
  rotate_left
  · refine ht.untouched.early_of_refused
      (?_ : c.prepared w₀ = .error e)
    rw [hprepared, he]
    rfl
  rw [hrows₁] at hprepared
  refine meets_ofExcept_bind (fun pending hrows₂ => ?_) fun e he => ?_
  rotate_left
  · refine ht.untouched.early_of_refused
      (?_ : c.prepared w₀ = .error e)
    rw [hprepared, he]
    rfl
  rw [hrows₂] at hprepared
  have hset : Ready c w₀ { t with manifest := { t.manifest with
      counts := { t.manifest.counts with
        mfa := mfaCounts w₀ }
      status := .prepared } } :=
    ht.setManifest (by simp)
  refine meets_modify_bind ((meets_writeManifest fun code hcode =>
    hset.untouched.early hcode (by simp [opsBeforeWrites])).bind
      fun _ u hdone => meets_pure ?_)
  obtain ⟨rfl, hwrite⟩ := hdone
  exact
    { ready := ⟨⟨hset.untouched.auth, hset.untouched.file,
        hset.untouched.others, hset.untouched.replaced,
        fun m hm => Option.some.inj hm ▸ hset.untouched.calm,
        hset.untouched.calm⟩, hset.backed⟩
      prepared := by
        rw [hprepared]
        refine congrArg Except.ok ?_
        rw [Prepared.mk.injEq]
        refine ⟨funext fun f => ?_, rfl, funext fun t => ?_, rfl⟩
        · cases f
          · exact htext₁.symm
          · exact htext₂.symm
          · exact htext₃.symm
        · cases t <;> rfl
      backupAuth := hbackupAuth
      hashAuth := hhashAuth
      readFile := fun f => by
        cases f
        · exact hread₁
        · exact hread₂
        · exact hread₃
      readRows := fun t => by
        cases t
        · exact hactive
        · exact hpending
      writePrepared := hwrite }

end Rotation

end Yunpanel.Secrets
