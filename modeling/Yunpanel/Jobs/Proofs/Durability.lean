/-
What every call of the durable registry preserves.

# The shape of the argument

A claim about runs is a property `P` of disks, to hold of every disk any
write leaves, and a set `T` of identities whose entries in the recovery
record are to be watched. `Rules` is what `P` and `T` owe the detection of
running jobs; each call adds what it alone needs (`CallRules`,
`CompleteRules`, a removal by acknowledgement). In return `Good` is
preserved by every call, whatever file operations fail in it.

`Good` says: every disk so far satisfies `P`; and while the process is
healthy it is settled (memory is the disk, the wrapper's copy of the
recovery record is the record) and each watched entry still matches its
job.
-/
import Yunpanel.Jobs.Proofs.Shown

namespace Yunpanel.Jobs.Durable

open Lib

-- ====== the invariant

variable {P : Disk → Prop} {T : Identity → Prop}

/-- Every disk of the call so far. -/
structure Kept (P : Disk → Prop) (w : World) : Prop where
  disk : P w.disk
  written : ∀ d ∈ w.written, P d

/-- A healthy process between two calls, its watched entries matched. -/
structure Steady (T : Identity → Prop) (w : World) : Prop
    extends Settled w where
  fatal : w.fatal = none
  matched : ∀ identity, T identity → identity ∈ w.record.jobs →
    Matched w.reconciliationPending w.jobs identity

/-- What holds between any two calls. -/
structure Good (P : Disk → Prop) (T : Identity → Prop) (w : World) :
    Prop where
  kept : Kept P w
  steady : w.fatal = none → w.initialized = true → Steady T w

/-- What disks and watched identities owe the detection of running
jobs. -/
structure Rules (P : Disk → Prop) (T : Identity → Prop) : Prop where
  /-- the record may grow -/
  grow : ∀ (d : Disk) (record : RecoveryRecord),
    (∀ identity ∈ d.record.jobs, identity ∈ record.jobs) → P d →
      P { d with record }
  /-- a watched running job that enters the record is found by its id -/
  fresh : ∀ (d : Disk) (identity : Identity), P d → T identity →
    identity ∉ d.record.jobs → RunsAs d.jobs identity →
      ∀ pending, Matched pending d.jobs identity

variable {jobs : List Job} {w : World}

variable {jobId : String} {job : Job} {w' : World} {identity : Identity}

theorem findJob_id (h : findJob jobs jobId = some job) :
    job.id.text = jobId := by
  simpa using List.find?_some h

theorem findJob_idLength (h : findJob jobs jobId = some job) :
    jobId.toList.length = 36 := by
  rw [← findJob_id h]
  exact job.id.text_length

theorem Kept.latched (h : Kept P w) (hl : Latched w w') :
    Kept P w' :=
  ⟨hl.disk ▸ h.disk, hl.written ▸ h.written⟩

/-- A disk written after all the others. -/
theorem Kept.put (h : Kept P w) {d : Disk} (hd : P d) :
    Kept P (w.putDisk d) := by
  refine ⟨hd, fun d' hd' => ?_⟩
  rcases List.mem_append.mp hd' with hd' | hd'
  · exact h.written d' hd'
  · rw [List.mem_singleton] at hd'
    exact hd' ▸ hd

theorem Kept.detected (hrules : Rules P T) (h : Kept P w) (hsync : Synced w)
    (hd : Detected w w') : Kept P w' := by
  have hdisk : P w'.disk := by
    have hgrow := hrules.grow w.disk w'.disk.record (by
      rw [← hsync.record, ← hd.record]
      exact hd.listed) h.disk
    have heq : w'.disk = ⟨w.disk.jobs, w'.disk.record⟩ := by
      rw [← hd.diskJobs]
    rw [heq]
    exact hgrow
  refine ⟨hdisk, ?_⟩
  rcases hd.written with ⟨-, hw⟩ | hw
  · exact hw ▸ h.written
  · intro d hmem
    rw [hw] at hmem
    rcases List.mem_append.mp hmem with hmem | hmem
    · exact h.written d hmem
    · rw [List.mem_singleton] at hmem
      exact hmem ▸ hdisk

theorem Steady.detected (hrules : Rules P T) (h : Kept P w)
    (hsync : Synced w) (hjobs : w.jobs = w.disk.jobs)
    (hfatal : w.fatal = none) (hd : Detected w w') : Steady T w' := by
  refine
    { record := hd.record
      normal := hd.normal
      jobs := (hd.jobs.trans hjobs).trans hd.diskJobs.symm
      recovery := hd.recovery
      pendingListed := hd.pendingListed
      explicitPending := by rw [hd.explicit]; simp
      idLength := ?_
      fatal := hd.fatal.trans hfatal
      matched := ?_ }
  · intro identity hmem
    rcases hd.fresh identity hmem with hold | ⟨job, -, -, hid, -⟩
    · obtain ⟨job, hfind, -⟩ := hd.matched identity hold
      exact findJob_idLength hfind
    · rw [← hid]
      exact job.id.text_length
  intro identity hT hmem
  rw [hd.jobs]
  by_cases hold : identity ∈ w.record.jobs
  · exact hd.matched identity hold
  · have hrun := (hd.fresh identity hmem).resolve_left hold
    rw [hjobs] at hrun ⊢
    rw [hsync.record] at hold
    exact hrules.fresh w.disk identity h.disk hT hold hrun _

-- ====== opening, reopening

/-- Opening a process on any disk. -/
theorem wp_init (hrules : Rules P T) (hw : Good P T w)
    {Q : Except Rejection Unit → World → Prop}
    (hopen : w.initialized = true → Q (.ok ()) w)
    (hok : ∀ w', w.initialized = false → Kept P w' → Steady T w' →
      w'.initialized = true →
      (∀ job ∈ w'.jobs, job.status = .running →
        (Identity.mk job.id.text job.serverId).key ∈ w'.record.keys) →
      Q (.ok ()) w') (herr : ∀ e w', Kept P w' → w'.fatal.isSome = true →
      Q (.error e) w') :
    Exec.wp init Q w := by
  have hlatched : ∀ (v : World), Kept P v → ∀ e w', Latched v w' →
      Q (.error e) w' :=
    fun v hv e w' h => herr e w' (hv.latched h) h.fatal
  rw [init, Exec.wp_bind, Exec.wp_read]
  dsimp only
  rw [Exec.wp_ite]
  refine ⟨hopen, fun hinit => ?_⟩
  rw [Bool.not_eq_true] at hinit
  rw [Exec.wp_bind]
  refine wp_assertHealthy ?_ fun h e => herr e w hw.kept h
  intro hfatal
  dsimp only
  rw [Exec.wp_attempt, Exec.wp_bind]
  refine wp_loadJobs ?_ fun faults =>
    wp_rethrowOrLatch (hlatched _ ⟨hw.kept.disk, hw.kept.written⟩)
  intro faults
  dsimp only
  rw [Exec.wp_bind, Exec.wp_attempt]
  refine wp_loadRecord ?_ ?_
  · intro hnormal faults
    dsimp only
    rw [Exec.wp_bind]
    have hkept : Kept P { w with
        jobs := w.disk.jobs, record := w.disk.record, faults } :=
      ⟨hw.kept.disk, hw.kept.written⟩
    have hsync : Synced { w with
        jobs := w.disk.jobs, record := w.disk.record, faults } :=
      ⟨rfl, hnormal⟩
    refine wp_detectRecovery hsync ?_
      fun e w' h => wp_rethrowOrLatch (hlatched _ (hkept.latched h))
    intro w' hd
    have hkept' := hkept.detected hrules hsync hd
    have hsteady := Steady.detected hrules hkept hsync rfl hfatal hd
    refine hok _ hinit ⟨hkept'.disk, hkept'.written⟩ ?_ rfl ?_
    · exact { hsteady with }
    · intro job hjob
      exact hd.running job (hd.jobs ▸ hjob)
  · intro faults
    refine wp_latch fun e w' h => wp_rethrowOrLatch ?_
    exact hlatched _
      ⟨h.disk ▸ hw.kept.disk, h.written ▸ hw.kept.written⟩

/-- The world once its process is open. -/
def World.opened (w : World) : World := (Durable.init.run w).2

/-- What opening a process ends in. -/
def Opens (P : Disk → Prop) (T : Identity → Prop)
    (r : Except Rejection Unit) (w : World) : Prop :=
  match r with
  | .ok _ => Kept P w ∧ w.initialized = true
      ∧ (w.fatal = none → Steady T w)
  | .error _ => Kept P w ∧ w.fatal.isSome = true

theorem wp_opened (hrules : Rules P T) (hw : Good P T w) :
    Exec.wp init (fun r w' => Opens P T r w' ∧ w' = w.opened) w := by
  refine Exec.wp_run (P := Opens P T) (wp_init hrules hw ?_ ?_ ?_)
  · exact fun hinit => ⟨hw.kept, hinit, fun h => hw.steady h hinit⟩
  · exact fun w' _ hk hst hinit _ => ⟨hk, hinit, fun _ => hst⟩
  · exact fun _ w' hk hf => ⟨hk, hf⟩

/-- A process whose memory may be ahead of its files, and is otherwise
settled. -/
structure Undone (w : World) : Prop where
  fatal : w.fatal = none
  initialized : w.initialized = true
  settled : Settled { w with jobs := w.disk.jobs }

/-- What `mutate` leaves after a rejection. -/
theorem wp_reloadDurableState (hrules : Rules P T) (hkept : Kept P w)
    (hw : Undone w) {inspect : Bool}
    {Q : Except Rejection Unit → World → Prop}
    (hok : ∀ w', Kept P w' → Steady T w' → w'.initialized = true →
      w'.disk.jobs = w.disk.jobs → Q (.ok ()) w')
    (herr : ∀ e w', Kept P w' → w'.fatal.isSome = true →
      Q (.error e) w') :
    Exec.wp (reloadDurableState inspect) Q w := by
  have hlatched : ∀ (v : World), Kept P v → ∀ e w', Latched v w' →
      Q (.error e) w' :=
    fun v hv e w' h => herr e w' (hv.latched h) h.fatal
  rw [reloadDurableState, Exec.wp_attempt, Exec.wp_bind]
  refine wp_loadJobs ?_ fun faults =>
    wp_rethrowOrLatch (hlatched _ ⟨hkept.disk, hkept.written⟩)
  intro faults
  dsimp only
  rw [Exec.wp_bind, Exec.wp_modify]
  dsimp only
  rw [Exec.wp_bind, Exec.wp_read]
  dsimp only
  have hkept' : Kept P { w with
      jobs := w.disk.jobs, initialized := true, faults } :=
    ⟨hkept.disk, hkept.written⟩
  have hsettled : Settled { w with
      jobs := w.disk.jobs, initialized := true, faults } :=
    { hw.settled with }
  rw [Exec.wp_ite]
  constructor
  · intro _
    refine wp_detectRecovery hsettled.toSynced ?_
      fun e w' h => wp_rethrowOrLatch (hlatched _ (hkept'.latched h))
    intro w' hd
    exact hok w' (hkept'.detected hrules hsettled.toSynced hd)
      (Steady.detected hrules hkept' hsettled.toSynced rfl hw.fatal hd)
      hd.initialized hd.diskJobs
  · -- nothing was recovering, so there is no entry to watch
    intro hquiet
    have hnone : w.recovery = none := by
      cases hr : w.recovery with
      | none => rfl
      | some jobs => simp [hr] at hquiet
    rw [Exec.wp_pure]
    refine hok _ hkept' ?_ rfl rfl
    refine { hsettled with fatal := hw.fatal, matched := ?_ }
    intro identity _ hmem
    have hnil : w.record.jobs = [] := hsettled.record_of_none hnone
    change identity ∈ w.record.jobs at hmem
    rw [hnil] at hmem
    cases hmem

-- ====== entering the record

/-- A running job of the list, found by its id. -/
def FoundRunning (jobs : List Job) (identity : Identity) : Prop :=
  ∃ job, findJob jobs identity.jobId = some job
    ∧ job.serverId = identity.serverId ∧ job.status = .running

theorem Matched.mono {pending pending' : List String}
    (h : Matched pending jobs identity) (hsub : ∀ k ∈ pending, k ∈ pending') :
    Matched pending' jobs identity := by
  obtain ⟨job, hfind, hserver, hstatus⟩ := h
  refine ⟨job, hfind, hserver, ?_⟩
  rcases hstatus with hrun | ⟨hterm, hk⟩
  · exact .inl hrun
  · exact .inr ⟨hterm, hsub _ hk⟩

theorem wp_enterReconciliation (hrules : Rules P T) (hkept : Kept P w)
    (hw : Steady T w) {explicit : Bool}
    (hrun : FoundRunning w.jobs identity)
    {Q : Except Rejection Unit → World → Prop}
    (hok : ∀ w', Kept P w' → Steady T w' →
      w'.initialized = w.initialized → w'.jobs = w.jobs →
      identity.key ∈ w'.reconciliationPending → Q (.ok ()) w')
    (herr : ∀ e w', Kept P w' → w'.fatal.isSome = true →
      Q (.error e) w') :
    Exec.wp (enterReconciliation identity explicit) Q w := by
  rw [enterReconciliation, Exec.wp_bind]
  have hpend : ∀ k ∈ w.reconciliationPending.insert identity.key,
      k = identity.key ∨ k ∈ w.reconciliationPending :=
    fun k hk => List.mem_insert_iff.mp hk
  have hexpl : ∀ k ∈ (if explicit then
      w.explicitlyBegun.insert identity.key else w.explicitlyBegun),
      k ∈ w.reconciliationPending.insert identity.key := by
    intro k hk
    cases explicit with
    | false => exact List.mem_insert_of_mem (hw.explicitPending k hk)
    | true =>
        rcases List.mem_insert_iff.mp hk with rfl | hk
        · exact List.mem_insert_self
        · exact List.mem_insert_of_mem (hw.explicitPending k hk)
  have hrecovery : recoveryOf (w.recovery.getD [] ++ [identity])
      = if (w.record.addJob w.clock identity).jobs.isEmpty then none
        else some (w.record.addJob w.clock identity).jobs := by
    rw [hw.recovery_getD, recoveryOf, RecoveryRecord.addJob_jobs,
      unique_concat identity hw.toSynced.keys_nodup]
    rfl
  refine wp_addRecoveryJob ?_ ?_
    fun e w' h => herr e w' (hkept.latched h) h.fatal
  · -- already recorded: only the sets change
    intro _ hmem
    dsimp only
    rw [Exec.wp_bind, Exec.wp_modify]
    dsimp only
    rw [Exec.wp_bind, Exec.wp_read]
    dsimp only
    rw [setRecovery, Exec.wp_modify]
    refine hok _ ⟨hkept.disk, hkept.written⟩ ?_ rfl rfl
      List.mem_insert_self
    refine { hw with
      recovery := ?_
      pendingListed := ?_
      explicitPending := hexpl
      matched := ?_ }
    · have hjobs := RecoveryRecord.addJob_jobs w.clock identity w.record
      rw [if_pos hmem] at hjobs
      rw [hjobs] at hrecovery
      exact hrecovery
    · intro k hk
      rcases hpend k hk with rfl | hk
      · exact hmem
      · exact hw.pendingListed k hk
    · intro id hT hid
      exact (hw.matched id hT hid).mono fun k => List.mem_insert_of_mem
  · intro hnormal hnew faults
    dsimp only
    rw [Exec.wp_bind, Exec.wp_modify]
    dsimp only
    rw [Exec.wp_bind, Exec.wp_read]
    dsimp only
    rw [setRecovery, Exec.wp_modify]
    have hjobs : (w.record.addJob w.clock identity).jobs
        = w.record.jobs ++ [identity] := by
      rw [RecoveryRecord.addJob_jobs, if_neg hnew]
    have hP : P { w.disk with
        record := w.record.addJob w.clock identity } := by
      refine hrules.grow _ _ ?_ hkept.disk
      intro id hid
      rw [hjobs]
      rw [← hw.record] at hid
      exact List.mem_append_left _ hid
    have hput := hkept.put hP
    refine hok _ ⟨hput.disk, hput.written⟩ ?_ rfl rfl
      List.mem_insert_self
    · refine
        { record := rfl
          normal := RecoveryRecord.normal_addJob hw.normal hnormal
          jobs := hw.jobs
          recovery := ?_
          pendingListed := ?_
          explicitPending := hexpl
          idLength := ?_
          fatal := hw.fatal
          matched := ?_ }
      · exact hrecovery
      · intro k hk
        have hkeys : (w.record.addJob w.clock identity).keys
            = w.record.keys ++ [identity.key] := by
          rw [RecoveryRecord.keys, hjobs, List.map_append]
          rfl
        show k ∈ (w.record.addJob w.clock identity).keys
        rw [hkeys]
        rcases hpend k hk with rfl | hk
        · simp
        · exact List.mem_append_left _ (hw.pendingListed k hk)
      · intro id hid
        change id ∈ (w.record.addJob w.clock identity).jobs at hid
        rw [hjobs] at hid
        rcases List.mem_append.mp hid with hid | hid
        · exact hw.idLength id hid
        · rw [List.mem_singleton] at hid
          subst hid
          exact findJob_idLength hrun.choose_spec.1
      · intro id hT hid
        change id ∈ (w.record.addJob w.clock identity).jobs at hid
        rw [hjobs] at hid
        rcases List.mem_append.mp hid with hid | hid
        · exact (hw.matched id hT hid).mono fun k =>
            List.mem_insert_of_mem
        · rw [List.mem_singleton] at hid
          subst hid
          obtain ⟨job, hfind, hserver, hstatus⟩ := hrun
          exact ⟨job, hfind, hserver, .inl hstatus⟩

-- ====== automatic entering

/-- What `prepareAutomaticReconciliation` has established. -/
structure Prepared (automatic : Bool) (c : Completion) (w : World)
    (prepared : Option Automatic) (w' : World) : Prop where
  jobs : w'.jobs = w.jobs
  initialized : w'.initialized = w.initialized
  same : automatic = false → w' = w
  identity : ∀ a, prepared = some a →
    safeRecoveryJob c.jobId c.serverId = some a.identity
  /-- in automatic mode a running job is pending by now -/
  pending : automatic = true → ∀ identity,
    safeRecoveryJob c.jobId c.serverId = some identity →
      FoundRunning w'.jobs identity →
        identity.key ∈ w'.reconciliationPending

theorem any_running_iff :
    (findJob jobs identity.jobId).any (fun job =>
        job.serverId == identity.serverId && job.status == .running) = true
      ↔ FoundRunning jobs identity := by
  simp [FoundRunning, Option.any_eq_true]

theorem wp_prepareAutomaticReconciliation (hrules : Rules P T)
    (hkept : Kept P w) (hw : Steady T w) {automatic : Bool} {c : Completion}
    {Q : Except Rejection (Option Automatic) → World → Prop}
    (hok : ∀ prepared w', Kept P w' → Steady T w' →
      Prepared automatic c w prepared w' → Q (.ok prepared) w')
    (herr : ∀ e w', Kept P w' → w'.fatal.isSome = true →
      Q (.error e) w') :
    Exec.wp (prepareAutomaticReconciliation automatic c) Q w := by
  unfold prepareAutomaticReconciliation
  rw [Exec.wp_ite]
  constructor
  · intro hauto
    refine hok none w hkept hw ⟨rfl, rfl, fun _ => rfl, ?_, ?_⟩
    · intro a ha
      cases ha
    · intro h
      simp [h] at hauto
  · intro hauto
    have hauto : automatic = true := by simpa using hauto
    have hnot : automatic = false → ∀ w' : World, w' = w := by
      intro h
      rw [hauto] at h
      cases h
    split
    · rename_i hnone
      refine hok none w hkept hw ⟨rfl, rfl, fun _ => rfl, ?_, ?_⟩
      · intro a ha
        cases ha
      · intro _ identity hid
        rw [hnone] at hid
        cases hid
    · rename_i identity hid
      have honly : ∀ identity',
          safeRecoveryJob c.jobId c.serverId = some identity' →
            identity' = identity :=
        fun identity' h => Option.some.inj (h.symm.trans hid)
      have hident : ∀ explicit (a : Automatic),
          some (Automatic.mk identity explicit) = some a →
            safeRecoveryJob c.jobId c.serverId = some a.identity := by
        intro explicit a ha
        cases ha
        exact hid
      rw [Exec.wp_bind, Exec.wp_read]
      dsimp only
      rw [Exec.wp_ite]
      constructor
      · intro hexplicit
        rw [decide_eq_true_eq] at hexplicit
        refine hok _ w hkept hw
          ⟨rfl, rfl, fun _ => rfl, hident true, ?_⟩
        intro _ identity' hid' _
        rw [honly identity' hid']
        exact hw.explicitPending _ hexplicit
      · intro _
        rw [Exec.wp_bind, Exec.wp_read]
        dsimp only
        rw [Exec.wp_bind, Exec.onlyIf, Exec.wp_ite]
        constructor
        · intro hany
          refine wp_enterReconciliation hrules hkept hw
            (any_running_iff.mp hany) ?_ herr
          intro w' hkept' hw' hinit hjobs hpending
          refine hok _ w' hkept' hw'
            ⟨hjobs, hinit, fun h => hnot h w', hident false, ?_⟩
          intro _ identity' hid' _
          rw [honly identity' hid']
          exact hpending
        · intro hany
          refine hok _ w hkept hw
            ⟨rfl, rfl, fun _ => rfl, hident false, ?_⟩
          intro _ identity' hid' hfound
          rw [honly identity' hid'] at hfound
          exact absurd (any_running_iff.mpr hfound) hany

end Yunpanel.Jobs.Durable
