/-
Beginning and acknowledging a reconciliation preserve what holds between
calls.

Beginning lists a running job; acknowledging takes a terminal one out of
the record, which is the one thing a call does that a property of disks
may forbid (`Removes`).
-/
import Yunpanel.Jobs.Proofs.Completion

namespace Yunpanel.Jobs.Durable

open Lib

variable {P : Disk → Prop} {T : Identity → Prop}

-- ====== reconciliation

variable {jobId serverId : String} {w : World}

/-- The opening of every reconciliation call: a healthy process, an
identity and its job. -/
theorem wp_identified (hrules : Rules P T)
    {body : Identity → Job → Program DurableReply} (hw : Good P T w)
    {Q : Except Rejection DurableReply → World → Prop}
    (hbody : ∀ w' job, Kept P w' → Steady T w' →
      w'.initialized = true →
      safeRecoveryJob jobId serverId = some ⟨jobId, serverId⟩ →
      findJob w'.jobs jobId = some job → job.serverId = serverId →
      Exec.wp (body ⟨jobId, serverId⟩ job) Q w')
    (herr : ∀ e w', Good P T w' → Q (.error e) w') :
    Exec.wp (do
      init
      assertHealthy
      let identity ← reconciliationIdentity jobId serverId
      let job ← reconciliationJob identity
      body identity job) Q w := by
  have hrest : ∀ w', Kept P w' → w'.initialized = true →
      (w'.fatal = none → Steady T w') →
      Exec.wp (do
        assertHealthy
        let identity ← reconciliationIdentity jobId serverId
        let job ← reconciliationJob identity
        body identity job) Q w' := by
    intro w' hk hinit hst
    have hgood : Good P T w' := ⟨hk, fun h _ => hst h⟩
    rw [Exec.wp_bind]
    refine wp_assertHealthy ?_ fun _ e => herr e w' hgood
    intro hfatal
    dsimp only
    rw [Exec.wp_bind, reconciliationIdentity]
    split
    · rename_i identity hid
      have hself := safeRecoveryJob_eq_some hid
      rw [hself] at hid ⊢
      rw [Exec.wp_pure]
      dsimp only
      rw [Exec.wp_bind, reconciliationJob, Exec.wp_bind, Exec.wp_read]
      dsimp only
      split
      · rename_i job hjob
        obtain ⟨hfind, hserver⟩ := Option.filter_eq_some_iff.mp hjob
        rw [beq_iff_eq] at hserver
        exact hbody w' job hk (hst hfatal) hinit hid hfind hserver
      · exact herr _ w' hgood
    · exact herr _ w' hgood
  rw [Exec.wp_bind]
  refine Exec.wp_mono (wp_opened hrules hw) ?_
  rintro r w' ⟨hr, -⟩
  cases r with
  | ok _ => exact hrest w' hr.1 hr.2.1 hr.2.2
  | error e =>
      refine herr e w' ⟨hr.1, fun hnone => ?_⟩
      have hf := hr.2
      rw [hnone] at hf
      cases hf

/-- The job was entered: it is in the record and matches its entry. -/
def Begun (jobId serverId : String)
    (r : Except Rejection DurableReply) (w : World) : Prop :=
  ∀ identity status, r = .ok (.begun identity status true) →
    identity = ⟨jobId, serverId⟩ ∧ Steady T w ∧ w.initialized = true
      ∧ identity ∈ w.record.jobs
      ∧ Matched w.reconciliationPending w.jobs identity

theorem wp_beginReconciliation (hrules : Rules P T)
    (jobId serverId : String) (hw : Good P T w) :
    Exec.wp (beginReconciliation jobId serverId)
      (fun r w' => Answered P T r w'
        ∧ Begun (T := T) jobId serverId r w') w := by
  have herr : ∀ e w', Good P T w' → Answered P T (.error e) w'
      ∧ Begun (T := T) jobId serverId (.error e) w' :=
    fun e w' h => ⟨answered_error h, fun _ _ h => by cases h⟩
  refine wp_identified hrules hw ?_ herr
  intro w' job hk hst hinit hid hfind hserver
  have hlen := findJob_idLength hfind
  rw [Exec.wp_ite]
  constructor
  · -- already finished: pending if it has been recorded
    intro hterm
    rw [Exec.wp_bind, Exec.wp_read]
    dsimp only
    rw [Exec.wp_pure]
    refine ⟨answered_steady hk hst ?_, ?_⟩
    · intro a ha
      cases ha
      exact ⟨job, hfind, hserver, rfl⟩
    · intro identity status heq
      simp only [Except.ok.injEq, DurableReply.begun.injEq,
        decide_eq_true_eq] at heq
      obtain ⟨rfl, rfl, hpend⟩ := heq
      exact ⟨rfl, hst, hinit, hst.toSettled.mem_of_key hlen
        (hst.pendingListed _ hpend),
        job, hfind, hserver, .inr ⟨hterm, hpend⟩⟩
  · intro _
    rw [Exec.wp_ite]
    constructor
    · exact fun _ => herr _ w' ⟨hk, fun _ _ => hst⟩
    · intro hrun
      have hrun : job.status = .running := not_not.mp hrun
      rw [Exec.wp_bind]
      refine wp_enterReconciliation hrules hk hst
        ⟨job, hfind, hserver, hrun⟩ ?_ ?_
      · intro w'' hk' hst' hinit' hjobs hpending
        dsimp only
        rw [Exec.wp_pure]
        refine ⟨answered_steady hk' hst' ?_, ?_⟩
        · intro a ha
          cases ha
          show HasStatus w''.jobs _ _
          rw [hjobs]
          exact ⟨job, hfind, hserver, rfl⟩
        · intro identity status heq
          cases heq
          refine ⟨rfl, hst', hinit'.trans hinit,
            hst'.toSettled.mem_of_key hlen
              (hst'.pendingListed _ hpending), job, ?_, hserver,
            .inl hrun⟩
          rw [hjobs]
          exact hfind
      · intro e w'' hk' hf
        exact ⟨answered_fatal hk' hf, fun _ _ h => by cases h⟩

/-- Taking an entry out of the record, once its job is terminal, keeps the
disks right. -/
def Removes (P : Disk → Prop) (identity : Identity) : Prop :=
  ∀ (d : Disk) (job : Job), findJob d.jobs identity.jobId = some job →
    job.serverId = identity.serverId → job.status.terminal = true →
      P d → P { d with record := d.record.removeJob identity }

theorem settled_left (h : Settled w) (identity : Identity)
    (record : RecoveryRecord) (disk : Disk)
    (hjobs : record.jobs = w.record.jobs.filter
      fun candidate => candidate.key ≠ identity.key)
    (hnormal : record.normal = true)
    (hdisk : disk.jobs = w.disk.jobs ∧ disk.record = record)
    (written : List Disk) (faults : List Bool) :
    Settled { w with
      disk, record, written, faults
      reconciliationPending :=
        w.reconciliationPending.filter (· ≠ identity.key)
      explicitlyBegun := w.explicitlyBegun.filter (· ≠ identity.key)
      recovery := recoveryOf ((w.recovery.getD []).filter
        fun candidate => candidate.key ≠ identity.key) } := by
  refine
    { record := hdisk.2.symm
      normal := hnormal
      jobs := h.jobs.trans hdisk.1.symm
      recovery := ?_
      pendingListed := ?_
      explicitPending := ?_
      idLength := ?_ }
  · dsimp only
    rw [h.recovery_getD, ← hjobs]
    exact recoveryOf_of_nodup (RecoveryRecord.normal_iff.mp hnormal).2.1
  · intro k hk
    obtain ⟨hmem, hne⟩ := List.mem_filter.mp hk
    obtain ⟨entry, hentry, rfl⟩ := List.mem_map.mp (h.pendingListed k hmem)
    show entry.key ∈ record.keys
    rw [RecoveryRecord.keys, hjobs]
    exact List.mem_map_of_mem (List.mem_filter.mpr ⟨hentry, hne⟩)
  · intro k hk
    obtain ⟨hmem, hne⟩ := List.mem_filter.mp hk
    exact List.mem_filter.mpr ⟨h.explicitPending k hmem, hne⟩
  · intro entry hentry
    change entry ∈ record.jobs at hentry
    rw [hjobs] at hentry
    exact h.idLength entry (List.mem_filter.mp hentry).1

/-- An acknowledgement ends like any other call, or it has taken its own
entry out of the record, and says so. -/
def Acknowledges (jobId serverId : String)
    (r : Except Rejection DurableReply) : Prop :=
  ∃ status, r = .ok (.acknowledged ⟨jobId, serverId⟩ status true)
    ∧ status.terminal = true

theorem wp_acknowledgeReconciliation (hrules : Rules P T) (hw : Good P T w) :
    Exec.wp (acknowledgeReconciliation jobId serverId)
      (fun r w' => Answered P T r w'
        ∨ Acknowledges jobId serverId r
          ∧ ¬Removes P ⟨jobId, serverId⟩) w := by
  have hack : ∀ (w' : World) (identity : Identity) (status : Status)
      (b : Bool), Kept P w' → Steady T w' →
        HasStatus w'.jobs identity status →
        Answered P T (.ok (.acknowledged identity status b)) w' := by
    intro w' identity status b hk hst hstatus
    refine answered_steady hk hst fun a ha => ?_
    cases ha
    exact hstatus
  refine wp_identified hrules hw ?_ fun e w' h => .inl (answered_error h)
  intro w' job hk hst _ hid hfind hserver
  rw [Exec.wp_ite]
  constructor
  · exact fun _ => .inl (answered_error ⟨hk, fun _ _ => hst⟩)
  intro hterm
  have hterm : job.status.terminal = true := by simpa using hterm
  rw [Exec.wp_bind]
  refine wp_recoverySnapshotJobs hst.toSynced ?_
  dsimp only
  rw [Exec.wp_bind, Exec.wp_read]
  dsimp only
  rw [Exec.wp_ite]
  constructor
  · -- recorded: the entry goes, and with it everything said about it
    intro hlisted
    by_cases hremoves : Removes P ⟨jobId, serverId⟩
    · rw [Exec.wp_bind, leaveReconciliation, Exec.wp_bind]
      have hjobs := RecoveryRecord.removeJob_jobs ⟨jobId, serverId⟩
        w'.record
      have hnormal : (w'.record.removeJob ⟨jobId, serverId⟩).normal
          = true := RecoveryRecord.normal_removeJob hst.normal
      have hmatched : ∀ identity, T identity → identity ∈
          (w'.record.removeJob ⟨jobId, serverId⟩).jobs →
          Matched (w'.reconciliationPending.filter
            (· ≠ (Identity.mk jobId serverId).key)) w'.jobs identity := by
        intro identity hT hmem
        rw [hjobs] at hmem
        obtain ⟨hmem, hne⟩ := List.mem_filter.mp hmem
        obtain ⟨found, hf, hs, hstatus⟩ := hst.matched identity hT hmem
        refine ⟨found, hf, hs, ?_⟩
        rcases hstatus with hrun | ⟨ht, hp⟩
        · exact .inl hrun
        · exact .inr ⟨ht, List.mem_filter.mpr ⟨hp, hne⟩⟩
      refine wp_removeRecoveryJob ?_ ?_
        fun e w'' h => .inl (answered_fatal (hk.latched h) h.fatal)
      · intro hsame
        dsimp only
        rw [Exec.wp_bind, Exec.wp_modify]
        dsimp only
        rw [Exec.wp_bind, Exec.wp_read]
        dsimp only
        rw [setRecovery, Exec.wp_modify]
        dsimp only
        rw [Exec.wp_pure]
        rw [hsame] at hjobs hmatched
        refine .inl (hack _ _ _ _ ⟨hk.disk, hk.written⟩ ?_
          ⟨job, hfind, hserver, rfl⟩)
        exact
          { settled_left hst.toSettled ⟨jobId, serverId⟩ w'.record w'.disk
              hjobs hst.normal ⟨rfl, hst.record.symm⟩ w'.written
              w'.faults with
            fatal := hst.fatal
            matched := hmatched }
      · intro faults
        dsimp only
        rw [Exec.wp_bind, Exec.wp_modify]
        dsimp only
        rw [Exec.wp_bind, Exec.wp_read]
        dsimp only
        rw [setRecovery, Exec.wp_modify]
        dsimp only
        rw [Exec.wp_pure]
        have hP : P { w'.disk with
            record := w'.record.removeJob ⟨jobId, serverId⟩ } := by
          have hfind' := hfind
          rw [hst.jobs] at hfind'
          rw [hst.record]
          exact hremoves w'.disk job hfind' hserver hterm hk.disk
        have hput := hk.put hP
        refine .inl (hack _ _ _ _ ⟨hput.disk, hput.written⟩ ?_
          ⟨job, hfind, hserver, rfl⟩)
        exact
          { settled_left hst.toSettled ⟨jobId, serverId⟩
              (w'.record.removeJob ⟨jobId, serverId⟩)
              { w'.disk with
                record := w'.record.removeJob ⟨jobId, serverId⟩ }
              hjobs hnormal ⟨rfl, rfl⟩ _ faults with
            fatal := hst.fatal
            matched := hmatched }
    · rw [Exec.wp_bind, leaveReconciliation, Exec.wp_bind]
      have hdone : ∀ v : World, Exec.wp (do
          let _ ← (do
            Exec.modify fun w =>
              { w with
                reconciliationPending := w.reconciliationPending.filter
                  (· ≠ (Identity.mk jobId serverId).key)
                explicitlyBegun := w.explicitlyBegun.filter
                  (· ≠ (Identity.mk jobId serverId).key) }
            let recovery ← Exec.read fun w => w.recovery.getD []
            setRecovery (recovery.filter fun candidate =>
              candidate.key ≠ (Identity.mk jobId serverId).key))
          return DurableReply.acknowledged ⟨jobId, serverId⟩ job.status
            true)
          (fun r w' => Answered P T r w'
            ∨ Acknowledges jobId serverId r
              ∧ ¬Removes P ⟨jobId, serverId⟩) v :=
        fun v => .inr ⟨⟨job.status, rfl, hterm⟩, hremoves⟩
      refine wp_removeRecoveryJob (fun _ => hdone w')
        (fun faults => hdone _)
        fun e w'' h => .inl (answered_fatal (hk.latched h) h.fatal)
  · intro _
    rw [Exec.wp_ite]
    constructor
    · intro _
      refine wp_latch fun e w'' h => .inl ?_
      exact answered_fatal (hk.latched h) h.fatal
    · intro _
      rw [Exec.wp_bind, Exec.wp_modify]
      dsimp only
      rw [Exec.wp_pure]
      refine .inl (hack _ _ _ _ ⟨hk.disk, hk.written⟩ ?_
          ⟨job, hfind, hserver, rfl⟩)
      refine { hst with explicitPending := ?_ }
      intro k hk'
      exact hst.explicitPending k (List.mem_filter.mp hk').1

end Yunpanel.Jobs.Durable
