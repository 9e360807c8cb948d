/-
What each program of the durable registry does, as a condition on the
world it ends in.

A program either returns, and its lemma says exactly what the world is
then, or throws. Most throws latch: `Latched` is all that is left to say
of such a world, namely that both files are as they were.

Nothing here is about runs; the invariants that are live in the modules
after this one and are proved from these lemmas without unfolding a
program.
-/
import Yunpanel.Jobs.Durable
import Yunpanel.Jobs.Proofs.Recovery
import Yunpanel.Jobs.Proofs.Lifecycle

namespace Yunpanel.Jobs.Durable

open Lib

-- ====== vocabulary

/-- The process is over, and nothing reached the files. -/
structure Latched (w w' : World) : Prop where
  fatal : w'.fatal.isSome = true
  disk : w'.disk = w.disk
  written : w'.written = w.written

/-- The world once the recovery store has persisted a record. -/
def World.recorded (w : World) (next : RecoveryRecord) : World :=
  { w.putDisk { w.disk with record := next } with record := next }

/-- The recovery store's memory is its file, and both are well formed. -/
structure Synced (w : World) : Prop where
  record : w.record = w.disk.record
  normal : w.record.normal = true

/-- A process between two calls. -/
structure Settled (w : World) : Prop extends Synced w where
  jobs : w.jobs = w.disk.jobs
  recovery : w.recovery
    = if w.record.jobs.isEmpty then none else some w.record.jobs
  pendingListed : ∀ k ∈ w.reconciliationPending, k ∈ w.record.keys
  explicitPending : ∀ k ∈ w.explicitlyBegun, k ∈ w.reconciliationPending
  /-- entries name jobs by UUID -/
  idLength : ∀ identity ∈ w.record.jobs,
    identity.jobId.toList.length = 36

/-- The job an entry of the record names is there, running or terminal,
and a terminal one is pending. -/
def Matched (pending : List String) (jobs : List Job)
    (identity : Identity) : Prop :=
  ∃ job, findJob jobs identity.jobId = some job
    ∧ job.serverId = identity.serverId
    ∧ (job.status = .running
      ∨ job.status.terminal = true ∧ identity.key ∈ pending)

/-- A running job of the list bears the identity. -/
def RunsAs (jobs : List Job) (identity : Identity) : Prop :=
  ∃ job ∈ jobs, job.status = .running ∧ job.id.text = identity.jobId
    ∧ job.serverId = identity.serverId

theorem Synced.keys_nodup {w : World} (h : Synced w) :
    (w.record.jobs.map Identity.key).Nodup :=
  (RecoveryRecord.normal_iff.mp h.normal).2.1

theorem Synced.normal_of_mem {w : World} (h : Synced w) :
    ∀ job ∈ w.record.jobs, job.normal = true :=
  (RecoveryRecord.normal_iff.mp h.normal).1

/-- The wrapper's copy of the record holds nothing else. -/
theorem Settled.recovery_getD {w : World} (h : Settled w) :
    w.recovery.getD [] = w.record.jobs := by
  rw [h.recovery]
  cases hj : w.record.jobs <;> simp

theorem Settled.record_of_none {w : World} (h : Settled w)
    (hnone : w.recovery = none) : w.record.jobs = [] := by
  rw [← h.recovery_getD, hnone]
  rfl

/-- With UUIDs for job ids an entry is known by its key. -/
theorem Settled.mem_of_key {w : World} (h : Settled w)
    {identity : Identity} (hlen : identity.jobId.toList.length = 36)
    (hk : identity.key ∈ w.record.keys) : identity ∈ w.record.jobs := by
  obtain ⟨entry, hentry, heq⟩ := List.mem_map.mp hk
  have hsame : entry = identity :=
    key_inj ((h.idLength entry hentry).trans hlen.symm) heq
  exact hsame ▸ hentry

variable {jobs : List Identity} {code message : String} {job : Identity}

/-- `setRecovery` of a list without repeated keys. -/
theorem recoveryOf_of_nodup (h : (jobs.map Identity.key).Nodup) :
    recoveryOf jobs = if jobs.isEmpty then none else some jobs := by
  rw [recoveryOf, unique_of_nodup h]

-- ====== files

theorem wp_io (Q : Except Rejection Bool → World → Prop) (w : World) :
    Exec.wp io Q w
      ↔ Q (.ok !(w.faults.headD false))
          { w with faults := w.faults.tail } := by
  obtain ⟨disk, jobs, record, fatal, recovery, pending, explicit, init,
    faults, clock, written⟩ := w
  rw [io, Exec.wp_bind, Exec.wp_read]
  cases faults with
  | nil => exact Iff.rfl
  | cons bad rest => exact Iff.rfl

theorem wp_persistRecord {next : RecoveryRecord}
    {Q : Except Rejection Unit → World → Prop} {w : World}
    (hok : ∀ faults, Q (.ok ()) { w.recorded next with faults })
    (herr : ∀ faults, Q (.error .thrown) { w with faults }) :
    Exec.wp (persistRecord next) Q w := by
  rw [persistRecord, Exec.wp_bind, wp_io]
  dsimp only
  rw [Exec.wp_ite]
  exact ⟨fun _ => hok _, fun _ => herr _⟩

theorem wp_persistJobs {Q : Except Rejection Unit → World → Prop}
    {w : World}
    (hok : w.faults.headD false = false → ∀ faults,
      Q (.ok ()) { w.putDisk { w.disk with jobs := w.jobs } with faults })
    (herr : ∀ faults, Q (.error (.registry .store)) { w with faults }) :
    Exec.wp persistJobs Q w := by
  rw [persistJobs, Exec.wp_bind, wp_io]
  dsimp only
  rw [Exec.wp_ite]
  refine ⟨fun h => hok ?_ _, fun _ => herr _⟩
  simpa using h

theorem wp_loadJobs {Q : Except Rejection Unit → World → Prop}
    {w : World}
    (hok : ∀ faults, Q (.ok ()) { w with jobs := w.disk.jobs, faults })
    (herr : ∀ faults, Q (.error .thrown) { w with faults }) :
    Exec.wp loadJobs Q w := by
  rw [loadJobs, Exec.wp_bind, wp_io]
  dsimp only
  rw [Exec.wp_ite]
  exact ⟨fun _ => hok _, fun _ => herr _⟩

theorem wp_loadRecord {Q : Except Rejection Unit → World → Prop}
    {w : World}
    (hok : w.disk.record.normal = true → ∀ faults,
      Q (.ok ()) { w with record := w.disk.record, faults })
    (herr : ∀ faults, Q (.error .thrown) { w with faults }) :
    Exec.wp loadRecord Q w := by
  rw [loadRecord, Exec.wp_bind, wp_io]
  dsimp only
  rw [Exec.wp_ite]
  refine ⟨fun _ => ?_, fun _ => herr _⟩
  rw [Exec.wp_bind, Exec.wp_read]
  dsimp only
  rw [Exec.wp_ite]
  exact ⟨fun h => hok h _, fun _ => herr _⟩

-- ====== latching

theorem wp_latch {α : Type} {Q : Except Rejection α → World → Prop}
    {w : World} (herr : ∀ e w', Latched w w' → Q (.error e) w') :
    Exec.wp (latch code message) Q w := by
  rw [latch, Exec.wp_bind]
  exact herr _ _ ⟨rfl, rfl, rfl⟩

theorem wp_rethrowOrLatch {α : Type} {e : Rejection}
    {Q : Except Rejection α → World → Prop} {w : World}
    (herr : ∀ e w', Latched w w' → Q (.error e) w') :
    Exec.wp (rethrowOrLatch code message e) Q w := by
  rw [rethrowOrLatch, Exec.wp_bind, Exec.wp_read]
  dsimp only
  rw [Exec.wp_ite]
  exact ⟨fun h => herr _ _ ⟨h, rfl, rfl⟩, fun _ => wp_latch herr⟩

theorem wp_assertHealthy {Q : Except Rejection Unit → World → Prop}
    {w : World} (hok : w.fatal = none → Q (.ok ()) w)
    (herr : w.fatal.isSome = true → ∀ e, Q (.error e) w) :
    Exec.wp assertHealthy Q w := by
  rw [assertHealthy, Exec.wp_bind, Exec.wp_read]
  dsimp only
  cases hf : w.fatal with
  | none => exact hok hf
  | some fatal => exact herr (by rw [hf]; rfl) _

-- ====== recovery record

theorem wp_recoverySnapshotJobs
    {Q : Except Rejection (List Identity) → World → Prop} {w : World}
    (hw : Synced w) (hok : Q (.ok w.record.jobs) w) :
    Exec.wp recoverySnapshotJobs Q w := by
  rw [recoverySnapshotJobs, Exec.wp_bind, Exec.wp_read]
  dsimp only
  rw [mapM_safeRecoveryJob hw.normal_of_mem]
  exact hok

theorem wp_recordUnsynchronized {α : Type}
    {Q : Except Rejection α → World → Prop} {w : World}
    (herr : ∀ e w', Latched w w' → Q (.error e) w') (e : Rejection)
    (faults : List Bool) :
    Exec.wp (recordUnsynchronized e) Q { w with faults } := by
  refine wp_rethrowOrLatch fun e' w' h => herr e' w' ?_
  exact ⟨h.fatal, h.disk, h.written⟩

theorem wp_addRecoveryJob {Q : Except Rejection Unit → World → Prop}
    {w : World}
    (hsame : job.normal = true → job.key ∈ w.record.keys → Q (.ok ()) w)
    (hadd : job.normal = true → job.key ∉ w.record.keys → ∀ faults,
      Q (.ok ()) { w.recorded (w.record.addJob w.clock job) with faults })
    (herr : ∀ e w', Latched w w' → Q (.error e) w') :
    Exec.wp (addRecoveryJob job) Q w := by
  rw [addRecoveryJob, Exec.wp_attempt, Exec.wp_bind, Exec.wp_read]
  dsimp only
  rw [queueMutation, Exec.wp_ite]
  refine ⟨fun hnormal => ?_, fun _ => wp_recordUnsynchronized herr _ w.faults⟩
  rw [Exec.wp_bind, Exec.wp_read]
  dsimp only
  rw [Exec.wp_ite]
  constructor
  · intro hfix
    refine hsame hnormal ?_
    by_contra hk
    rw [RecoveryRecord.addJob, if_neg hk] at hfix
    have hjobs := congrArg (fun r => r.jobs.length) hfix
    simp at hjobs
  · intro hchange
    have hk : job.key ∉ w.record.keys := by
      intro hk
      exact hchange (by rw [RecoveryRecord.addJob, if_pos hk])
    exact wp_persistRecord (fun faults => hadd hnormal hk faults)
      (fun faults => wp_recordUnsynchronized herr _ faults)

theorem wp_removeRecoveryJob {Q : Except Rejection Unit → World → Prop}
    {w : World} (hsame : w.record.removeJob job = w.record → Q (.ok ()) w)
    (hremove : ∀ faults,
      Q (.ok ()) { w.recorded (w.record.removeJob job) with faults })
    (herr : ∀ e w', Latched w w' → Q (.error e) w') :
    Exec.wp (removeRecoveryJob job) Q w := by
  rw [removeRecoveryJob, Exec.wp_attempt, queueMutation, Exec.wp_ite]
  refine ⟨fun _ => ?_, fun _ => wp_recordUnsynchronized herr _ w.faults⟩
  rw [Exec.wp_bind, Exec.wp_read]
  dsimp only
  rw [Exec.wp_ite]
  exact ⟨hsame, fun _ => wp_persistRecord hremove
    (fun faults => wp_recordUnsynchronized herr _ faults)⟩

theorem wp_replaceRecoveryJobs {Q : Except Rejection Unit → World → Prop}
    {w : World} (hok : (∀ job ∈ jobs, job.normal = true) →
      (jobs.map Identity.key).Nodup → ∀ faults,
        Q (.ok ())
          { w.recorded (.replaceJobs w.clock jobs) with faults })
    (herr : ∀ e w', Latched w w' → Q (.error e) w') :
    Exec.wp (replaceRecoveryJobs jobs) Q w := by
  rw [replaceRecoveryJobs, Exec.wp_attempt, Exec.wp_bind, Exec.wp_read]
  dsimp only
  rw [Exec.wp_ite]
  refine ⟨fun h => ?_, fun _ => wp_recordUnsynchronized herr _ w.faults⟩
  rw [Bool.and_eq_true, List.all_eq_true, decide_eq_true_eq] at h
  exact wp_persistRecord (hok h.1 h.2) (fun faults => wp_recordUnsynchronized herr _ faults)

-- ====== detection

/-- What an inspection of the stored entries leaves. -/
theorem wp_forEach_inspectStored {stored : List Identity}
    {Q : Except Rejection Unit → World → Prop} {w : World}
    (hok : ∀ pending, (∀ k ∈ w.reconciliationPending, k ∈ pending) →
      (∀ k ∈ pending, k ∈ w.reconciliationPending
        ∨ k ∈ stored.map Identity.key) →
      (∀ identity ∈ stored, Matched pending w.jobs identity) →
      Q (.ok ()) { w with reconciliationPending := pending })
    (herr : ∀ e w', Latched w w' → Q (.error e) w') :
    Exec.wp (Exec.forEach inspectStored stored) Q w := by
  induction stored generalizing w with
  | nil => exact hok _ (fun _ h => h) (fun _ h => .inl h) (by simp)
  | cons identity rest ih =>
      rw [Exec.forEach, Exec.wp_bind, inspectStored, Exec.wp_bind,
        Exec.wp_read]
      dsimp only
      split
      · exact wp_latch herr
      · rename_i job hjob
        obtain ⟨hfind, hok'⟩ := Option.filter_eq_some_iff.mp hjob
        simp only [Bool.and_eq_true, beq_iff_eq, Bool.or_eq_true] at hok'
        obtain ⟨hserver, hstatus⟩ := hok'
        rw [Exec.wp_ite]
        constructor
        · -- a terminal entry: pending from here on
          intro hterminal
          rw [Exec.wp_modify]
          refine ih ?_ fun e w' h => herr e w' ⟨h.fatal, h.disk, h.written⟩
          intro pending hkeep honly hmatched
          refine hok pending ?_ ?_ ?_
          · exact fun k hk => hkeep k (List.mem_insert_of_mem hk)
          · intro k hk
            rcases honly k hk with hk | hk
            · rcases List.mem_insert_iff.mp hk with rfl | hk
              · exact .inr (by simp)
              · exact .inl hk
            · exact .inr (List.mem_cons_of_mem _ hk)
          · intro id hid
            rcases List.mem_cons.mp hid with rfl | hid
            · exact ⟨job, hfind, hserver, .inr ⟨hterminal,
                hkeep _ List.mem_insert_self⟩⟩
            · exact hmatched id hid
        · intro hterminal
          have hrunning : job.status = .running :=
            hstatus.resolve_right hterminal
          refine ih ?_ herr
          intro pending hkeep honly hmatched
          refine hok pending hkeep ?_ ?_
          · intro k hk
            rcases honly k hk with hk | hk
            · exact .inl hk
            · exact .inr (List.mem_cons_of_mem _ hk)
          · intro id hid
            rcases List.mem_cons.mp hid with rfl | hid
            · exact ⟨job, hfind, hserver, .inl hrunning⟩
            · exact hmatched id hid

/-- The world a detection leaves. -/
structure Detected (w w' : World) : Prop extends Synced w' where
  jobs : w'.jobs = w.jobs
  diskJobs : w'.disk.jobs = w.disk.jobs
  fatal : w'.fatal = w.fatal
  initialized : w'.initialized = w.initialized
  /-- the record only grew, by running jobs -/
  listed : ∀ identity ∈ w.record.jobs, identity ∈ w'.record.jobs
  fresh : ∀ identity ∈ w'.record.jobs,
    identity ∈ w.record.jobs ∨ RunsAs w.jobs identity
  /-- every running job is in it -/
  running : ∀ job ∈ w.jobs, job.status = .running →
    (Identity.mk job.id.text job.serverId).key ∈ w'.record.keys
  matched : ∀ identity ∈ w.record.jobs,
    Matched w'.reconciliationPending w.jobs identity
  recovery : w'.recovery
    = if w'.record.jobs.isEmpty then none else some w'.record.jobs
  pendingListed : ∀ k ∈ w'.reconciliationPending, k ∈ w'.record.keys
  explicit : w'.explicitlyBegun = []
  written : w'.disk = w.disk ∧ w'.written = w.written
    ∨ w'.written = w.written ++ [w'.disk]

/-- Reading an option list through: every entry was readable. -/
theorem mapM_running {jobs : List Job} {identities : List Identity}
    (h : (jobs.mapM fun job => safeRecoveryJob job.id.text job.serverId)
      = some identities) :
    identities = jobs.map fun job => ⟨job.id.text, job.serverId⟩ := by
  induction jobs generalizing identities with
  | nil =>
      rw [List.mapM_nil] at h
      exact (Option.some.inj h).symm
  | cons job jobs ih =>
      rw [List.mapM_cons] at h
      obtain ⟨identity, hid, h⟩ := Option.bind_eq_some_iff.mp h
      obtain ⟨rest, hrest, h⟩ := Option.bind_eq_some_iff.mp h
      obtain rfl := Option.some.inj h
      rw [safeRecoveryJob_eq_some hid, ih hrest]
      rfl

theorem wp_detectRecovery {Q : Except Rejection Unit → World → Prop}
    {w : World} (hw : Synced w)
    (hok : ∀ w', Detected w w' → Q (.ok ()) w')
    (herr : ∀ e w', Latched w w' → Q (.error e) w') :
    Exec.wp detectRecovery Q w := by
  rw [detectRecovery, Exec.wp_bind, Exec.wp_read]
  dsimp only
  split
  · exact wp_latch herr
  · rename_i running hrunning
    obtain rfl := mapM_running hrunning
    clear hrunning
    generalize hr : (w.jobs.filter fun job => job.status == .running).map
      (fun job => Identity.mk job.id.text job.serverId) = running
    have hruns : ∀ identity, identity ∈ running →
        RunsAs w.jobs identity := by
      intro identity hid
      rw [← hr] at hid
      obtain ⟨job, hjob, rfl⟩ := List.mem_map.mp hid
      obtain ⟨hmem, hstatus⟩ := List.mem_filter.mp hjob
      exact ⟨job, hmem, beq_iff_eq.mp hstatus, rfl, rfl⟩
    have hall : ∀ job ∈ w.jobs, job.status = .running →
        Identity.mk job.id.text job.serverId ∈ running := by
      intro job hjob hstatus
      rw [← hr]
      exact List.mem_map.mpr ⟨job,
        List.mem_filter.mpr ⟨hjob, beq_iff_eq.mpr hstatus⟩, rfl⟩
    rw [Exec.wp_bind]
    refine wp_recoverySnapshotJobs hw ?_
    dsimp only
    rw [Exec.wp_bind, Exec.wp_modify]
    dsimp only
    rw [Exec.wp_bind]
    refine wp_forEach_inspectStored ?_
      fun e w' h => herr e w' ⟨h.fatal, h.disk, h.written⟩
    intro pending _ hpending hmatched
    dsimp only at hpending hmatched ⊢
    have hpending : ∀ k ∈ pending, k ∈ w.record.keys := by
      intro k hk
      exact (hpending k hk).resolve_left (by simp)
    rw [Exec.wp_bind, setRecovery, Exec.wp_modify]
    dsimp only
    rw [syncRecoveryRecord, Exec.wp_bind]
    refine wp_recoverySnapshotJobs ⟨hw.record, hw.normal⟩ ?_
    dsimp only
    -- the union keeps the stored entries in front
    obtain ⟨extra, hextra⟩ := unique_append running hw.keys_nodup
    have hnodup := nodup_uniqueRecoveryJobs (w.record.jobs ++ running)
    have hfresh : ∀ identity ∈
        uniqueRecoveryJobs (w.record.jobs ++ running),
          identity ∈ w.record.jobs ∨ RunsAs w.jobs identity := by
      intro identity hid
      rcases List.mem_append.mp (mem_of_mem_unique hid) with h | h
      · exact .inl h
      · exact .inr (hruns identity h)
    have hlisted : ∀ job ∈ w.jobs, job.status = .running →
        (Identity.mk job.id.text job.serverId).key
          ∈ (uniqueRecoveryJobs (w.record.jobs ++ running)).map
            Identity.key :=
      fun job hjob hstatus => key_mem_unique
        (List.mem_append_right _ (hall job hjob hstatus))
    rw [hextra] at hnodup hfresh hlisted ⊢
    rw [Exec.wp_ite]
    constructor
    · -- nothing new: the record stays as it is
      intro heq
      obtain rfl := extra_eq_nil heq
      rw [List.append_nil] at hnodup hfresh hlisted ⊢
      exact hok _
        { record := hw.record
          normal := hw.normal
          jobs := rfl
          diskJobs := rfl
          fatal := rfl
          initialized := rfl
          listed := fun _ h => h
          fresh := hfresh
          running := hlisted
          matched := hmatched
          recovery := recoveryOf_of_nodup hnodup
          pendingListed := hpending
          explicit := rfl
          written := .inl ⟨rfl, rfl⟩ }
    · intro _
      refine wp_replaceRecoveryJobs ?_
        fun e w' h => herr e w' ⟨h.fatal, h.disk, h.written⟩
      intro hnormal hkeys faults
      refine hok _
        { record := rfl
          normal := RecoveryRecord.normal_replaceJobs hnormal hkeys
          jobs := rfl
          diskJobs := rfl
          fatal := rfl
          initialized := rfl
          listed := fun _ h => List.mem_append_left _ h
          fresh := hfresh
          running := hlisted
          matched := hmatched
          recovery := recoveryOf_of_nodup hnodup
          pendingListed := ?_
          explicit := rfl
          written := .inr rfl }
      intro k hk
      obtain ⟨identity, hid, rfl⟩ := List.mem_map.mp (hpending k hk)
      exact List.mem_map_of_mem (List.mem_append_left _ hid)

end Yunpanel.Jobs.Durable
