/-
What the durable registry shows, and what a crash cannot lose.

# What is shown

A rejected mutation may have changed the inner registry's list before its
write failed. The wrapper reopens a registry on the file then, or ends the
process; either way nothing that is not on disk is ever shown, claimed or
reported. The argument is `rests_any`: with nothing asked of the disks,
what is left is that memory is the disk between any two calls.

# The order of the two writes

With automatic reconciliation on, a completion lists its job in the
recovery record before the base registry writes the terminal status, and
only an acknowledgement takes the job out again. So on every disk a call
passes through, a job is listed by the time it is terminal (`Covered`), and
a crash between any two writes leaves such a disk.

# What the restart adds

A running job need not be listed while its process lives. Opening the next
process detects it and lists it, or fails and lets nothing more happen.
-/
import Yunpanel.Jobs.Proofs.Membership
import Yunpanel.Jobs.Proofs.Calls

namespace Yunpanel.Jobs.Durable

open Lib

-- ====== what a call keeps

/-- The jobs of a disk, by their ids. -/
def SameIds (before disk : Disk) : Prop :=
  disk.jobs.map Job.id = before.jobs.map Job.id

def SameJobs (before disk : Disk) : Prop := disk.jobs = before.jobs

theorem rules_sameIds (before : Disk) :
    Rules (SameIds before) Unwatched :=
  ⟨fun _ _ _ h => h, fun _ _ _ h => h.elim⟩

theorem rules_sameJobs (before : Disk) :
    Rules (SameJobs before) Unwatched :=
  ⟨fun _ _ _ h => h, fun _ _ _ h => h.elim⟩

variable {jobs : List Job} {i : Nat} {old new job : Job} {c : Completion}
  {automatic : Bool}

/-- A job rewritten in its place keeps the list of ids. -/
theorem map_id_set (hi : jobs[i]? = some old) (hid : new.id = old.id) :
    (jobs.set i new).map Job.id = jobs.map Job.id := by
  rw [List.map_set]
  have hget : (jobs.map Job.id)[i]? = some new.id := by
    rw [List.getElem?_map, hi, hid]
    rfl
  obtain ⟨hlt, hval⟩ := List.getElem?_eq_some_iff.mp hget
  rw [← hval]
  exact List.set_getElem_self hlt

theorem callRules_claimNext (before d : Disk) (proto : Protocol)
    (serverId : String) (now : Instant) :
    CallRules (SameIds before) proto (.claimNext serverId now) d := by
  intro s r heff hsame
  simp only [Call.effect, claimNext] at heff
  split at heff
  · cases heff
  · rename_i i job hloc
    cases heff
    have hid : (job.claimed now).id = job.id := rfl
    exact (map_id_set (getElem?_of_locate hloc) hid).trans hsame

-- ====== shown

/-- In every run of the durable registry, whatever fails in it and wherever
its processes die: a call that resolves reports only what the job file
holds, a claim hands out only a job the file held before it, and a query is
answered from the file, unless the process has latched, when it is
refused. In particular after a mutation whose write failed. -/
theorem visible_is_on_disk (automatic : Bool) (proto : Protocol)
    (disk : Disk) (fates : List Fate) (t : Turn) :
    let w := (crashMachine automatic proto).run (World.boot disk) fates
    let w' := (machine automatic proto).next w t
    (∀ a, (machine automatic proto).answer w t = .ok a →
      a.Reports w'.disk.jobs)
    ∧ (∀ serverId now view envelope ack, t.op = .claimNext serverId now →
        (machine automatic proto).answer w t
            = .ok (.registry (.claim view envelope) ack) →
          ∃ job ∈ w.disk.jobs, job.id = view.id)
    ∧ (w'.fatal = none → w'.initialized = true →
        w'.jobs = w'.disk.jobs)
    ∧ (∀ q clock faults,
        let asked := Turn.mk (.query q) clock faults
        (((machine automatic proto).next w' asked).fatal.isSome = true
          ∧ ∃ e, (machine automatic proto).answer w' asked = .error e)
        ∨ (machine automatic proto).answer w' asked
            = q.answer proto w'.disk.jobs) := by
  intro w w'
  have hw : Rests AnyDisk Unwatched w :=
    rests_any automatic proto disk fates
  have hcall : Answered AnyDisk Unwatched
      ((machine automatic proto).answer w t) w' :=
    answered_next (f := ⟨t, none⟩) rules_any hw
      (owes_any automatic proto w ⟨t, none⟩)
  refine ⟨hcall.2, ?_, fun hf hi => (hcall.1.steady hf hi).jobs, ?_⟩
  · intro serverId now view envelope ack hop hans
    have hshown : Shown w'.disk.jobs view :=
      hcall.2 _ hans view (by simp [replyShows])
    obtain ⟨job, hjob, rfl⟩ := hshown
    have hids : SameIds w.disk w'.disk := by
      have hrests : Rests (SameIds w.disk) Unwatched w :=
        hw.strengthen rfl
      have h := wp_mutate_other (rules_sameIds w.disk) automatic
        (c := .claimNext serverId now) (by simp)
        (callRules_claimNext w.disk _ proto serverId now) (hrests.begin t)
      have hnext : w' = ((mutate automatic proto
          (.claimNext serverId now)).run (w.begin t)).2 := by
        show ((t.op.program automatic proto).run (w.begin t)).2 = _
        rw [hop]
        rfl
      rw [hnext]
      exact h.1.kept.disk
    have hmem : job.id ∈ w.disk.jobs.map Job.id :=
      hids ▸ List.mem_map_of_mem hjob
    obtain ⟨old, hold, hid⟩ := List.mem_map.mp hmem
    exact ⟨old, hold, hid⟩
  · intro q clock faults asked
    have hrests : Rests (SameJobs w'.disk) Unwatched w' :=
      hcall.1.rests.strengthen rfl
    have h := wp_query (rules_sameJobs w'.disk) proto q
      (hrests.begin asked)
    obtain ⟨⟨hgood', -⟩, hfrom⟩ := h
    rcases hfrom with hfatal | hans
    · exact .inl hfatal
    · refine .inr ?_
      have hsame : SameJobs w'.disk _ := hgood'.kept.disk
      rw [hsame] at hans
      exact hans

-- ====== coverage

/-- The job is the one the identity names. -/
def Bears (job : Job) (identity : Identity) : Prop :=
  job.id.text = identity.jobId ∧ job.serverId = identity.serverId

/-- Job ids are distinct, and a terminal job of this identity is listed. -/
structure Covered (identity : Identity) (disk : Disk) : Prop where
  distinct : (disk.jobs.map Job.id).Nodup
  listed : ∀ job ∈ disk.jobs, Bears job identity →
    job.status.terminal = true → identity ∈ disk.record.jobs

/-- With distinct ids a job is found by its own. -/
theorem findJob_of_mem (hdistinct : (jobs.map Job.id).Nodup)
    (h : job ∈ jobs) : findJob jobs job.id.text = some job := by
  cases hfind : findJob jobs job.id.text with
  | none =>
      have hno := List.find?_eq_none.mp hfind job h
      simp at hno
  | some other =>
      have hid : other.id = job.id := by
        have htext := findJob_id hfind
        cases ho : other.id
        cases hj : job.id
        simp_all
      have hmem : other ∈ jobs := List.mem_of_find?_eq_some hfind
      rw [List.inj_on_of_nodup_map hdistinct hmem h hid]

variable {identity : Identity} {disk : Disk} {proto : Protocol}
  {now : Instant} {w : World}

theorem Covered.found (h : Covered identity disk) (hmem : job ∈ disk.jobs)
    (hbears : Bears job identity) :
    findJob disk.jobs identity.jobId = some job := by
  rw [← hbears.1]
  exact findJob_of_mem h.distinct hmem

theorem rules_covered (identity : Identity) :
    Rules (Covered identity) (Only identity) := by
  constructor
  · intro d record hsub h
    exact ⟨h.distinct, fun job hmem hbears hterm =>
      hsub identity (h.listed job hmem hbears hterm)⟩
  · intro d other h hother _ hruns pending
    obtain rfl : other = identity := hother
    obtain ⟨job, hmem, hstatus, hbears⟩ := hruns
    exact ⟨job, h.found hmem hbears, hbears.2, .inl hstatus⟩

-- ====== job writes

theorem Covered.concat (h : Covered identity disk)
    (hfresh : ∀ other ∈ disk.jobs, other.id ≠ job.id)
    (hstatus : job.status = .queued) :
    Covered identity { disk with jobs := disk.jobs ++ [job] } := by
  constructor
  · show ((disk.jobs ++ [job]).map Job.id).Nodup
    rw [List.map_append]
    refine List.nodup_append.mpr ⟨h.distinct, by simp, ?_⟩
    intro a ha b hb hab
    obtain ⟨other, hother, rfl⟩ := List.mem_map.mp ha
    obtain rfl : b = job.id := by simpa using hb
    exact hfresh other hother hab
  · intro other hmem hbears hterm
    rcases List.mem_append.mp hmem with hmem | hmem
    · exact h.listed other hmem hbears hterm
    · obtain rfl := List.mem_singleton.mp hmem
      rw [hstatus] at hterm
      cases hterm

theorem Covered.set (h : Covered identity disk)
    (hi : disk.jobs[i]? = some old) (hid : new.id = old.id)
    (hlisted : Bears new identity → new.status.terminal = true →
      identity ∈ disk.record.jobs) :
    Covered identity { disk with jobs := disk.jobs.set i new } := by
  constructor
  · show ((disk.jobs.set i new).map Job.id).Nodup
    rw [map_id_set hi hid]
    exact h.distinct
  · intro job hmem hbears hterm
    rcases List.mem_or_eq_of_mem_set hmem with hmem | rfl
    · exact h.listed job hmem hbears hterm
    · exact hlisted hbears hterm

theorem callRules_enqueue {req : EnqueueRequest} {id : Uuid}
    (hfresh : ∀ job ∈ disk.jobs, job.id ≠ id) :
    CallRules (Covered identity) proto (.enqueue req id now) disk := by
  intro s r heff h
  simp only [Call.effect, enqueue] at heff
  split at heff
  · cases heff
  · unfold enqueueChecked at heff
    split at heff
    · split at heff <;> cases heff
    · split at heff
      · cases heff
      · dsimp only at heff
        split at heff
        · cases heff
        · cases heff
          exact h.concat hfresh rfl

theorem callRules_claim {serverId : String} :
    CallRules (Covered identity) proto (.claimNext serverId now) disk := by
  intro s r heff h
  simp only [Call.effect, claimNext] at heff
  split at heff
  · cases heff
  · rename_i hloc
    cases heff
    exact h.set (getElem?_of_locate hloc) rfl fun _ hterm => by cases hterm

theorem callRules_cancel {jobId : String} :
    CallRules (Covered identity) proto (.cancel jobId now) disk := by
  intro s r heff h
  simp only [Call.effect, cancel] at heff
  split at heff
  · cases heff
  · rename_i hloc
    split at heff
    · cases heff
    · cases heff
      exact h.set (getElem?_of_locate hloc) rfl
        fun _ hterm => by cases hterm

/-- A job a completion writes is found running before it. -/
theorem Covered.foundRunning (h : Covered identity disk) {s : List Job}
    {r : List Job → Except Failure Reply}
    (heff : complete proto c now disk.jobs = .written s r) :
    FoundRunning disk.jobs ⟨c.jobId, c.serverId⟩ := by
  obtain ⟨i, old, new, hi, -, -, hid, hserver, hrun, -, -⟩ :=
    complete_written heff
  have hfind := findJob_of_mem h.distinct (List.mem_of_getElem? hi)
  rw [hid] at hfind
  exact ⟨old, hfind, hserver, hrun⟩

/-- A completion answered without a write names a terminal job. -/
theorem complete_replied {a : Reply}
    (h : complete proto c now jobs = .replied a) :
    ∃ job ∈ jobs, Bears job ⟨c.jobId, c.serverId⟩
      ∧ job.status.terminal = true := by
  unfold complete at h
  split at h
  · cases h
  · split at h
    · cases h
    · rename_i i job hloc
      have hacc := accepted_of_locate hloc
      simp only [Bool.and_eq_true, beq_iff_eq] at hacc
      split at h
      · rename_i hterm
        exact ⟨job, mem_of_locate hloc, hacc, hterm⟩
      · split at h
        · cases h
        · split at h <;> cases h

theorem completeRules_covered
    (hsafe : safeRecoveryJob identity.jobId identity.serverId
      = some identity) :
    CompleteRules (Covered identity) (Only identity) true proto c now
      w := by
  constructor
  · intro d s r heff hlisted h
    have hrun := h.foundRunning heff
    obtain ⟨i, old, new, hi, rfl, -, hid, hserver, -, hadv, -⟩ :=
      complete_written heff
    refine h.set hi hadv.id fun hbears _ => ?_
    have hsame : (⟨c.jobId, c.serverId⟩ : Identity) = identity := by
      obtain ⟨hj, hs⟩ := hbears
      rw [hadv.id, hid] at hj
      rw [hadv.serverId, hserver] at hs
      rw [hj, hs]
    subst hsame
    exact hlisted rfl _ hsafe hrun
  · intro w₁ d other hst _ hid hpending hnot hacc hrecord hw₁ hd
    obtain rfl : other = ⟨c.jobId, c.serverId⟩ :=
      safeRecoveryJob_eq_some hid
    refine ⟨hd.distinct, fun job hmem hbears hterm => ?_⟩
    by_cases heq : (⟨c.jobId, c.serverId⟩ : Identity) = identity
    · -- its own completion was accepted with its entry not pending
      exfalso
      rw [heq] at hnot hpending
      rcases hacc with ⟨a, ha⟩ | ⟨⟨s, r, hs⟩, -⟩
      · obtain ⟨done, hdone, hdoneBears, hdoneTerm⟩ := complete_replied ha
        rw [heq] at hdoneBears
        rw [hst.jobs] at hdone
        have hlisted := hw₁.listed done hdone hdoneBears hdoneTerm
        rw [← hst.record] at hlisted
        obtain ⟨found, hfind, -, hstatus⟩ :=
          hst.matched identity rfl hlisted
        have hsame := hw₁.found hdone hdoneBears
        rw [← hst.jobs, hfind] at hsame
        obtain rfl := Option.some.inj hsame
        rcases hstatus with hrun | ⟨-, hpend⟩
        · rw [hrun] at hdoneTerm
          cases hdoneTerm
        · exact hnot hpend
      · rw [hst.jobs] at hs hpending
        have hrun := hw₁.foundRunning hs
        rw [heq] at hrun
        exact hnot (hpending rfl hrun)
    · have hlen : identity.jobId.toList.length = 36 := by
        rw [← hbears.1]
        exact job.id.text_length
      exact RecoveryRecord.mem_removeJob (hd.listed job hmem hbears hterm)
        heq hlen (idLength_of_accepted hacc)

/-- Other jobs may be acknowledged. -/
theorem removes_covered {other : Identity} (hne : other ≠ identity) :
    Removes (Covered identity) other := by
  intro d found hfind _ _ h
  refine ⟨h.distinct, fun job hmem hbears hterm => ?_⟩
  have hlen : identity.jobId.toList.length = 36 := by
    rw [← hbears.1]
    exact job.id.text_length
  exact RecoveryRecord.mem_removeJob (h.listed job hmem hbears hterm) hne
    hlen (findJob_idLength hfind)

-- ====== steps

/-- `randomUUID` returns an id no job on disk has. -/
def FreshId (w : World) : Op → Prop
  | .enqueue _ id _ => ∀ job ∈ w.disk.jobs, job.id ≠ id
  | _ => True

/-- Opening a process leaves the jobs on disk alone. -/
theorem opened_disk_jobs {P : Disk → Prop} {T : Identity → Prop}
    (hw : Rests P T w) (t : Turn) :
    (w.begin t).opened.disk.jobs = w.disk.jobs := by
  have hrests : Rests (SameJobs w.disk) Unwatched w := by
    refine ⟨rfl, fun hfatal hinit => ?_⟩
    exact { hw.steady hfatal hinit with matched := fun _ h => h.elim }
  have h := wp_opened (rules_sameJobs w.disk) (hrests.begin t)
  obtain ⟨hr, heq⟩ := h
  have hkept : Kept (SameJobs w.disk) (w.begin t).opened := by
    rw [← heq]
    revert hr
    cases (init (w.begin t)).1 with
    | ok _ => exact fun hr => hr.1
    | error e => exact fun hr => hr.1
  exact hkept.disk

/-- The steps of a run in which a job is not acknowledged. -/
def Surviving (proto : Protocol) (identity : Identity) (w : World)
    (f : Fate) : Prop :=
  FreshId w f.turn.op ∧ Unacknowledged true proto identity w f

theorem owes_of_surviving
    (hsafe : safeRecoveryJob identity.jobId identity.serverId
      = some identity) {f : Fate}
    (hw : Rests (Covered identity) (Only identity) w)
    (h : Surviving proto identity w f) :
    f.Owes (Covered identity) (Only identity) true proto w := by
  obtain ⟨hfresh, hack⟩ := h
  constructor
  · cases hop : f.turn.op with
    | enqueue req id now =>
        rw [hop] at hfresh
        refine callRules_enqueue ?_
        rw [opened_disk_jobs hw]
        exact hfresh
    | claimNext serverId now => exact callRules_claim
    | cancel jobId now => exact callRules_cancel
    | complete c now => exact fun _ _ => completeRules_covered hsafe
    | init => trivial
    | beginReconciliation jobId serverId => trivial
    | acknowledgeReconciliation jobId serverId => trivial
    | query q => trivial
  · intro jobId serverId hop
    by_cases hne : (⟨jobId, serverId⟩ : Identity) = identity
    · subst hne
      exact .inr (hack hop)
    · exact .inl (removes_covered hne)

-- ====== refusal

/-- The mutations that wait for reconciliation. -/
def Op.waits : Op → Bool
  | enqueue _ _ _ => true
  | claimNext _ _ => true
  | cancel _ _ => true
  | _ => false

theorem wp_mutate_recovering {P : Disk → Prop} {T : Identity → Prop}
    (hrules : Rules P T) {c : Call}
    (hc : ∀ input now, c ≠ .complete input now) (hw : Good P T w)
    (hfatal : w.opened.fatal = none)
    (hrecord : w.opened.disk.record.jobs ≠ []) :
    Exec.wp (mutate automatic proto c)
      (fun r w' => r = .error (.durable recoveryCode recoveryMessage)
        ∧ w' = w.opened) w := by
  rw [mutate, Exec.wp_bind]
  refine Exec.wp_mono (wp_opened hrules hw) ?_
  rintro r w' ⟨hr, rfl⟩
  cases r with
  | error e =>
      have hf := hr.2
      rw [hfatal] at hf
      cases hf
  | ok _ =>
      have hst := hr.2.2 hfatal
      dsimp only
      rw [Exec.wp_bind, assertMutationAllowed, Exec.wp_bind]
      refine wp_assertHealthy ?_ fun hf _ => ?_
      · intro _
        dsimp only
        rw [Exec.wp_bind, Exec.wp_read]
        dsimp only
        have hsome : w.opened.recovery.isSome = true := by
          rw [hst.recovery, hst.record]
          cases hj : w.opened.disk.record.jobs with
          | nil => exact absurd hj hrecord
          | cons => rfl
        cases c with
        | complete input now => exact absurd rfl (hc input now)
        | enqueue req id now | findIdempotentJob req
        | claimNext serverId now | cancel jobId now =>
            dsimp only
            rw [if_pos hsome]
            exact ⟨rfl, rfl⟩
      · rw [hfatal] at hf
        cases hf

theorem refused_while_recovering {P : Disk → Prop} {T : Identity → Prop}
    (hrules : Rules P T) (hw : Rests P T w) {t : Turn}
    (hop : t.op.waits = true) (hfatal : (w.begin t).opened.fatal = none)
    (hrecord : (w.begin t).opened.disk.record.jobs ≠ []) :
    (machine automatic proto).answer w t
        = .error (.durable recoveryCode recoveryMessage)
      ∧ (machine automatic proto).next w t = (w.begin t).opened := by
  have hgood := hw.begin t
  obtain ⟨op, clock, faults⟩ := t
  cases op with
  | enqueue req id now =>
      exact wp_mutate_recovering hrules (c := .enqueue req id now) (by simp)
        hgood hfatal hrecord
  | claimNext serverId now =>
      exact wp_mutate_recovering hrules (c := .claimNext serverId now)
        (by simp) hgood hfatal hrecord
  | cancel jobId now =>
      exact wp_mutate_recovering hrules (c := .cancel jobId now) (by simp)
        hgood hfatal hrecord
  | init | complete _ _ | beginReconciliation _ _
  | acknowledgeReconciliation _ _ | query _ => cases hop

-- ====== restart

/-- A process that opens on a disk lists what runs there. -/
theorem restart_lists {P : Disk → Prop} {T : Identity → Prop}
    (hrules : Rules P T) (hdisk : P disk) (clock : Instant)
    (faults : List Bool) :
    let w := (machine automatic proto).next (World.boot disk)
      ⟨.init, clock, faults⟩
    w.fatal = none → P w.disk ∧ ∀ job ∈ w.disk.jobs,
      job.status = .running →
        (⟨job.id.text, job.serverId⟩ : Identity) ∈ w.disk.record.jobs := by
  have hgood : Good P T
      ((World.boot disk).begin ⟨.init, clock, faults⟩) :=
    (rests_boot hdisk).begin _
  have hwp : Exec.wp (Op.program automatic proto .init)
      (fun _ w => w.fatal = none → P w.disk ∧ ∀ job ∈ w.disk.jobs,
        job.status = .running →
          (⟨job.id.text, job.serverId⟩ : Identity) ∈ w.disk.record.jobs)
      ((World.boot disk).begin ⟨.init, clock, faults⟩) := by
    rw [Op.program, Exec.wp_bind]
    refine wp_init hrules hgood ?_ ?_ ?_
    · intro hinit
      cases hinit
    · intro w _ hk hst _ hrunning
      dsimp only
      rw [Exec.wp_pure]
      intro _
      refine ⟨hk.disk, fun job hmem hrun => ?_⟩
      rw [← hst.record]
      rw [← hst.jobs] at hmem
      exact hst.toSettled.mem_of_key job.id.text_length
        (hrunning job hmem hrun)
    · intro e w _ hf
      dsimp only
      intro hnone
      rw [hnone] at hf
      cases hf
  exact hwp

-- ====== results

/-- With automatic reconciliation on, in every run, whatever fails in it
and wherever its processes die, as long as a job is not acknowledged: at
every point a crash can leave behind, that job is listed if it is
terminal; a process that opens after a crash at that point has every
running job listed too; and while the record is not empty, every mutation
but a completion is refused and changes nothing. -/
theorem listed_after_crash (proto : Protocol) (disk : Disk)
    (fates : List Fate) (identity : Identity)
    (hsafe : safeRecoveryJob identity.jobId identity.serverId
      = some identity)
    (hdisk : Covered identity disk)
    (hfates : (crashMachine true proto).Allowed
      (Surviving proto identity) (World.boot disk) fates) :
    let w := (crashMachine true proto).run (World.boot disk) fates
    (∀ job ∈ w.disk.jobs, Bears job identity →
      job.status.terminal = true → identity ∈ w.disk.record.jobs)
    ∧ (∀ clock faults,
        let reopened := (machine true proto).next (World.boot w.disk)
          ⟨.init, clock, faults⟩
        reopened.fatal = none →
          (∀ job ∈ reopened.disk.jobs, Bears job identity →
            job.status.terminal = true →
              identity ∈ reopened.disk.record.jobs)
          ∧ ∀ job ∈ reopened.disk.jobs, job.status = .running →
              (⟨job.id.text, job.serverId⟩ : Identity)
                ∈ reopened.disk.record.jobs)
    ∧ (∀ t : Turn, t.op.waits = true →
        (w.begin t).opened.fatal = none →
        (w.begin t).opened.disk.record.jobs ≠ [] →
          (machine true proto).answer w t
              = .error (.durable recoveryCode recoveryMessage)
            ∧ (machine true proto).next w t = (w.begin t).opened) := by
  intro w
  have hw : Rests (Covered identity) (Only identity) w := by
    refine rests_run (rules_covered identity) ?_ (rests_boot hdisk)
    refine Machine.allowed_mono _ ?_ hfates
    exact fun w f h hrests => owes_of_surviving hsafe hrests h
  refine ⟨hw.disk.listed, ?_, ?_⟩
  · intro clock faults reopened hfatal
    obtain ⟨hcovered, hrunning⟩ :=
      restart_lists (rules_covered identity) hw.disk clock faults hfatal
    exact ⟨hcovered.listed, hrunning⟩
  · intro t hop hfatal hrecord
    exact refused_while_recovering (rules_covered identity) hw hop hfatal
      hrecord

theorem covered_crashedDisk : Covered crashedIdentity crashedDisk := by
  refine ⟨List.nodup_singleton _, fun job hmem _ hterm => ?_⟩
  obtain rfl := List.mem_singleton.mp hmem
  cases hterm

/-- A process dies right after the write that makes a job terminal: the
job is listed on the disk it leaves. -/
theorem listed_after_crash_completed :
    let w := (crashMachine true sampleProtocol).run
      (World.boot crashedDisk) [⟨smoothly (completing "failed"), some 2⟩]
    w.disk.jobs.map Job.status = [.failed]
      ∧ ∀ job ∈ w.disk.jobs, Bears job crashedIdentity →
        job.status.terminal = true →
          crashedIdentity ∈ w.disk.record.jobs :=
  ⟨rfl, (listed_after_crash sampleProtocol crashedDisk
    [⟨smoothly (completing "failed"), some 2⟩] crashedIdentity rfl
    covered_crashedDisk
    ⟨⟨trivial, fun h => by cases h⟩, trivial⟩).1⟩

def secondId : Uuid := ⟨"00000000-0000-4000-8000-000000000002", by decide⟩

/-- Two jobs waiting, one on each of two servers. -/
def queuedDisk (first second : String) : Disk :=
  { jobs :=
      [{ sampleJob sampleId .queued none with
          serverId := first, resourceId := first },
        { sampleJob secondId .queued none with
          serverId := second, resourceId := second }]
    record := .empty }

def finishing (id : Uuid) (serverId : String) : Op :=
  .complete ⟨serverId, id.text, "failed", .null, .null⟩ ⟨2⟩

/-- Both jobs claimed, the first completed. -/
def oneFinished (first second : String) : World :=
  (machine true sampleProtocol).run (World.boot (queuedDisk first second))
    [smoothly (.claimNext first ⟨1⟩), smoothly (.claimNext second ⟨1⟩),
      smoothly (finishing sampleId first)]

/-- Longer than the record takes. -/
def longServer : String := String.ofList (List.replicate 129 'a')

/-- A completion goes through for a job that is not listed while another
one is; and a job whose server's name is too long for the record is
terminal on disk, unlisted, after its process died and the next one
opened. -/
theorem completes_while_recovering :
    let w := (crashMachine true sampleProtocol).run
      (oneFinished longServer "server-2")
      [⟨smoothly .init, some 0⟩, ⟨smoothly .init, none⟩]
    ((oneFinished "server-1" "server-2").disk.record.jobs
        = [⟨sampleId.text, "server-1"⟩]
      ∧ ∃ a, (machine true sampleProtocol).answer
          (oneFinished "server-1" "server-2")
          (smoothly (finishing secondId "server-2")) = .ok a)
    ∧ w.initialized = true
    ∧ w.disk.jobs.map Job.status = [.failed, .running]
    ∧ w.disk.record.jobs = [⟨secondId.text, "server-2"⟩] := by
  refine ⟨⟨rfl, ⟨_, rfl⟩⟩, ?_, ?_, ?_⟩ <;> decide +kernel

end Yunpanel.Jobs.Durable
