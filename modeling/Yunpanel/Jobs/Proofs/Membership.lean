/-
Whether a job stays in the recovery record once its reconciliation has
begun.

# Where it leaves early

With automatic reconciliation off, a rejected mutation reloads and detects
anew, and detection knows only terminal entries as pending: a job begun
explicitly and still running is no longer pending afterwards. Completing it
then takes it out of the record, as if nobody had begun it.

# Where it stays

`Spares` is the one thing that must not happen: the completion of a job
that is not pending, accepted while automatic reconciliation is off.
-/
import Yunpanel.Jobs.Proofs.Calls

namespace Yunpanel.Jobs.Durable

open Lib

/-- The record of a disk names this job. -/
def Records (identity : Identity) (disk : Disk) : Prop :=
  identity ∈ disk.record.jobs

/-- This job alone is watched. -/
def Only (identity : Identity) (other : Identity) : Prop :=
  other = identity

theorem rules_records (identity : Identity) :
    Rules (Records identity) (Only identity) := by
  refine ⟨fun _ _ hsub h => hsub identity h, ?_⟩
  intro d other h hother hnot
  obtain rfl : other = identity := hother
  exact absurd h hnot

/-- A completion that does not take the job out of the record early. -/
def Spares (automatic : Bool) (proto : Protocol) (identity : Identity)
    (w : World) : Op → Prop
  | .complete c now =>
      automatic = true ∨ (⟨c.jobId, c.serverId⟩ : Identity) ≠ identity
        ∨ identity.key ∈ w.reconciliationPending
        ∨ ¬Accepted proto c now w
  | _ => True

variable {automatic : Bool} {proto : Protocol} {identity : Identity}
  {w : World}

theorem completeRules_records {c : Completion} {now : Instant}
    (hlen : identity.jobId.toList.length = 36)
    (hspares : Spares automatic proto identity w (.complete c now)) :
    CompleteRules (Records identity) (Only identity) automatic proto c now
      w := by
  refine ⟨fun d s r _ _ h => h, ?_⟩
  intro w₁ d other hst hsame hid hpending hnot hacc hrecord hw₁ hd
  obtain rfl : other = ⟨c.jobId, c.serverId⟩ := safeRecoveryJob_eq_some hid
  by_cases heq : (⟨c.jobId, c.serverId⟩ : Identity) = identity
  · -- its own completion: the entry is matched, so it is pending
    exfalso
    have hmem : identity ∈ w₁.record.jobs := by
      rw [← hrecord]
      exact hd
    obtain ⟨job, hfind, hserver, hstatus⟩ :=
      hst.matched identity rfl hmem
    rw [heq] at hnot hpending
    have hrun : FoundRunning w₁.jobs identity := by
      rcases hstatus with hrun | ⟨-, hpend⟩
      · exact ⟨job, hfind, hserver, hrun⟩
      · exact absurd hpend hnot
    cases automatic with
    | true => exact hnot (hpending rfl hrun)
    | false =>
        rw [hsame rfl] at hnot hacc
        rcases hspares with hauto | hne | hpend | hrefused
        · cases hauto
        · exact hne heq
        · exact hnot hpend
        · exact hrefused hacc
  · exact RecoveryRecord.mem_removeJob hd heq hlen (idLength_of_accepted hacc)

/-- Other jobs may be acknowledged. -/
theorem removes_records {other : Identity}
    (hlen : identity.jobId.toList.length = 36) (hne : other ≠ identity) :
    Removes (Records identity) other := by
  intro d job hfind _ _ h
  exact RecoveryRecord.mem_removeJob h hne hlen (findJob_idLength hfind)

/-- The step does not acknowledge the job, not even by a call a crash cuts
short. -/
def Unacknowledged (automatic : Bool) (proto : Protocol)
    (identity : Identity) (w : World) (f : Fate) : Prop :=
  f.turn.op
      = .acknowledgeReconciliation identity.jobId identity.serverId →
    f.crash = none
      ∧ ¬Acknowledges identity.jobId identity.serverId
          ((machine automatic proto).answer w f.turn)

/-- The steps that leave a begun job recorded. -/
def Keeping (automatic : Bool) (proto : Protocol) (identity : Identity)
    (w : World) (f : Fate) : Prop :=
  Spares automatic proto identity (w.begin f.turn).opened f.turn.op
    ∧ Unacknowledged automatic proto identity w f

theorem owes_of_keeping (hlen : identity.jobId.toList.length = 36)
    {f : Fate} (h : Keeping automatic proto identity w f) :
    f.Owes (Records identity) (Only identity) automatic proto w := by
  obtain ⟨hspares, hack⟩ := h
  constructor
  · cases hop : f.turn.op with
    | enqueue req id now => exact fun _ _ _ h => h
    | claimNext serverId now => exact fun _ _ _ h => h
    | cancel jobId now => exact fun _ _ _ h => h
    | complete c now =>
        rw [hop] at hspares
        exact fun _ _ => completeRules_records hlen hspares
    | init => trivial
    | beginReconciliation jobId serverId => trivial
    | acknowledgeReconciliation jobId serverId => trivial
    | query q => trivial
  · intro jobId serverId hop
    by_cases hne : (⟨jobId, serverId⟩ : Identity) = identity
    · subst hne
      exact .inr (hack hop)
    · exact .inl (removes_records hlen hne)

/-- What the answer to a begin says of the world after it. -/
theorem begun_next {t : Turn} (hw : Rests AnyDisk Unwatched w)
    {jobId serverId : String}
    (hop : t.op = .beginReconciliation jobId serverId) :
    Begun (T := Unwatched) jobId serverId
      ((machine automatic proto).answer w t)
      ((machine automatic proto).next w t) := by
  obtain ⟨op, clock, faults⟩ := t
  obtain rfl : op = .beginReconciliation jobId serverId := hop
  have h := wp_beginReconciliation rules_any jobId serverId
    (hw.begin ⟨.beginReconciliation jobId serverId, clock, faults⟩)
  exact h.2

-- ====== results

/-- In every run, whatever fails in it and wherever its processes die: a
job whose reconciliation has begun stays in the recovery record, through
every step that does not acknowledge it and does not complete it early. -/
theorem begun_stays_recorded (automatic : Bool) (proto : Protocol)
    (disk : Disk) (before after : List Fate) (t : Turn)
    (jobId serverId : String) (status : Status)
    (hop : t.op = .beginReconciliation jobId serverId)
    (hbegun : (machine automatic proto).answer
        ((crashMachine automatic proto).run (World.boot disk) before) t
      = .ok (.begun ⟨jobId, serverId⟩ status true))
    (hafter : (crashMachine automatic proto).Allowed
      (Keeping automatic proto ⟨jobId, serverId⟩)
      ((machine automatic proto).next
        ((crashMachine automatic proto).run (World.boot disk) before) t)
      after) :
    Records ⟨jobId, serverId⟩
      ((crashMachine automatic proto).run
        ((machine automatic proto).next
          ((crashMachine automatic proto).run (World.boot disk) before) t)
        after).disk := by
  generalize hw : (crashMachine automatic proto).run (World.boot disk)
    before = w at hbegun hafter ⊢
  have hrests : Rests AnyDisk Unwatched w :=
    hw ▸ rests_any automatic proto disk before
  obtain ⟨-, hst, hinit, hmem, hmatched⟩ :=
    begun_next hrests hop _ _ hbegun
  generalize (machine automatic proto).next w t = w₁
    at hafter hst hinit hmem hmatched ⊢
  have hlen : jobId.toList.length = 36 := hst.idLength _ hmem
  -- from here on the entry is watched
  have hstart : Rests (Records ⟨jobId, serverId⟩)
      (Only ⟨jobId, serverId⟩) w₁ := by
    refine ⟨?_, fun _ _ => { hst with matched := ?_ }⟩
    · show (⟨jobId, serverId⟩ : Identity) ∈ _
      rw [← hst.record]
      exact hmem
    · rintro other hother -
      obtain rfl : other = ⟨jobId, serverId⟩ := hother
      exact hmatched
  refine (rests_run (rules_records ⟨jobId, serverId⟩) ?_ hstart).disk
  refine Machine.allowed_mono _ ?_ hafter
  exact fun w f hkeeping _ => owes_of_keeping hlen hkeeping

/-- A disk left behind with one job running. -/
def crashedDisk : Disk :=
  { jobs := [sampleJob sampleId .running none], record := .empty }

def crashedIdentity : Identity := ⟨sampleId.text, "server-1"⟩

/-- A call no file operation of which fails. -/
def smoothly (op : Op) : Turn := { op, clock := ⟨0⟩, faults := [] }

def completing (status : String) : Op :=
  .complete ⟨"server-1", sampleId.text, status, .null, .null⟩ ⟨1⟩

/-- With automatic reconciliation on, completing a begun job leaves it
recorded. -/
theorem begun_stays_recorded_completed :
    Records crashedIdentity
      ((crashMachine true sampleProtocol).run
        ((machine true sampleProtocol).next (World.boot crashedDisk)
          (smoothly (.beginReconciliation sampleId.text "server-1")))
        [⟨smoothly (completing "failed"), none⟩]).disk :=
  begun_stays_recorded true sampleProtocol crashedDisk []
    [⟨smoothly (completing "failed"), none⟩]
    (smoothly (.beginReconciliation sampleId.text "server-1"))
    sampleId.text "server-1" .running rfl rfl
    ⟨⟨.inl rfl, fun h => by cases h⟩, trivial⟩

/-- With automatic reconciliation off: the job is begun and running, a
completion is rejected for its status, and the next one takes the job out
of the record, although nobody acknowledged it. -/
theorem begun_leaves_early :
    let begun := (machine false sampleProtocol).next
      (World.boot crashedDisk)
      (smoothly (.beginReconciliation sampleId.text "server-1"))
    (machine false sampleProtocol).answer (World.boot crashedDisk)
        (smoothly (.beginReconciliation sampleId.text "server-1"))
      = .ok (.begun crashedIdentity .running true)
    ∧ Records crashedIdentity begun.disk
    ∧ ¬ Records crashedIdentity
        ((machine false sampleProtocol).run begun
          [smoothly (completing "lost"), smoothly (completing "failed")]).disk
      := by
  refine ⟨rfl, ?_, ?_⟩
  · exact List.mem_singleton.mpr rfl
  · exact List.not_mem_nil

end Yunpanel.Jobs.Durable
