/-
Every call of the durable registry, and every step of its machines.

`Owes` collects what each call must be granted for a property of disks to
survive it: its own job write, and for a completion the entry it may take
out. An acknowledgement is the exception: it either may take its entry out
(`Removes`), or it did not go through.

`rests_next` is the step lemma of the machine with crashes, and
`rests_run` the run lemma every result about the durable registry starts
from; `rests_any` is its plainest case.
-/
import Yunpanel.Jobs.Proofs.Reconciliation
import Yunpanel.Lib.Machine

namespace Yunpanel.Jobs.Durable

open Lib

variable {P : Disk → Prop} {T : Identity → Prop}

-- ====== reads

variable {proto : Protocol} {w : World} {automatic : Bool}

theorem reports_findIdempotentJob {req : EnqueueRequest} {jobs : List Job}
    {reply : Reply} (h : Jobs.findIdempotentJob proto req jobs = .ok reply) :
    ∀ v ∈ replyShows reply, Shown jobs v := by
  have hcases := effectCases proto (.findIdempotentJob req) jobs
  have heff : Call.effect proto (.findIdempotentJob req) jobs
      = .replied reply := by
    simp only [Call.effect, h]
    rfl
  rw [heff] at hcases
  cases hcases with
  | replied _ hshown => exact hshown

theorem reports_query {q : Query} {jobs : List Job} {a : DurableReply}
    (h : q.answer proto jobs = .ok a) :
    a.Reports jobs := by
  cases q with
  | getJob jobId =>
      cases h
      intro v hv
      obtain ⟨job, hfind, rfl⟩ := Option.map_eq_some_iff.mp hv
      exact ⟨job, List.mem_of_find?_eq_some hfind, rfl⟩
  | listJobs filter =>
      cases h
      intro v hv
      obtain ⟨job, hmem, rfl⟩ := List.mem_map.mp hv
      exact ⟨job, (List.mem_filter.mp hmem).1, rfl⟩
  | findIdempotentJob req =>
      simp only [Query.answer] at h
      split at h
      · cases h
      · rename_i reply hreply
        cases h
        exact reports_findIdempotentJob hreply

/-- A query is refused by a process that is over, or answered from the
disk. -/
def FromDisk (proto : Protocol) (q : Query)
    (r : Except Rejection DurableReply) (w : World) : Prop :=
  (w.fatal.isSome = true ∧ ∃ e, r = .error e)
    ∨ r = q.answer proto w.disk.jobs

theorem wp_query (hrules : Rules P T) (proto : Protocol) (q : Query)
    (hw : Good P T w) :
    Exec.wp (query proto q) (fun r w' => Answered P T r w'
      ∧ FromDisk proto q r w') w := by
  have hrest : ∀ w', Kept P w' → w'.initialized = true →
      (w'.fatal = none → Steady T w') →
      Exec.wp (do
        assertHealthy
        let jobs ← Exec.read World.jobs
        Exec.ofExcept (q.answer proto jobs))
        (fun r w' => Answered P T r w' ∧ FromDisk proto q r w') w' := by
    intro w' hk hinit hst
    rw [Exec.wp_bind]
    refine wp_assertHealthy ?_ ?_
    · intro hfatal
      dsimp only
      rw [Exec.wp_bind, Exec.wp_read]
      dsimp only
      rw [Exec.wp_ofExcept]
      refine ⟨answered_steady hk (hst hfatal) ?_, .inr ?_⟩
      · intro a ha
        exact reports_query ha
      · rw [(hst hfatal).jobs]
    · intro hf e
      exact ⟨answered_fatal hk hf, .inl ⟨hf, e, rfl⟩⟩
  rw [query, Exec.wp_bind]
  refine Exec.wp_mono (wp_opened hrules hw) ?_
  rintro r w' ⟨hr, -⟩
  cases r with
  | ok _ => exact hrest w' hr.1 hr.2.1 hr.2.2
  | error e => exact ⟨answered_fatal hr.1 hr.2, .inl ⟨hr.2, e, rfl⟩⟩

-- ====== calls

/-- What a call owes the disks. -/
def Op.Owes (P : Disk → Prop) (T : Identity → Prop) (automatic : Bool)
    (proto : Protocol) (w : World) : Op → Prop
  | enqueue req id now =>
      CallRules P proto (.enqueue req id now) w.opened.disk
  | claimNext serverId now =>
      CallRules P proto (.claimNext serverId now) w.opened.disk
  | cancel jobId now => CallRules P proto (.cancel jobId now) w.opened.disk
  | complete c now => Kept P w.opened → Steady T w.opened →
      CompleteRules P T automatic proto c now w.opened
  | init => True
  | beginReconciliation _ _ => True
  | acknowledgeReconciliation _ _ => True
  | query _ => True

/-- An acknowledgement that was answered, where it must not have been. -/
def Op.Escapes (P : Disk → Prop) (op : Op)
    (r : Except Rejection DurableReply) : Prop :=
  ∃ jobId serverId, op = .acknowledgeReconciliation jobId serverId
    ∧ Acknowledges jobId serverId r ∧ ¬Removes P ⟨jobId, serverId⟩

theorem wp_mutate_other (hrules : Rules P T) (automatic : Bool) {c : Call}
    (hc : ∀ input now, c ≠ .complete input now)
    (hcall : CallRules P proto c w.opened.disk) (hw : Good P T w) :
    Exec.wp (mutate automatic proto c) (Answered P T) w := by
  refine wp_mutate hrules hw ?_
  rintro w' hk hst hinit rfl hallowed
  refine wp_perform_other hc hk hst hinit ?_ hcall
  rcases hallowed with hnone | ⟨input, now, heq⟩
  · exact hnone
  · exact absurd heq (hc input now)

theorem wp_mutate_complete (hrules : Rules P T) {c : Completion}
    {now : Instant} (hw : Good P T w)
    (hcall : Kept P w.opened → Steady T w.opened →
      CompleteRules P T automatic proto c now w.opened) :
    Exec.wp (mutate automatic proto (.complete c now)) (Answered P T)
      w := by
  refine wp_mutate hrules hw ?_
  rintro w' hk hst hinit rfl _
  exact wp_perform_complete hrules hk hst hinit (hcall hk hst)

/-- One call keeps what holds between calls. -/
theorem wp_op (hrules : Rules P T) {op : Op} (hw : Good P T w)
    (howes : op.Owes P T automatic proto w) :
    Exec.wp (op.program automatic proto)
      (fun r w' => Answered P T r w' ∨ op.Escapes P r) w := by
  have hinl : ∀ {x : Program DurableReply},
      Exec.wp x (Answered P T) w →
        Exec.wp x (fun r w' => Answered P T r w' ∨ op.Escapes P r) w :=
    fun h => Exec.wp_mono h fun _ _ => .inl
  cases op with
  | init =>
      refine hinl ?_
      rw [Op.program, Exec.wp_bind]
      refine wp_init hrules hw ?_ ?_ fun e w' h hf => answered_fatal h hf
      · intro _
        exact ⟨hw, fun a ha => by cases ha; trivial⟩
      · intro w' _ hk hst _ _
        exact answered_steady hk hst fun a ha => by cases ha; trivial
  | enqueue req id now =>
      exact hinl (wp_mutate_other hrules automatic (by simp) howes hw)
  | claimNext serverId now =>
      exact hinl (wp_mutate_other hrules automatic (by simp) howes hw)
  | cancel jobId now =>
      exact hinl (wp_mutate_other hrules automatic (by simp) howes hw)
  | complete c now =>
      exact hinl (wp_mutate_complete hrules hw howes)
  | beginReconciliation jobId serverId =>
      exact hinl (Exec.wp_mono (wp_beginReconciliation hrules jobId serverId hw)
        fun _ _ h => h.1)
  | query q =>
      exact hinl (Exec.wp_mono (wp_query hrules proto q hw) fun _ _ h => h.1)
  | acknowledgeReconciliation jobId serverId =>
      refine Exec.wp_mono (wp_acknowledgeReconciliation hrules hw) ?_
      rintro r w' (h | ⟨hack, hnot⟩)
      · exact .inl h
      · exact .inr ⟨jobId, serverId, rfl, hack, hnot⟩

-- ====== machines

/-- What a machine is in between two calls: `Good`, with the writes of the
last call forgotten. -/
structure Rests (P : Disk → Prop) (T : Identity → Prop) (w : World) :
    Prop where
  disk : P w.disk
  steady : w.fatal = none → w.initialized = true → Steady T w

theorem Good.rests (h : Good P T w) : Rests P T w :=
  ⟨h.kept.disk, h.steady⟩

theorem Rests.begin (h : Rests P T w) (t : Turn) :
    Good P T (w.begin t) := by
  refine ⟨⟨h.disk, by simp [World.begin]⟩, ?_⟩
  intro hfatal hinit
  exact { h.steady hfatal hinit with }

theorem rests_boot {disk : Disk} (h : P disk) :
    Rests P T (World.boot disk) :=
  ⟨h, fun _ hinit => by cases hinit⟩

/-- What a property of disks says of the disk a crash leaves. -/
theorem diskAfter_of_forall {before : Disk} {written : List Disk} {n : Nat}
    (hbefore : P before) (hwritten : ∀ d ∈ written, P d) :
    P (diskAfter before written n) := by
  unfold diskAfter
  cases hlast : (written.take n).getLast? with
  | none => exact hbefore
  | some d =>
      have hmem : d ∈ written.take n := List.mem_of_getLast? hlast
      exact hwritten d (List.mem_of_mem_take hmem)

/-- What a call and its crash owe the disks. -/
structure Fate.Owes (P : Disk → Prop) (T : Identity → Prop)
    (automatic : Bool) (proto : Protocol) (w : World) (f : Fate) : Prop where
  call : f.turn.op.Owes P T automatic proto (w.begin f.turn)
  acknowledge : ∀ jobId serverId,
    f.turn.op = .acknowledgeReconciliation jobId serverId →
      Removes P ⟨jobId, serverId⟩
        ∨ f.crash = none ∧ ¬Acknowledges jobId serverId
            ((machine automatic proto).answer w f.turn)

/-- One call of a process that lives on. -/
theorem answered_next (hrules : Rules P T) {f : Fate} (hw : Rests P T w)
    (howes : f.Owes P T automatic proto w) :
    Answered P T ((machine automatic proto).answer w f.turn)
      ((machine automatic proto).next w f.turn) := by
  have h := wp_op hrules (hw.begin f.turn) howes.call
  rcases h with h | ⟨jobId, serverId, hop, hack, hnot⟩
  · exact h
  · rcases howes.acknowledge jobId serverId hop with hrem | ⟨-, hno⟩
    · exact absurd hrem hnot
    · exact absurd hack hno

/-- What holds between calls survives a call and survives a crash inside
one. -/
theorem rests_next (hrules : Rules P T) {f : Fate} (hw : Rests P T w)
    (howes : f.Owes P T automatic proto w) :
    Rests P T ((crashMachine automatic proto).next w f) := by
  have h := (answered_next hrules hw howes).1
  show Rests P T ((crashMachine automatic proto).step w f).1
  unfold crashMachine
  dsimp only
  cases f.crash with
  | none => exact h.rests
  | some n =>
      exact rests_boot (diskAfter_of_forall hw.disk h.kept.written)

theorem rests_run (hrules : Rules P T) {fates : List Fate}
    (hok : (crashMachine automatic proto).Allowed
      (fun w f => Rests P T w → f.Owes P T automatic proto w) w fates)
    (hw : Rests P T w) :
    Rests P T ((crashMachine automatic proto).run w fates) :=
  Machine.invariant_of_allowed
    (fun _ _ howes h => rests_next hrules h (howes h)) hok hw

-- ====== memory is disk

/-- Nothing asked of the disks, nothing watched. -/
def AnyDisk (_ : Disk) : Prop := True

def Unwatched (_ : Identity) : Prop := False

theorem rules_any : Rules AnyDisk Unwatched :=
  ⟨fun _ _ _ _ => trivial, fun _ _ _ h => h.elim⟩

theorem owes_any (automatic : Bool) (proto : Protocol) (w : World)
    (f : Fate) : f.Owes AnyDisk Unwatched automatic proto w := by
  refine ⟨?_, fun _ _ _ => .inl fun _ _ _ _ _ _ => trivial⟩
  cases f.turn.op with
  | enqueue req id now => exact fun _ _ _ _ => trivial
  | claimNext serverId now => exact fun _ _ _ _ => trivial
  | cancel jobId now => exact fun _ _ _ _ => trivial
  | complete c now =>
      exact fun _ _ =>
        ⟨fun _ _ _ _ _ _ => trivial,
          fun _ _ _ _ _ _ _ _ _ _ _ _ => trivial⟩
  | init => trivial
  | beginReconciliation jobId serverId => trivial
  | acknowledgeReconciliation jobId serverId => trivial
  | query q => trivial

/-- Between any two calls of any run, memory is the disk. -/
theorem rests_any (automatic : Bool) (proto : Protocol) (disk : Disk)
    (fates : List Fate) :
    Rests AnyDisk Unwatched
      ((crashMachine automatic proto).run (World.boot disk) fates) := by
  refine rests_run rules_any ?_ (rests_boot trivial)
  exact Machine.allowed_of_forall _
    (fun w f _ => owes_any automatic proto w f) _ _

/-- The same worlds, with something asked of the disk they start on. -/
theorem Rests.strengthen (h : Rests AnyDisk Unwatched w) (hP : P w.disk) :
    Rests P Unwatched w :=
  ⟨hP, h.steady⟩

end Yunpanel.Jobs.Durable
