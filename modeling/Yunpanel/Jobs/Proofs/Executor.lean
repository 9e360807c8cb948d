/-
What the local executor does, whatever happens around it.

# The argument

A run of `work` relies on very little of the registry: that nobody else
touches a job that is not queued (`Spares`), and that its own write is where
it left it in the chain. `WorkOk` says what a run knows while it awaits each
of its calls, `Sound` what the registry and the log have together, and
`Inv` puts both on the executor's variables. The turns are taken one call
at a time (`TurnOk`), and everything the claim-free part of the log says
follows from its shape (`Each`).

A run halts where the head of the queue is another one at the claim than
when it was listed, so the last two results ask that it is not
(`HeadKept`).
-/
import Yunpanel.Js.Fields
import Yunpanel.Jobs.Executor
import Yunpanel.Jobs.Proofs.Lifecycle
import Yunpanel.Jobs.Proofs.Recovery

namespace Yunpanel.Jobs.Executor

open Lib

-- ====== the job list

/-- The jobs of a later list stand where they stood, and those that had
ended have ended the same way. -/
def Later (old new : List Job) : Prop :=
  ∀ (i : Nat) job, old[i]? = some job → ∃ job', new[i]? = some job'
    ∧ job'.id = job.id
    ∧ (job.status.terminal = true → job'.status = job.status)

theorem later_refl (jobs : List Job) : Later jobs jobs :=
  fun _ job h => ⟨job, h, rfl, fun _ => rfl⟩

theorem Later.trans {a b c : List Job} (hab : Later a b) (hbc : Later b c) :
    Later a c := by
  intro i job hi
  obtain ⟨job', hi', hid, hstatus⟩ := hab i job hi
  obtain ⟨job'', hi'', hid', hstatus'⟩ := hbc i job' hi'
  refine ⟨job'', hi'', hid'.trans hid, fun hterminal => ?_⟩
  have hsame := hstatus hterminal
  rw [hstatus' (by rw [hsame]; exact hterminal), hsame]

variable {jobs' : List Job} {i : Nat} {id jobId : Uuid} {n : Note}
  {note : Uuid → Note} {outcome : Status} {done : Completion} {w : Work}

theorem Change.later {jobs : List Job} (h : Change jobs jobs') :
    Later jobs jobs' := by
  intro i job hi
  obtain ⟨job', hi', hcase⟩ := h.entry hi
  refine ⟨job', hi', ?_⟩
  rcases hcase with rfl | hadv
  · exact ⟨rfl, fun _ => rfl⟩
  · refine ⟨hadv.id, fun hterminal => ?_⟩
    have hnext := hadv.status
    cases hs : job.status <;> simp_all [Status.next, Status.terminal]

/-- A change that leaves every job alone that is not queued. -/
structure Spares (jobs jobs' : List Job) : Prop where
  change : Change jobs jobs'
  busy : ∀ (i : Nat) job, jobs[i]? = some job → job.status ≠ .queued →
    jobs'[i]? = some job

theorem spares_refl (jobs : List Job) : Spares jobs jobs :=
  ⟨.kept, fun _ _ h _ => h⟩

variable {old new job : Job} {f : List Job → JobEffect}

/-- A queued job that moves on leaves the others as they are. -/
theorem spares_moved {jobs : List Job} (hi : jobs[i]? = some old)
    (h : Advances old new) (hqueued : old.status = .queued) :
    Spares jobs (jobs.set i new) := by
  refine ⟨.moved i old new hi h, fun j job hj hbusy => ?_⟩
  by_cases hij : i = j
  · subst hij
    rw [hi] at hj
    rw [Option.some.inj hj] at hqueued
    exact absurd hqueued hbusy
  · rw [List.getElem?_set_ne hij, hj]

/-- An accepted request puts its job at the end. -/
theorem enqueue_after (proto : Protocol) (req : EnqueueRequest) (id : Uuid)
    (now : Instant) (jobs : List Job) :
    (enqueue proto req id now jobs).after jobs = jobs
      ∨ ∃ job : Job, job.id = id
        ∧ (enqueue proto req id now jobs).after jobs = jobs ++ [job] := by
  unfold enqueue
  split
  · exact .inl rfl
  · unfold enqueueChecked
    split
    · split <;> exact .inl rfl
    · split
      · exact .inl rfl
      · dsimp only
        split
        · exact .inl rfl
        · exact .inr ⟨_, rfl, rfl⟩

theorem spares_enqueue (proto : Protocol) (req : EnqueueRequest) (id : Uuid)
    (now : Instant) (jobs : List Job) :
    Spares jobs ((enqueue proto req id now jobs).after jobs) := by
  refine ⟨change_enqueue proto req id now jobs, fun i job hi _ => ?_⟩
  rcases enqueue_after proto req id now jobs with heq | ⟨new, -, heq⟩
  · rw [heq, hi]
  · rw [heq, List.getElem?_append_left (List.getElem?_eq_some_iff.mp hi).1,
      hi]

theorem nodup_enqueue (proto : Protocol) (req : EnqueueRequest)
    (now : Instant) {jobs : List Job} (hids : (jobs.map Job.id).Nodup)
    (hfresh : id ∉ jobs.map Job.id) :
    (((enqueue proto req id now jobs).after jobs).map Job.id).Nodup := by
  rcases enqueue_after proto req id now jobs with heq | ⟨new, rfl, heq⟩
  · rw [heq]
    exact hids
  · rw [heq, List.map_append]
    refine List.Nodup.append hids (List.nodup_singleton _) ?_
    intro a ha hb
    rw [List.mem_singleton.mp hb] at ha
    exact hfresh ha

theorem spares_cancel (jobId : String) (now : Instant) (jobs : List Job) :
    Spares jobs ((cancel jobId now jobs).after jobs) := by
  unfold cancel
  split
  · exact spares_refl jobs
  · rename_i i job hloc
    split
    · exact spares_refl jobs
    · rename_i hqueued
      have hq : job.status = .queued := not_not.mp hqueued
      refine spares_moved (getElem?_of_locate hloc)
        ⟨rfl, rfl, rfl, rfl, rfl, rfl, rfl, rfl, ?_⟩ hq
      rw [hq]
      simp [Job.completed, Status.next]

/-- What a claim takes. -/
theorem claimNext_spec {serverId : String} {jobs : List Job} (proto : Protocol)
    (now : Instant) :
    (claimNext proto serverId now jobs = .replied .nothing
        ∧ jobs.find? (Job.claimable serverId) = none)
      ∨ ∃ i job, jobs[i]? = some job ∧ job.serverId = serverId
        ∧ job.status = .queued
        ∧ jobs.find? (Job.claimable serverId) = some job
        ∧ claimNext proto serverId now jobs
          = .written (jobs.set i (job.claimed now))
            (claimResult proto i (job.claimed now)) := by
  have hfind := locate_map_snd (Job.claimable serverId) jobs
  unfold claimNext
  cases hloc : locate (Job.claimable serverId) jobs with
  | none =>
      rw [hloc] at hfind
      exact .inl ⟨rfl, hfind.symm⟩
  | some r =>
      obtain ⟨i, job⟩ := r
      rw [hloc] at hfind
      have hclaim := accepted_of_locate hloc
      simp only [Job.claimable, Bool.and_eq_true, beq_iff_eq] at hclaim
      exact .inr ⟨i, job, getElem?_of_locate hloc, hclaim.1, hclaim.2,
        hfind.symm, rfl⟩

theorem advances_claimed (now : Instant) (h : job.status = .queued) :
    Advances job (job.claimed now) := by
  refine ⟨rfl, rfl, rfl, rfl, rfl, rfl, rfl, rfl, ?_⟩
  rw [h]
  simp [Job.claimed, Status.next]

/-- Moving a job on keeps the ids. -/
theorem map_id_moved {jobs : List Job} (hi : jobs[i]? = some old)
    (hid : new.id = old.id) :
    (jobs.set i new).map Job.id = jobs.map Job.id := by
  rw [List.map_set, set_of_getElem?]
  rw [List.getElem?_map, hi, hid]
  rfl

theorem map_id_cancel (jobId : String) (now : Instant) (jobs : List Job) :
    ((cancel jobId now jobs).after jobs).map Job.id = jobs.map Job.id := by
  unfold cancel
  split
  · rfl
  · rename_i i job hloc
    split
    · rfl
    · exact map_id_moved (getElem?_of_locate hloc) rfl

-- ====== the log

/-- Each thing seen, with all that was seen before it. -/
def Each (P : Note → List Note → Prop) : List Note → Prop
  | [] => True
  | n :: before => P n before ∧ Each P before

theorem Each.at {P : Note → List Note → Prop} {log newer before : List Note}
    (h : Each P log) (hlog : log = newer ++ n :: before) :
    P n before := by
  induction newer generalizing log with
  | nil =>
      subst hlog
      exact h.1
  | cons m newer ih =>
      subst hlog
      exact ih h.2 rfl

/-- Nothing is claimed once the executor has halted, and the host operation
that is started is that of the job just claimed. -/
def InTurn : Note → List Note → Prop
  | .claimed _, before => .halted ∉ before
  | .started id, before => before.head? = some (.claimed id)
  | _, _ => True

/-- What is claimed is what was selected. -/
def AtHead (cfg : Config) : Note → List Note → Prop
  | .claimed id, before => cfg.supportsOperation.isSome = true →
      before.head? = some (.selected (some id))
  | _, _ => True

/-- A job whose host operation ended is running, or recorded so. -/
def Recorded (jobs : List Job) (log : List Note) (note : Uuid → Note)
    (outcome : Status) : Prop :=
  ∀ id, note id ∈ log → ∃ (i : Nat) (job : Job), jobs[i]? = some job
    ∧ job.id = id ∧ (job.status = .running ∨ job.status = outcome)

theorem Recorded.spares {jobs : List Job} {log : List Note}
    (h : Recorded jobs log note outcome) (houtcome : outcome ≠ .queued)
    (hs : Spares jobs jobs') : Recorded jobs' log note outcome := by
  intro id hid
  obtain ⟨i, job, hi, hjob, hstatus⟩ := h id hid
  refine ⟨i, job, hs.busy i job hi ?_, hjob, hstatus⟩
  rcases hstatus with hstatus | hstatus
  · rw [hstatus]
    exact nofun
  · rw [hstatus]
    exact houtcome

/-- The registry and the log, together. -/
structure Sound (store : Store (List Job) Failure Reply) (log : List Note) :
    Prop where
  chronological : store.Chronological Later
  ids : (store.mem.map Job.id).Nodup
  returned : Recorded store.mem log .returned .succeeded
  threw : Recorded store.mem log .threw .failed
  inTurn : Each InTurn log

/-- What a call by others, or a claim, leaves sound. -/
theorem Sound.call {store : Store (List Job) Failure Reply}
    {log : List Note} (h : Sound store log)
    (hs : Spares store.mem ((f store.mem).after store.mem))
    (hids : (((f store.mem).after store.mem).map Job.id).Nodup) :
    Sound (store.call f).1 log := by
  refine ⟨h.chronological.call later_refl (fun h h' => Later.trans h h')
    (Change.later hs.change), ?_, ?_, ?_, h.inTurn⟩
  · rw [Store.call_mem]
    exact hids
  · rw [Store.call_mem]
    exact h.returned.spares nofun hs
  · rw [Store.call_mem]
    exact h.threw.spares nofun hs

theorem Sound.settle {store : Store (List Job) Failure Reply}
    {log : List Note} (h : Sound store log) (ok : Bool) :
    Sound (store.settle .store ok).1 log := by
  refine ⟨h.chronological.settle _ ok, ?_, ?_, ?_, h.inTurn⟩
  · rw [Store.settle_mem]
    exact h.ids
  · rw [Store.settle_mem]
    exact h.returned
  · rw [Store.settle_mem]
    exact h.threw

/-- A job is found by its id alone. -/
theorem eq_of_id {jobs : List Job} (hids : (jobs.map Job.id).Nodup)
    {j : Nat} {a b : Job} (hi : jobs[i]? = some a) (hj : jobs[j]? = some b)
    (hid : a.id = b.id) : a = b := by
  have hfa := find?_key hids (List.mem_of_getElem? hi) hid
  have hfb := find?_key hids (List.mem_of_getElem? hj) rfl
  exact Option.some.inj (hfa.symm.trans hfb)

/-- What has not ended well is not recorded so, in memory or in the
file. -/
theorem Recorded.not_other {store : Store (List Job) Failure Reply}
    {log : List Note} {other : Status}
    (h : Recorded store.mem log note outcome) (hsound : Sound store log)
    (hterminal : other.terminal = true) (hother : other ≠ outcome)
    (hid : note id ∈ log) (hjob : job ∈ store.mem ∨ job ∈ store.file)
    (heq : job.id = id) :
    job.status ≠ other := by
  intro hstatus
  obtain ⟨i, known, hi, hknown, hcase⟩ := h id hid
  have hmem : ∃ (j : Nat) (job' : Job), store.mem[j]? = some job'
      ∧ job'.id = id ∧ job'.status = other := by
    rcases hjob with hjob | hjob
    · obtain ⟨j, hj⟩ := List.getElem?_of_mem hjob
      exact ⟨j, job, hj, heq, hstatus⟩
    · obtain ⟨j, hj⟩ := List.getElem?_of_mem hjob
      have hlater : Later store.file store.mem :=
        (Store.chronological_iff.mp hsound.chronological).2 _
          List.mem_cons_self
      obtain ⟨job', hj', hid', hsame⟩ := hlater j job hj
      exact ⟨j, job', hj', hid'.trans heq,
        (hsame (by rw [hstatus]; exact hterminal)).trans hstatus⟩
  obtain ⟨j, job', hj, hid', hstatus'⟩ := hmem
  obtain rfl := eq_of_id hsound.ids hi hj (hknown.trans hid'.symm)
  rcases hcase with hcase | hcase
  · rw [hcase] at hstatus'
    rw [← hstatus'] at hterminal
    cases hterminal
  · exact hother (hstatus'.symm.trans hcase)

-- ====== the runs

/-- A job a run has claimed, on its way. -/
def Running (cfg : Config) (jobs : List Job) (id : Uuid) : Prop :=
  ∃ (i : Nat) (job : Job), jobs[i]? = some job ∧ job.id = id
    ∧ job.serverId = cfg.serverId ∧ job.status = .running

/-- A run waits for the write of its claim. -/
structure SavingClaim (cfg : Config) (proto : Protocol)
    (store : Store (List Job) Failure Reply) (log : List Note)
    (expected : Option Uuid) (ahead i : Nat) (job : Job) : Prop where
  here : store.mem[i]? = some job
  serverId : job.serverId = cfg.serverId
  running : job.status = .running
  notReturned : .returned job.id ∉ log
  notThrown : .threw job.id ∉ log
  claimed : ∃ before, log = .claimed job.id :: before
    ∧ (cfg.supportsOperation.isSome = true →
      before.head? = some (.selected expected))
  own : ∃ p, store.queue[ahead]? = some p ∧ p.reply = claimResult proto i job
  selectorless : cfg.supportsOperation = none → expected = none
  supported : ∀ supports, cfg.supportsOperation = some supports →
    expected = some job.id → supports job.operation = some true

/-- A run is about to record how the host operation ended. -/
structure Completing (cfg : Config) (jobs : List Job) (log : List Note)
    (done : Completion) (jobId : Uuid) : Prop where
  running : Running cfg jobs jobId
  names : done.jobId = jobId.text
  serverId : done.serverId = cfg.serverId
  outcome : (done.status = "succeeded" ∧ .threw jobId ∉ log)
    ∨ (done.status = "failed" ∧ .returned jobId ∉ log)

/-- A run waits for the write of a result. -/
structure SavingResult (cfg : Config)
    (store : Store (List Job) Failure Reply) (done : Completion)
    (jobId : Uuid) (ahead i : Nat) (job : Job) : Prop where
  here : store.mem[i]? = some job
  id : job.id = jobId
  serverId : job.serverId = cfg.serverId
  status : some job.status = completionStatus? done.status
  own : ∃ p, store.queue[ahead]? = some p ∧ p.reply = jobResult i job

/-- What a run knows while it awaits a call. -/
def WorkOk (cfg : Config) (proto : Protocol)
    (store : Store (List Job) Failure Reply) (log : List Note) :
    Work → Prop
  | .listing => cfg.supportsOperation.isSome = true
  | .claiming expected =>
      (cfg.supportsOperation = none → expected = none)
      ∧ ∀ supports, cfg.supportsOperation = some supports →
        log.head? = some (.selected expected)
        ∧ ∀ id, expected = some id → ∃ (i : Nat) (job : Job),
          store.mem[i]? = some job ∧ job.id = id
            ∧ supports job.operation = some true
  | .savingClaim expected ahead => ∃ i job,
      SavingClaim cfg proto store log expected ahead i job
  | .executing claim => Running cfg store.mem claim.job.id
      ∧ .returned claim.job.id ∉ log ∧ .threw claim.job.id ∉ log
  | .recording claim _ => Running cfg store.mem claim.job.id
      ∧ .threw claim.job.id ∉ log
  | .beginning done jobId => Completing cfg store.mem log done jobId
  | .completing done jobId => Completing cfg store.mem log done jobId
  | .savingResult done jobId ahead => ∃ i job,
      SavingResult cfg store done jobId ahead i job
  | .reconciling _ => True
  | .acknowledging _ => True

theorem Running.spares {cfg : Config} {jobs : List Job}
    (h : Running cfg jobs id) (hs : Spares jobs jobs') :
    Running cfg jobs' id := by
  obtain ⟨i, job, hi, hid, hserver, hstatus⟩ := h
  exact ⟨i, job, hs.busy i job hi (by rw [hstatus]; exact nofun), hid,
    hserver, hstatus⟩

theorem Completing.spares {cfg : Config} {jobs : List Job} {log : List Note}
    (h : Completing cfg jobs log done jobId) (hs : Spares jobs jobs') :
    Completing cfg jobs' log done jobId :=
  ⟨h.running.spares hs, h.names, h.serverId, h.outcome⟩

/-- What a run knows holds whatever others do. -/
theorem WorkOk.frame {cfg : Config} {proto : Protocol}
    {store store' : Store (List Job) Failure Reply} {log : List Note}
    (h : WorkOk cfg proto store log w) (hs : Spares store.mem store'.mem)
    (hqueue : ∀ (n : Nat) p, store.queue[n]? = some p → store'.queue[n]? = some p) :
    WorkOk cfg proto store' log w := by
  cases w with
  | listing => exact h
  | claiming expected =>
      refine ⟨h.1, fun supports hsupports => ?_⟩
      obtain ⟨hhead, hjob⟩ := h.2 supports hsupports
      refine ⟨hhead, fun id hid => ?_⟩
      obtain ⟨i, job, hi, rfl, hop⟩ := hjob id hid
      obtain ⟨job', hi', hcase⟩ := hs.change.entry hi
      refine ⟨i, job', hi', ?_⟩
      rcases hcase with rfl | hadv
      · exact ⟨rfl, hop⟩
      · rw [hadv.operation]
        exact ⟨hadv.id, hop⟩
  | savingClaim expected ahead =>
      obtain ⟨i, job, h⟩ := h
      obtain ⟨p, hp, hreply⟩ := h.own
      exact ⟨i, job, hs.busy i job h.here (by rw [h.running]; exact nofun),
        h.serverId, h.running, h.notReturned, h.notThrown, h.claimed,
        ⟨p, hqueue _ p hp, hreply⟩, h.selectorless, h.supported⟩
  | executing claim => exact ⟨h.1.spares hs, h.2⟩
  | recording claim result => exact ⟨h.1.spares hs, h.2⟩
  | beginning done jobId => exact Completing.spares h hs
  | completing done jobId => exact Completing.spares h hs
  | savingResult done jobId ahead =>
      obtain ⟨i, job, h⟩ := h
      obtain ⟨p, hp, hreply⟩ := h.own
      refine ⟨i, job, hs.busy i job h.here ?_, h.id, h.serverId, h.status,
        p, hqueue _ p hp, hreply⟩
      intro hqueued
      have hstatus := h.status
      rw [hqueued] at hstatus
      rcases completionStatus?_spec hstatus.symm with hcase | hcase <;>
        cases hcase
  | reconciling terminal => trivial
  | acknowledging terminal => trivial

theorem getElem?_queue_call {store : Store (List Job) Failure Reply}
    (f : List Job → JobEffect) (n : Nat) (p : Pending (List Job) Failure Reply)
    (h : store.queue[n]? = some p) : (store.call f).1.queue[n]? = some p := by
  unfold Store.call
  split
  · exact h
  · exact h
  · exact h
  · show (store.queue ++ _)[n]? = _
    rw [List.getElem?_append_left (List.getElem?_eq_some_iff.mp h).1, h]

theorem queue_settle {store : Store (List Job) Failure Reply} (ok : Bool) :
    (store.settle .store ok).1.queue = store.queue.tail := by
  unfold Store.settle
  split
  · rename_i hq
    rw [hq]
    rfl
  · rename_i p ps hq
    rw [hq]
    split <;> rfl

/-- The write at the head of the chain fails, or its caller is answered. -/
theorem answer_settle {store : Store (List Job) Failure Reply} (ok : Bool)
    {p : Pending (List Job) Failure Reply} (hp : store.queue[0]? = some p) :
    (store.settle .store ok).2 = .rejected .store
      ∨ (store.settle .store ok).2 = .ofExcept (p.reply store.mem) := by
  unfold Store.settle
  split
  · rename_i hq
    rw [hq] at hp
    cases hp
  · rename_i p' ps hq
    rw [hq] at hp
    obtain rfl := Option.some.inj hp
    split
    · exact .inl rfl
    · exact .inr rfl

/-- A write before a run's own leaves the run what it knows. -/
theorem WorkOk.nearer {cfg : Config} {proto : Protocol}
    {store : Store (List Job) Failure Reply} {log : List Note}
    (h : WorkOk cfg proto store log w) (ok : Bool)
    (hother : ∀ outcome, settled cfg outcome w = none) :
    WorkOk cfg proto (store.settle .store ok).1 log w.nearer := by
  have htail {n : Nat} {p : Pending (List Job) Failure Reply}
      (hn : n ≠ 0) (hp : store.queue[n]? = some p) :
      (store.settle .store ok).1.queue[n - 1]? = some p := by
    rw [queue_settle, List.getElem?_tail, Nat.sub_add_cancel (by omega), hp]
  cases w with
  | savingClaim expected ahead =>
      obtain ⟨i, job, h⟩ := h
      obtain ⟨p, hp, hreply⟩ := h.own
      have hn : ahead ≠ 0 := by
        rintro rfl
        exact nomatch hother .waiting
      refine ⟨i, job, ?_, h.serverId, h.running, h.notReturned, h.notThrown,
        h.claimed, ⟨p, htail hn hp, hreply⟩, h.selectorless, h.supported⟩
      rw [Store.settle_mem]
      exact h.here
  | savingResult done jobId ahead =>
      obtain ⟨i, job, h⟩ := h
      obtain ⟨p, hp, hreply⟩ := h.own
      have hn : ahead ≠ 0 := by
        rintro rfl
        exact nomatch hother .waiting
      refine ⟨i, job, ?_, h.id, h.serverId, h.status, p, htail hn hp, hreply⟩
      rw [Store.settle_mem]
      exact h.here
  | listing => exact h
  | reconciling terminal => trivial
  | acknowledging terminal => trivial
  | claiming expected =>
      show WorkOk cfg proto _ log (.claiming expected)
      simp only [WorkOk, Store.settle_mem]
      exact h
  | executing claim =>
      show WorkOk cfg proto _ log (.executing claim)
      simp only [WorkOk, Store.settle_mem]
      exact h
  | recording claim result =>
      show WorkOk cfg proto _ log (.recording claim result)
      simp only [WorkOk, Store.settle_mem]
      exact h
  | beginning done jobId =>
      show WorkOk cfg proto _ log (.beginning done jobId)
      simp only [WorkOk, Store.settle_mem]
      exact h
  | completing done jobId =>
      show WorkOk cfg proto _ log (.completing done jobId)
      simp only [WorkOk, Store.settle_mem]
      exact h

-- ====== the turns

/-- What a turn leaves, with what was seen of it. -/
structure TurnOk (cfg : Config) (proto : Protocol)
    (store : Store (List Job) Failure Reply) (before seen : List Note)
    (turn : Turn) : Prop where
  sound : Sound store (seen ++ before)
  awaits : ∀ w, turn = .awaits w → WorkOk cfg proto store (seen ++ before) w
  healthy : (∀ fault, turn ≠ .halts fault) → .halted ∉ seen

section turns

variable {cfg : Config} {proto : Protocol}
  {store : Store (List Job) Failure Reply} {log : List Note}

/-- What is seen of a call that is neither a claim nor an ending. -/
theorem Sound.saw (h : Sound store log) (hn : InTurn n log)
    (hreturned : ∀ id, n ≠ .returned id) (hthrew : ∀ id, n ≠ .threw id) :
    Sound store (n :: log) := by
  refine ⟨h.chronological, h.ids, fun id hid => ?_, fun id hid => ?_,
    hn, h.inTurn⟩
  · rcases List.mem_cons.mp hid with rfl | hid
    · exact absurd rfl (hreturned id)
    · exact h.returned id hid
  · rcases List.mem_cons.mp hid with rfl | hid
    · exact absurd rfl (hthrew id)
    · exact h.threw id hid

theorem Sound.halted (h : Sound store log) : Sound store (.halted :: log) :=
  h.saw trivial nofun nofun

/-- A run that halts leaves everything sound. -/
theorem turnOk_halts (h : Sound store log) (fault : Fault) :
    TurnOk cfg proto store log [.halted] (.halts fault) where
  sound := h.halted
  awaits w heq := by cases heq
  healthy hno := absurd rfl (hno fault)

/-- A run that ends leaves everything sound. -/
theorem turnOk_over (h : Sound store log) {turn : Turn}
    (hturn : ∀ w, turn ≠ .awaits w) :
    TurnOk cfg proto store log [] turn where
  sound := h
  awaits w heq := absurd heq (hturn w)
  healthy _ hin := by cases hin

/-- A run that goes on unseen. -/
theorem turnOk_awaits (h : Sound store log)
    (hw : WorkOk cfg proto store log w) :
    TurnOk cfg proto store log [] (.awaits w) where
  sound := h
  awaits w' heq := by
    cases heq
    exact hw
  healthy _ hin := by cases hin

/-- What was seen before a turn counts as seen of it. -/
theorem TurnOk.after {seen : List Note} {turn : Turn}
    (h : TurnOk cfg proto store (n :: log) seen turn) (hn : n ≠ .halted) :
    TurnOk cfg proto store log (seen ++ [n]) turn := by
  have happend : seen ++ [n] ++ log = seen ++ n :: log := by
    rw [List.append_assoc, List.singleton_append]
  refine ⟨?_, fun w hw => ?_, fun hno hin => ?_⟩
  · rw [happend]
    exact h.sound
  · rw [happend]
    exact h.awaits w hw
  · rcases List.mem_append.mp hin with hin | hin
    · exact h.healthy hno hin
    · exact hn (List.mem_singleton.mp hin).symm

/-- The head of the queue is listed. -/
theorem turnOk_select (h : Sound store log)
    (hselector : cfg.supportsOperation.isSome = true) :
    TurnOk cfg proto store
      (.selected ((listQueued cfg store.mem).head?.map PublicJob.id) :: log)
      (select cfg (listQueued cfg store.mem)).seen
      (select cfg (listQueued cfg store.mem)) := by
  have hsound := h.saw
    (n := .selected ((listQueued cfg store.mem).head?.map PublicJob.id))
    trivial nofun nofun
  obtain ⟨supports, hsupports⟩ := Option.isSome_iff_exists.mp hselector
  unfold select
  cases hnext : (listQueued cfg store.mem).head? with
  | none =>
      rw [hnext] at hsound
      refine turnOk_awaits hsound ⟨fun _ => rfl, fun _ _ => ⟨rfl, ?_⟩⟩
      exact fun id hid => by cases hid
  | some next =>
      rw [hnext] at hsound
      dsimp only
      split
      · exact turnOk_halts hsound _
      · rw [hsupports]
        dsimp only
        cases hop : supports next.operation with
        | none => exact turnOk_halts hsound _
        | some supported =>
            cases supported with
            | false => exact turnOk_over hsound fun _ heq => by cases heq
            | true =>
                refine turnOk_awaits hsound ⟨fun hnone => ?_, ?_⟩
                · rw [hsupports] at hnone
                  cases hnone
                · intro supports' hsupports'
                  rw [hsupports] at hsupports'
                  obtain rfl := Option.some.inj hsupports'
                  refine ⟨rfl, fun id hid => ?_⟩
                  obtain rfl := Option.some.inj hid
                  have hmem := List.mem_of_mem_head? hnext
                  obtain ⟨job, hjob, hpublic⟩ := List.mem_map.mp hmem
                  obtain ⟨i, hi⟩ :=
                    List.getElem?_of_mem (List.mem_of_mem_filter hjob)
                  rw [← hpublic] at hop ⊢
                  exact ⟨i, job, hi, rfl, hop⟩

/-- A job that is queued has no ended host operation behind it. -/
theorem Recorded.not_queued {jobs : List Job}
    (h : Recorded jobs log note outcome) (houtcome : outcome ≠ .queued)
    (hids : (jobs.map Job.id).Nodup) (hi : jobs[i]? = some job)
    (hqueued : job.status = .queued) :
    note job.id ∉ log := by
  intro hin
  obtain ⟨j, known, hj, hid, hcase⟩ := h job.id hin
  obtain rfl := eq_of_id hids hj hi hid
  rw [hqueued] at hcase
  rcases hcase with hcase | hcase
  · cases hcase
  · exact houtcome hcase.symm

/-- The synchronous part of a claim. -/
theorem turnOk_claimNow (h : Sound store log) (hhealthy : .halted ∉ log)
    {expected : Option Uuid}
    (hw : WorkOk cfg proto store log (.claiming expected)) (now : Instant) :
    TurnOk cfg proto (claimNow cfg proto expected now store).store log
      (claimNow cfg proto expected now store).seen
      (claimNow cfg proto expected now store).turn := by
  unfold claimNow
  rcases claimNext_spec proto now with
    ⟨hclaim, -⟩ | ⟨i, job, hi, hserver, hqueued, hfind, hclaim⟩
  · have hcall : store.call (claimNext proto cfg.serverId now)
        = (store, .resolved .nothing) := by
      unfold Store.call
      rw [hclaim]
    rw [hcall]
    show TurnOk cfg proto store log
      (if expected.isSome then haltsIn .claim expected else .done false).seen
      (if expected.isSome then haltsIn .claim expected else .done false)
    split
    · exact turnOk_halts h _
    · exact turnOk_over h fun _ heq => by cases heq
  · have hcall : (store.call (claimNext proto cfg.serverId now)).2
        = .waiting := by
      unfold Store.call
      rw [hclaim]
    have hmem : (claimNext proto cfg.serverId now store.mem).after store.mem
        = store.mem.set i (job.claimed now) := by
      rw [hclaim]
      rfl
    have hadv := advances_claimed now hqueued
    have hsound : Sound (store.call (claimNext proto cfg.serverId now)).1
        log := by
      refine h.call ?_ ?_
      · rw [hmem]
        exact spares_moved hi hadv hqueued
      · rw [hmem, map_id_moved hi hadv.id]
        exact h.ids
    dsimp only
    rw [hcall, hfind]
    show TurnOk cfg proto _ log [.claimed job.id] _
    refine ⟨hsound.saw hhealthy nofun nofun, fun w heq => ?_,
      fun _ hin => by cases List.mem_singleton.mp hin⟩
    cases heq
    refine ⟨i, job.claimed now, ?_, hserver, rfl, fun hin => ?_,
      fun hin => ?_, ⟨log, rfl, fun hselector => ?_⟩, ?_, hw.1, ?_⟩
    · rw [Store.call_mem, hmem]
      exact List.getElem?_set_self (List.getElem?_eq_some_iff.mp hi).1
    · rcases List.mem_cons.mp hin with heq | hin
      · cases heq
      · exact h.returned.not_queued nofun h.ids hi hqueued hin
    · rcases List.mem_cons.mp hin with heq | hin
      · cases heq
      · exact h.threw.not_queued nofun h.ids hi hqueued hin
    · obtain ⟨supports, hsupports⟩ := Option.isSome_iff_exists.mp hselector
      exact (hw.2 supports hsupports).1
    · refine ⟨⟨store.mem.set i (job.claimed now),
        claimResult proto i (job.claimed now)⟩, ?_, rfl⟩
      unfold Store.call
      rw [hclaim]
      exact List.getElem?_concat_length
    · intro supports hsupports hexpected
      obtain ⟨j, known, hj, hid, hop⟩ :=
        (hw.2 supports hsupports).2 _ hexpected
      obtain rfl := eq_of_id h.ids hj hi hid
      exact hop

/-- A claim once its write has settled: the host operation of the job just
claimed is started, or the executor halts. -/
theorem turnOk_claimSettled (h : Sound store log) {expected : Option Uuid}
    (hw : WorkOk cfg proto store log (.savingClaim expected 0)) (ok : Bool) :
    TurnOk cfg proto (store.settle .store ok).1 log
      (claimSettled cfg expected (store.settle .store ok).2).seen
      (claimSettled cfg expected (store.settle .store ok).2) := by
  have hsound := h.settle ok
  obtain ⟨i, job, hw⟩ := hw
  obtain ⟨p, hp, hreply⟩ := hw.own
  obtain ⟨before, hlog, -⟩ := hw.claimed
  cases hout : (store.settle .store ok).2 with
  | rejected e => exact turnOk_halts hsound _
  | waiting => exact turnOk_halts hsound _
  | idle => exact turnOk_halts hsound _
  | resolved reply =>
      have hanswer : claimResult proto i job store.mem = .ok reply := by
        rcases answer_settle ok hp with hrejected | hanswer
        · rw [hrejected] at hout
          cases hout
        · rw [hanswer, hreply] at hout
          cases hres : claimResult proto i job store.mem with
          | error e =>
              rw [hres] at hout
              cases hout
          | ok a =>
              rw [hres] at hout
              cases hout
              rfl
      unfold claimResult at hanswer
      rw [hw.here] at hanswer
      dsimp only [Option.getD_some] at hanswer
      split at hanswer
      · cases hanswer
      · rename_i envelope henvelope
        obtain rfl := Except.ok.inj hanswer
        show TurnOk cfg proto _ log
          (receive cfg expected ⟨publicJob job, envelope⟩).seen
          (receive cfg expected ⟨publicJob job, envelope⟩)
        have hstarted : TurnOk cfg proto (store.settle .store ok).1 log
            [.started job.id] (.awaits (.executing ⟨publicJob job,
              envelope⟩)) := by
          refine ⟨hsound.saw ?_ nofun nofun, fun w heq => ?_,
            fun _ hin => by cases List.mem_singleton.mp hin⟩
          · rw [hlog]
            rfl
          · cases heq
            refine ⟨⟨i, job, ?_, rfl, hw.serverId, hw.running⟩,
              fun hin => ?_, fun hin => ?_⟩
            · rw [Store.settle_mem]
              exact hw.here
            · rcases List.mem_cons.mp hin with heq | hin
              · cases heq
              · exact hw.notReturned hin
            · rcases List.mem_cons.mp hin with heq | hin
              · cases heq
              · exact hw.notThrown hin
        unfold receive
        split
        · exact turnOk_halts hsound _
        · split
          · exact turnOk_halts hsound _
          · split
            · exact hstarted
            · split
              · exact hstarted
              · exact turnOk_halts hsound _

/-- The host operation of a running job ended. -/
theorem Sound.ended (h : Sound store log)
    (hrunning : Running cfg store.mem id)
    (hn : n = .returned id ∨ n = .threw id) : Sound store (n :: log) := by
  obtain ⟨i, job, hi, hid, -, hstatus⟩ := hrunning
  have hrecorded {note : Uuid → Note} {outcome : Status}
      (hold : Recorded store.mem log note outcome)
      (hinj : ∀ id', note id' = n → id' = id) :
      Recorded store.mem (n :: log) note outcome := by
    intro id' hin
    rcases List.mem_cons.mp hin with heq | hin
    · rw [hinj id' heq]
      exact ⟨i, job, hi, hid, .inl hstatus⟩
    · exact hold id' hin
  refine ⟨h.chronological, h.ids, hrecorded h.returned ?_,
    hrecorded h.threw ?_, ?_, h.inTurn⟩
  · intro id' heq
    rcases hn with rfl | rfl
    · exact Note.returned.inj heq
    · cases heq
  · intro id' heq
    rcases hn with rfl | rfl
    · cases heq
    · exact Note.threw.inj heq
  · rcases hn with rfl | rfl <;> trivial

theorem turnOk_finishing (h : Sound store log)
    (hw : Completing cfg store.mem log done jobId) :
    TurnOk cfg proto store log [] (finishing cfg jobId done) := by
  unfold finishing
  split
  · exact turnOk_awaits h hw
  · exact turnOk_awaits h hw

theorem seen_finishing (jobId : Uuid) (done : Completion) :
    (finishing cfg jobId done).seen = [] := by
  unfold finishing
  split <;> rfl

/-- A completion finds the job of its run. -/
theorem complete_spec (proto : Protocol) {jobs : List Job}
    (hw : Completing cfg jobs log done jobId)
    (hids : (jobs.map Job.id).Nodup) (now : Instant) :
    (∃ e, complete proto done now jobs = .refused e)
      ∨ ∃ (i : Nat) (job new : Job) (status : Status),
        jobs[i]? = some job ∧ Advances job new ∧ job.id = jobId
        ∧ job.serverId = cfg.serverId ∧ new.status = status
        ∧ completionStatus? done.status = some status
        ∧ complete proto done now jobs
          = .written (jobs.set i new) (jobResult i new) := by
  obtain ⟨k, known, hk, hknown, hserver, hrunning⟩ := hw.running
  unfold complete
  cases hstatus : completionStatus? done.status with
  | none => exact .inl ⟨_, rfl⟩
  | some status =>
      dsimp only
      cases hloc : locate (fun job : Job => job.id.text == done.jobId
          && job.serverId == done.serverId) jobs with
      | none => exact .inl ⟨_, rfl⟩
      | some r =>
          obtain ⟨i, job⟩ := r
          have hi := getElem?_of_locate hloc
          have haccepted := accepted_of_locate hloc
          simp only [Bool.and_eq_true, beq_iff_eq] at haccepted
          have hid : job.id = jobId :=
            Uuid.ext_text (haccepted.1.trans hw.names)
          obtain rfl := eq_of_id hids hk hi (hknown.trans hid.symm)
          dsimp only
          rw [if_neg (by rw [hrunning]; exact Bool.false_ne_true),
            if_neg (not_not.mpr hrunning)]
          cases hdone : known.withOutcome proto status done with
          | error e => exact .inl ⟨_, rfl⟩
          | ok new =>
              have hspec := withOutcome_spec hdone
              refine .inr ⟨i, known, new.completed status now, status, hi, ?_,
                hid, hserver, rfl, rfl, rfl⟩
              rw [hspec]
              refine ⟨rfl, rfl, rfl, rfl, rfl, rfl, rfl, rfl, ?_⟩
              rw [hrunning]
              rcases completionStatus?_spec hstatus with rfl | rfl <;>
                simp [Job.completed, Status.next]

/-- A job that ends leaves the others as they were recorded. -/
theorem Recorded.moved {jobs : List Job}
    (h : Recorded jobs log note outcome) (hids : (jobs.map Job.id).Nodup)
    (hi : jobs[i]? = some old) (hid : new.id = old.id)
    (hnew : note old.id ∈ log → new.status = outcome) :
    Recorded (jobs.set i new) log note outcome := by
  intro id hin
  obtain ⟨j, known, hj, rfl, hcase⟩ := h id hin
  by_cases hij : i = j
  · subst hij
    rw [hi] at hj
    obtain rfl := Option.some.inj hj
    exact ⟨i, new, List.getElem?_set_self (List.getElem?_eq_some_iff.mp hi).1,
      hid, .inr (hnew hin)⟩
  · exact ⟨j, known, by rw [List.getElem?_set_ne hij, hj], rfl, hcase⟩

/-- The synchronous part of a completion. -/
theorem turnOk_completeNow (h : Sound store log)
    (hw : Completing cfg store.mem log done jobId) (now : Instant) :
    TurnOk cfg proto (completeNow cfg proto done jobId now store).store log
      (completeNow cfg proto done jobId now store).seen
      (completeNow cfg proto done jobId now store).turn := by
  unfold completeNow
  rcases complete_spec proto hw h.ids now with
    ⟨e, hcomplete⟩ |
      ⟨i, job, new, status, hi, hadv, hid, hserver, hnew, hstatus, hcomplete⟩
  · have hcall : store.call (complete proto done now)
        = (store, .rejected e) := by
      unfold Store.call
      rw [hcomplete]
    rw [hcall]
    exact turnOk_halts h _
  · have hcall : (store.call (complete proto done now)).2 = .waiting := by
      unfold Store.call
      rw [hcomplete]
    have hmem : (complete proto done now store.mem).after store.mem
        = store.mem.set i new := by
      rw [hcomplete]
      rfl
    have hchange := change_complete proto done now store.mem
    have hsound : Sound (store.call (complete proto done now)).1 log := by
      refine ⟨h.chronological.call later_refl
        (fun h h' => Later.trans h h') (Change.later hchange),
        ?_, ?_, ?_, h.inTurn⟩
      · rw [Store.call_mem, hmem, map_id_moved hi hadv.id]
        exact h.ids
      · rw [Store.call_mem, hmem]
        refine h.returned.moved h.ids hi hadv.id fun hin => ?_
        rw [hid] at hin
        rcases hw.outcome with ⟨hdone, -⟩ | ⟨-, hnot⟩
        · rw [hdone] at hstatus
          exact hnew.trans (Option.some.inj hstatus).symm
        · exact absurd hin hnot
      · rw [Store.call_mem, hmem]
        refine h.threw.moved h.ids hi hadv.id fun hin => ?_
        rw [hid] at hin
        rcases hw.outcome with ⟨-, hnot⟩ | ⟨hdone, -⟩
        · exact absurd hin hnot
        · rw [hdone] at hstatus
          exact hnew.trans (Option.some.inj hstatus).symm
    dsimp only
    rw [hcall]
    show TurnOk cfg proto _ log [] _
    refine turnOk_awaits hsound ⟨i, new, ?_, hadv.id.trans hid,
      hadv.serverId.trans hserver, ?_, ?_⟩
    · rw [Store.call_mem, hmem]
      exact List.getElem?_set_self (List.getElem?_eq_some_iff.mp hi).1
    · rw [hnew, hstatus]
    · refine ⟨⟨store.mem.set i new, jobResult i new⟩, ?_, rfl⟩
      unfold Store.call
      rw [hcomplete]
      exact List.getElem?_concat_length

/-- What a run makes of a settled completion, it makes unseen or halting. -/
theorem turnOk_completionSettled (h : Sound store log) (done : Completion)
    (jobId : Uuid) (outcome : Outcome Failure Reply) :
    TurnOk cfg proto store log (completionSettled cfg done jobId outcome).seen
      (completionSettled cfg done jobId outcome) := by
  unfold completionSettled
  split
  · split
    · exact turnOk_awaits h trivial
    · exact turnOk_halts h _
  · exact turnOk_halts h _

/-- A run goes on once its own write has settled. -/
theorem turnOk_settled (h : Sound store log)
    (hw : WorkOk cfg proto store log w) (ok : Bool) {turn : Turn}
    (hturn : settled cfg (store.settle .store ok).2 w = some turn) :
    TurnOk cfg proto (store.settle .store ok).1 log turn.seen turn := by
  unfold settled at hturn
  split at hturn
  · obtain rfl := Option.some.inj hturn
    exact turnOk_claimSettled h hw ok
  · obtain rfl := Option.some.inj hturn
    exact turnOk_completionSettled (h.settle ok) _ _ _
  · cases hturn

/-- A run takes its next turn. -/
theorem turnOk_advance (h : Sound store log) (hhealthy : .halted ∉ log)
    (hw : WorkOk cfg proto store log w) {a : Answer} {move : Move}
    (hmove : advance cfg proto a store w = some move) :
    TurnOk cfg proto move.store log move.seen move.turn := by
  unfold advance at hmove
  split at hmove
  · -- the queue's head is listed
    split at hmove
    · obtain rfl := Option.some.inj hmove
      exact (turnOk_select h hw).after nofun
    · obtain rfl := Option.some.inj hmove
      exact turnOk_halts h _
  · -- the claim
    split at hmove
    · obtain rfl := Option.some.inj hmove
      exact turnOk_claimNow h hhealthy hw _
    · obtain rfl := Option.some.inj hmove
      exact turnOk_halts h _
  · -- the host operation
    rename_i claim
    obtain ⟨hrunning, hreturned, hthrew⟩ := hw
    split at hmove
    · obtain rfl := Option.some.inj hmove
      have hsound := h.ended hrunning (.inl rfl)
      have hstill : .threw claim.job.id ∉ .returned claim.job.id :: log := by
        intro hin
        rcases List.mem_cons.mp hin with heq | hin
        · cases heq
        · exact hthrew hin
      have hturn (turn : Turn) (heq : turn
          = if cfg.recordsEvidence then .awaits (.recording claim a.value)
            else finishing cfg claim.job.id
              (succeededWith cfg claim.job.id a.value)) :
          TurnOk cfg proto store (.returned claim.job.id :: log) turn.seen
            turn := by
        rw [heq]
        split
        · exact turnOk_awaits hsound ⟨hrunning, hstill⟩
        · rw [seen_finishing]
          exact turnOk_finishing hsound
            ⟨hrunning, rfl, rfl, .inl ⟨rfl, hstill⟩⟩
      exact (hturn _ rfl).after nofun
    · obtain rfl := Option.some.inj hmove
      have hsound := h.ended hrunning (.inr rfl)
      have hstill : .returned claim.job.id ∉ .threw claim.job.id :: log := by
        intro hin
        rcases List.mem_cons.mp hin with heq | hin
        · cases heq
        · exact hreturned hin
      have hturn (turn : Turn) (heq : turn = finishing cfg claim.job.id
          (failedWith cfg proto claim.job.id a.value)) :
          TurnOk cfg proto store (.threw claim.job.id :: log) turn.seen
            turn := by
        rw [heq, seen_finishing]
        exact turnOk_finishing hsound
          ⟨hrunning, rfl, rfl, .inr ⟨rfl, hstill⟩⟩
      exact (hturn _ rfl).after nofun
  · -- the evidence
    obtain rfl := Option.some.inj hmove
    show TurnOk cfg proto store log ((finishing cfg _ _).seen ++ []) _
    rw [seen_finishing]
    exact turnOk_finishing h ⟨hw.1, rfl, rfl, .inl ⟨rfl, hw.2⟩⟩
  · -- the journal's entry
    obtain rfl := Option.some.inj hmove
    show TurnOk cfg proto store log (Turn.seen (if _ then _ else _) ++ [])
      (if _ then _ else _)
    rw [List.append_nil]
    split
    · exact turnOk_awaits h hw
    · exact turnOk_halts h _
  · -- the completion
    split at hmove
    · obtain rfl := Option.some.inj hmove
      exact turnOk_completeNow h hw _
    · obtain rfl := Option.some.inj hmove
      exact turnOk_halts h _
  · -- the reconciliation
    obtain rfl := Option.some.inj hmove
    show TurnOk cfg proto store log (Turn.seen (if _ then _ else _) ++ [])
      (if _ then _ else _)
    rw [List.append_nil]
    split
    · exact turnOk_halts h _
    · split
      · exact turnOk_awaits h trivial
      · exact turnOk_over h fun _ heq => by cases heq
  · -- its acknowledgement
    obtain rfl := Option.some.inj hmove
    show TurnOk cfg proto store log (Turn.seen (if _ then _ else _) ++ [])
      (if _ then _ else _)
    rw [List.append_nil]
    split
    · exact turnOk_over h fun _ heq => by cases heq
    · exact turnOk_halts h _
  · cases hmove
  · cases hmove

end turns

-- ====== the invariant

/-- The executor and its registry: at most one run is on its way, it knows
what it should, and none is once the executor has halted. -/
structure Inv (cfg : Config) (proto : Protocol) (s : State) : Prop where
  sound : Sound s.store s.log
  works : (s.active = false ∧ s.works = [])
    ∨ (s.active = true ∧ s.fault = none ∧ ∃ w, s.works = [w]
      ∧ WorkOk cfg proto s.store s.log w)
  healthy : s.fault = none → .halted ∉ s.log

section invariant

variable {cfg : Config} {proto : Protocol} {s : State}

theorem inv_opened {jobs : List Job} (hids : (jobs.map Job.id).Nodup) :
    Inv cfg proto (.opened jobs) where
  sound :=
    { chronological := Store.chronological_opened later_refl jobs
      ids := hids
      returned := fun _ hin => nomatch hin
      threw := fun _ hin => nomatch hin
      inTurn := trivial }
  works := .inl ⟨rfl, rfl⟩
  healthy _ := nofun

/-- The variables a turn does not look at. -/
theorem Inv.congr {s' : State} (h : Inv cfg proto s)
    (hstore : s'.store = s.store) (hworks : s'.works = s.works)
    (hactive : s'.active = s.active) (hfault : s'.fault = s.fault)
    (hlog : s'.log = s.log) : Inv cfg proto s' := by
  refine ⟨?_, ?_, ?_⟩
  · rw [hstore, hlog]
    exact h.sound
  · rw [hstore, hworks, hactive, hfault, hlog]
    exact h.works
  · rw [hfault, hlog]
    exact h.healthy

/-- Where a turn of the only run leaves the executor. -/
theorem inv_follow {seen : List Note} {turn : Turn} (hworks : s.works = [w])
    (hactive : s.active = true) (hfault : s.fault = none)
    (hhealthy : .halted ∉ s.log)
    (hturn : TurnOk cfg proto s.store s.log seen turn) :
    Inv cfg proto ((s.follow 0 turn).note seen) := by
  have hstill (hno : ∀ fault, turn ≠ .halts fault) :
      .halted ∉ seen ++ s.log := by
    intro hin
    rcases List.mem_append.mp hin with hin | hin
    · exact hturn.healthy hno hin
    · exact hhealthy hin
  cases turn with
  | awaits w' =>
      refine ⟨hturn.sound, .inr ⟨hactive, hfault, w', ?_, hturn.awaits w' rfl⟩,
        fun _ => hstill nofun⟩
      show s.works.set 0 w' = [w']
      rw [hworks]
      rfl
  | done claimed =>
      refine ⟨hturn.sound, .inl ⟨rfl, ?_⟩, fun _ => hstill nofun⟩
      show s.works.eraseIdx 0 = []
      rw [hworks]
      rfl
  | unsupported jobId =>
      refine ⟨hturn.sound, .inl ⟨rfl, ?_⟩, fun _ => hstill nofun⟩
      show s.works.eraseIdx 0 = []
      rw [hworks]
      rfl
  | halts fault =>
      refine ⟨hturn.sound, .inl ⟨rfl, ?_⟩, nofun⟩
      show s.works.eraseIdx 0 = []
      rw [hworks]
      rfl

/-- A call by others. -/
theorem Inv.call (h : Inv cfg proto s)
    (hs : Spares s.store.mem ((f s.store.mem).after s.store.mem))
    (hids : (((f s.store.mem).after s.store.mem).map Job.id).Nodup) :
    Inv cfg proto { s with store := (s.store.call f).1 } := by
  refine ⟨h.sound.call hs hids, ?_, h.healthy⟩
  rcases h.works with hidle | ⟨hactive, hfault, w, hworks, hw⟩
  · exact .inl hidle
  · refine .inr ⟨hactive, hfault, w, hworks, hw.frame ?_
      (getElem?_queue_call f)⟩
    rw [Store.call_mem]
    exact hs

theorem Inv.settle (h : Inv cfg proto s) (ok : Bool) :
    Inv cfg proto (s.settle cfg ok) := by
  unfold State.settle
  split
  · exact h
  · rcases h.works with ⟨hactive, hworks⟩ | ⟨hactive, hfault, w, hworks, hw⟩
    · rw [hworks]
      exact ⟨h.sound.settle ok, .inl ⟨hactive, rfl⟩, h.healthy⟩
    · rw [hworks]
      dsimp only
      cases hown : settled cfg (s.store.settle .store ok).2 w with
      | none =>
          have hother (outcome : Outcome Failure Reply) :
              settled cfg outcome w = none := by
            unfold settled at hown ⊢
            split at hown <;> simp_all
          have hloc : locate (fun w => (settled cfg
              (s.store.settle .store ok).2 w).isSome) [w] = none := by
            rw [locate_eq_none]
            intro w' hw'
            rw [List.mem_singleton.mp hw', hown]
            rfl
          rw [hloc]
          exact ⟨h.sound.settle ok, .inr ⟨hactive, hfault, w.nearer, rfl,
            hw.nearer ok hother⟩, h.healthy⟩
      | some turn =>
          have hloc : locate (fun w => (settled cfg
              (s.store.settle .store ok).2 w).isSome) [w] = some (0, w) := by
            unfold locate
            rw [if_pos (by rw [hown]; rfl)]
          rw [hloc]
          dsimp only
          rw [hown]
          exact inv_follow (w := w.nearer) rfl hactive hfault
            (h.healthy hfault) (turnOk_settled h.sound hw ok hown)

theorem Inv.advance (h : Inv cfg proto s) (i : Nat) (a : Answer) :
    Inv cfg proto (s.advance cfg proto i a) := by
  unfold State.advance
  cases hmove : s.works[i]?.bind (Executor.advance cfg proto a s.store) with
  | none => exact h
  | some move =>
      obtain ⟨w, hi, hmove⟩ := Option.bind_eq_some_iff.mp hmove
      rcases h.works with ⟨-, hworks⟩ | ⟨hactive, hfault, w', hworks, hw⟩
      · rw [hworks] at hi
        cases hi
      · rw [hworks] at hi
        obtain ⟨hlt, hget⟩ := List.getElem?_eq_some_iff.mp hi
        obtain rfl : i = 0 := by
          rw [List.length_singleton] at hlt
          omega
        obtain rfl : w' = w := hget
        exact inv_follow hworks hactive hfault (h.healthy hfault)
          (turnOk_advance h.sound (h.healthy hfault) hw hmove)

theorem Inv.runOnce (h : Inv cfg proto s) :
    Inv cfg proto (s.runOnce cfg).1 := by
  unfold State.runOnce
  split
  · exact h
  · rename_i hfault
    split
    · exact h
    · split
      · exact h
      · rename_i hactive
        rcases h.works with ⟨-, hworks⟩ | ⟨hactive', -⟩
        · refine ⟨h.sound, .inr ⟨rfl, hfault, cfg.begin, ?_, ?_⟩, h.healthy⟩
          · show s.works ++ [cfg.begin] = _
            rw [hworks]
            rfl
          · unfold Config.begin
            split
            · rename_i hselector
              exact hselector
            · rename_i hselector
              refine ⟨fun _ => rfl, fun supports hsupports => ?_⟩
              rw [hsupports] at hselector
              exact absurd rfl hselector
        · exact absurd hactive' hactive

theorem Inv.schedule (h : Inv cfg proto s) (generation : Nat) :
    Inv cfg proto (s.schedule generation) := by
  unfold State.schedule
  split
  · exact h
  · exact h.congr rfl rfl rfl rfl rfl

theorem Inv.tick (h : Inv cfg proto s) : Inv cfg proto (s.tick cfg) := by
  unfold State.tick
  split
  · exact h
  · have hcleared : Inv cfg proto { s with timer := none } :=
      h.congr rfl rfl rfl rfl rfl
    dsimp only
    split
    · exact hcleared
    · have hrun := hcleared.runOnce
      split
      · rename_i heq
        rw [heq] at hrun
        exact hrun.congr rfl rfl rfl rfl rfl
      · rename_i heq
        rw [heq] at hrun
        exact hrun.congr rfl rfl rfl rfl rfl

theorem Inv.start (h : Inv cfg proto s) : Inv cfg proto s.start.1 := by
  unfold State.start
  split
  · exact h
  · split
    · exact h
    · split
      · exact h
      · refine Inv.schedule ?_ _
        exact h.congr rfl rfl rfl rfl rfl

end invariant

-- ====== no halts

/-- `randomUUID` does not repeat itself. -/
def Fresh (s : State) : Event → Prop
  | .enqueue _ id _ => id ∉ s.store.mem.map Job.id
  | _ => True

/-- Every step keeps the invariant. -/
theorem inv_step {cfg : Config} {proto : Protocol} (s : State) (e : Event)
    (hfresh : Fresh s e) (h : Inv cfg proto s) :
    Inv cfg proto ((machine cfg proto).next s e) := by
  cases e with
  | enqueue req id now =>
      exact h.call (spares_enqueue proto req id now s.store.mem)
        (nodup_enqueue proto req now h.sound.ids hfresh)
  | cancel jobId now =>
      refine h.call (spares_cancel jobId now s.store.mem) ?_
      rw [map_id_cancel]
      exact h.sound.ids
  | settle ok => exact h.settle ok
  | runOnce => exact h.runOnce
  | start => exact h.start
  | stop => exact h.congr rfl rfl rfl rfl rfl
  | tick => exact h.tick
  | resume i =>
      show Inv cfg proto (State.step cfg proto s (.resume i)).1
      unfold State.step
      dsimp only
      split
      · exact h
      · refine Inv.schedule ?_ _
        exact h.congr rfl rfl rfl rfl rfl
  | drained =>
      show Inv cfg proto (if s.active then s else { s with stopping := false })
      split
      · exact h
      · exact h.congr rfl rfl rfl rfl rfl
  | advance i a => exact h.advance i a

-- ====== no halts

def isRejected : Outcome Failure Reply → Bool
  | .rejected _ => true
  | _ => false

/-- The head of the queue is at a claim what it was when it was listed. -/
def headKept (cfg : Config) (s : State) : Event → Bool
  | .advance i _ =>
      match s.works[i]? with
      | some (.claiming expected) => !cfg.supportsOperation.isSome
          || (s.store.mem.find? (Job.claimable cfg.serverId)).map Job.id
            == expected
      | _ => true
  | _ => true

abbrev HeadKept (cfg : Config) (s : State) (e : Event) : Prop :=
  headKept cfg s e = true

/-- The calls that may throw without a fault. -/
def Work.hosts : Work → Bool
  | executing _ => true
  | recording _ _ => true
  | _ => false

/-- The call a run awaits succeeds. The host operation may throw. -/
def answered (proto : Protocol) (store : Store (List Job) Failure Reply)
    (a : Answer) (w : Work) : Bool :=
  (w.hosts || a.ok)
    && match w with
      | .completing done _ =>
          !isRejected (store.call (complete proto done a.now)).2
      | _ => true

/-- Every call of the registry succeeds, and so do the journal and the
reconciliation. -/
def succeeds (proto : Protocol) (s : State) : Event → Bool
  | .settle ok => ok && !isRejected (s.store.settle .store ok).2
  | .advance i a => s.works[i]?.all (answered proto s.store a)
  | _ => true

abbrev Succeeds (proto : Protocol) (s : State) (e : Event) : Prop :=
  succeeds proto s e = true

section nohalts

variable {cfg : Config} {proto : Protocol}
  {store : Store (List Job) Failure Reply} {log : List Note}

theorem validId_true (id : Uuid) : validId id = true := by
  have hclass : Text.inClass Text.isKeyChar 8 128 id.text = true :=
    id.inClass_text (fun _ hc => Text.isKeyChar_of_isHex hc) rfl (by omega)
      (by omega)
  obtain ⟨hlo, hhi⟩ := length_of_inClass hclass
  unfold validId
  rw [decide_eq_true hlo, decide_eq_true hhi]
  rfl

/-- A selector that answers lets a listing pass. -/
theorem select_not_halts
    (hanswers : ∀ supports, cfg.supportsOperation = some supports →
      ∀ operation, supports operation ≠ none) (jobs : List Job)
    (fault : Fault) : select cfg (listQueued cfg jobs) ≠ .halts fault := by
  unfold select
  cases hnext : (listQueued cfg jobs).head? with
  | none => exact fun heq => by cases heq
  | some next =>
      obtain ⟨job, hjob, rfl⟩ :=
        List.mem_map.mp (List.mem_of_mem_head? hnext)
      have hclaim := List.of_mem_filter hjob
      have hvalid : validQueuedJob cfg.serverId (publicJob job) = true := by
        unfold validQueuedJob
        rw [validId_true]
        exact hclaim
      dsimp only
      rw [hvalid, if_neg (by decide)]
      cases hselector : cfg.supportsOperation with
      | none => exact fun heq => by cases heq
      | some supports =>
          dsimp only
          cases hop : supports (publicJob job).operation with
          | none => exact absurd hop (hanswers supports hselector _)
          | some supported =>
              cases supported with
              | false => exact fun heq => by cases heq
              | true => exact fun heq => by cases heq

/-- A claim that finds the head it expects passes. -/
theorem claimNow_not_halts {expected : Option Uuid}
    (hw : WorkOk cfg proto store log (.claiming expected))
    (hkept : cfg.supportsOperation.isSome = true →
      (store.mem.find? (Job.claimable cfg.serverId)).map Job.id = expected)
    (now : Instant) (fault : Fault) :
    (claimNow cfg proto expected now store).turn ≠ .halts fault := by
  unfold claimNow
  rcases claimNext_spec proto now with
    ⟨hclaim, hfind⟩ | ⟨i, job, hi, hserver, hqueued, hfind, hclaim⟩
  · have hcall : store.call (claimNext proto cfg.serverId now)
        = (store, .resolved .nothing) := by
      unfold Store.call
      rw [hclaim]
    have hnone : expected = none := by
      cases hselector : cfg.supportsOperation with
      | none => exact hw.1 hselector
      | some supports =>
          rw [← hkept (by rw [hselector]; rfl), hfind]
          rfl
    rw [hcall, hnone]
    exact fun heq => by cases heq
  · have hcall : (store.call (claimNext proto cfg.serverId now)).2
        = .waiting := by
      unfold Store.call
      rw [hclaim]
    dsimp only
    rw [hcall]
    exact fun heq => by cases heq

/-- A claim of the job that was selected passes once it is written. -/
theorem claimSettled_not_halts {expected : Option Uuid}
    (hpayload : ∀ id operation payload,
      proto.envelopeError id operation payload = none →
        payload.isObject = true)
    (hw : WorkOk cfg proto store log (.savingClaim expected 0))
    (hhead : Each (AtHead cfg) log) (ok : Bool)
    (hsucceeds : isRejected (store.settle .store ok).2 = false)
    (fault : Fault) :
    claimSettled cfg expected (store.settle .store ok).2 ≠ .halts fault := by
  obtain ⟨i, job, hw⟩ := hw
  obtain ⟨p, hp, hreply⟩ := hw.own
  obtain ⟨before, hlog, hselected⟩ := hw.claimed
  have hout : (store.settle .store ok).2
      = .ofExcept (claimResult proto i job store.mem) := by
    rcases answer_settle ok hp with hrejected | hanswer
    · rw [hrejected] at hsucceeds
      cases hsucceeds
    · rw [hanswer, hreply]
  rw [hout] at hsucceeds ⊢
  unfold claimResult at hsucceeds ⊢
  rw [hw.here] at hsucceeds ⊢
  dsimp only [Option.getD_some] at hsucceeds ⊢
  unfold Protocol.createOperationEnvelope at hsucceeds ⊢
  cases henvelope : proto.envelopeError job.id job.operation job.payload with
  | some message =>
      rw [henvelope] at hsucceeds
      cases hsucceeds
  | none =>
      have hexpected : cfg.supportsOperation.isSome = true →
          expected = some job.id := by
        intro hselector
        have hat : before.head? = some (.selected (some job.id)) :=
          Each.at hhead (show log = [] ++ _ :: before from hlog) hselector
        rw [hselected hselector] at hat
        exact Note.selected.inj (Option.some.inj hat)
      show receive cfg expected ⟨publicJob job, ⟨job.id, job.operation,
        job.payload⟩⟩ ≠ _
      have hvalid : validClaim cfg.serverId ⟨publicJob job, ⟨job.id,
          job.operation, job.payload⟩⟩ = true := by
        unfold validClaim
        simp [publicJob, validId_true, hw.serverId, hw.running,
          hpayload _ _ _ henvelope]
      unfold receive
      rw [hvalid, if_neg (by decide)]
      cases hselector : cfg.supportsOperation with
      | none =>
          rw [hw.selectorless hselector]
          exact fun heq => by cases heq
      | some supports =>
          have hsame := hexpected (by rw [hselector]; rfl)
          have hop := hw.supported supports hselector hsame
          rw [hsame, if_neg (by simp [publicJob])]
          dsimp only
          rw [show (publicJob job).operation = job.operation from rfl, hop]
          exact fun heq => by cases heq

/-- A completion that is written passes. -/
theorem completionSettled_not_halts
    (hw : WorkOk cfg proto store log (.savingResult done jobId 0))
    (ok : Bool) (hsucceeds : isRejected (store.settle .store ok).2 = false)
    (fault : Fault) :
    completionSettled cfg done jobId (store.settle .store ok).2
      ≠ .halts fault := by
  obtain ⟨i, job, hw⟩ := hw
  obtain ⟨p, hp, hreply⟩ := hw.own
  have hout : (store.settle .store ok).2
      = .resolved (.job (publicJob job)) := by
    rcases answer_settle ok hp with hrejected | hanswer
    · rw [hrejected] at hsucceeds
      cases hsucceeds
    · rw [hanswer, hreply]
      unfold jobResult
      rw [hw.here]
      rfl
  rw [hout]
  have hsame : acknowledges cfg done jobId (publicJob job) = true := by
    unfold acknowledges
    simp [publicJob, hw.id, hw.serverId, hw.status]
  show (if acknowledges cfg done jobId (publicJob job) then
    Turn.awaits (.reconciling (publicJob job)) else _) ≠ _
  rw [if_pos hsame]
  exact fun heq => by cases heq

end nohalts

section quiet

variable {cfg : Config} {proto : Protocol} {s : State}

/-- Nothing but a claim is seen as one. -/
theorem claimed_not_seen (turn : Turn) (id : Uuid) :
    .claimed id ∉ turn.seen := by
  unfold Turn.seen
  split
  · exact fun hin => by cases List.mem_singleton.mp hin
  · exact fun hin => by cases List.mem_singleton.mp hin
  · exact fun hin => by cases hin

theorem Each.seen_append {seen log : List Note}
    (h : Each (AtHead cfg) log) (hseen : ∀ id, .claimed id ∉ seen) :
    Each (AtHead cfg) (seen ++ log) := by
  induction seen with
  | nil => exact h
  | cons n seen ih =>
      refine ⟨?_, ih fun id hin => hseen id (List.mem_cons_of_mem n hin)⟩
      cases n with
      | claimed id => exact absurd List.mem_cons_self (hseen id)
      | selected e => trivial
      | started id => trivial
      | returned id => trivial
      | threw id => trivial
      | halted => trivial

/-- What is claimed at the head that was selected is what was selected. -/
theorem atHead_claimNow {store : Store (List Job) Failure Reply}
    {log : List Note} {expected : Option Uuid} (h : Each (AtHead cfg) log)
    (hw : WorkOk cfg proto store log (.claiming expected))
    (hkept : cfg.supportsOperation.isSome = true →
      (store.mem.find? (Job.claimable cfg.serverId)).map Job.id = expected)
    (now : Instant) :
    Each (AtHead cfg) ((claimNow cfg proto expected now store).seen ++ log) := by
  unfold claimNow
  dsimp only
  split
  · cases hfind : store.mem.find? (Job.claimable cfg.serverId) with
    | none => exact h
    | some job =>
        refine ⟨fun hselector => ?_, h⟩
        obtain ⟨supports, hsupports⟩ := Option.isSome_iff_exists.mp hselector
        show log.head? = _
        rw [(hw.2 supports hsupports).1, ← hkept hselector, hfind]
        rfl
  · exact h.seen_append (claimed_not_seen _)

theorem atHead_advance {store : Store (List Job) Failure Reply}
    {log : List Note} {a : Answer} {move : Move} (h : Each (AtHead cfg) log)
    (hw : WorkOk cfg proto store log w)
    (hkept : ∀ expected, w = .claiming expected →
      cfg.supportsOperation.isSome = true →
      (store.mem.find? (Job.claimable cfg.serverId)).map Job.id = expected)
    (hmove : advance cfg proto a store w = some move) :
    Each (AtHead cfg) (move.seen ++ log) := by
  have hstay (turn : Turn) {seen : List Note}
      (hseen : ∀ id, .claimed id ∉ seen) :
      Each (AtHead cfg) ((turn.seen ++ seen) ++ log) := by
    refine h.seen_append fun id hin => ?_
    rcases List.mem_append.mp hin with hin | hin
    · exact claimed_not_seen turn id hin
    · exact hseen id hin
  have hnil (id : Uuid) : Note.claimed id ∉ ([] : List Note) :=
    fun hin => by cases hin
  have hone {n : Note} (hn : ∀ id, n ≠ .claimed id) (id : Uuid) :
      Note.claimed id ∉ [n] :=
    fun hin => hn id (List.mem_singleton.mp hin).symm
  unfold advance at hmove
  split at hmove
  · split at hmove
    · obtain rfl := Option.some.inj hmove
      exact hstay _ (hone nofun)
    · obtain rfl := Option.some.inj hmove
      exact hstay _ hnil
  · split at hmove
    · obtain rfl := Option.some.inj hmove
      exact atHead_claimNow h hw (hkept _ rfl) _
    · obtain rfl := Option.some.inj hmove
      exact hstay _ hnil
  · split at hmove
    · obtain rfl := Option.some.inj hmove
      exact hstay _ (hone nofun)
    · obtain rfl := Option.some.inj hmove
      exact hstay _ (hone nofun)
  · obtain rfl := Option.some.inj hmove
    exact hstay _ hnil
  · obtain rfl := Option.some.inj hmove
    exact hstay _ hnil
  · split at hmove
    · obtain rfl := Option.some.inj hmove
      unfold completeNow
      dsimp only
      split
      · exact h
      · exact h.seen_append (claimed_not_seen _)
    · obtain rfl := Option.some.inj hmove
      exact hstay _ hnil
  · obtain rfl := Option.some.inj hmove
    exact hstay _ hnil
  · obtain rfl := Option.some.inj hmove
    exact hstay _ hnil
  · cases hmove
  · cases hmove

/-- A turn whose call succeeds does not halt. -/
theorem advance_not_halts {store : Store (List Job) Failure Reply}
    {log : List Note} {a : Answer} {move : Move}
    (hanswers : ∀ supports, cfg.supportsOperation = some supports →
      ∀ operation, supports operation ≠ none)
    (hids : (store.mem.map Job.id).Nodup)
    (hw : WorkOk cfg proto store log w)
    (hkept : ∀ expected, w = .claiming expected →
      cfg.supportsOperation.isSome = true →
      (store.mem.find? (Job.claimable cfg.serverId)).map Job.id = expected)
    (hanswered : answered proto store a w = true)
    (hmove : advance cfg proto a store w = some move) (fault : Fault) :
    move.turn ≠ .halts fault := by
  have hfinishing (jobId : Uuid) (done : Completion) :
      finishing cfg jobId done ≠ .halts fault := by
    unfold finishing
    exact fun heq => by cases heq
  unfold answered at hanswered
  rw [Bool.and_eq_true, Bool.or_eq_true] at hanswered
  have hok (hhosts : w.hosts = false) : a.ok = true := by
    rcases hanswered.1 with h | h
    · rw [hhosts] at h
      cases h
    · exact h
  cases w with
  | listing =>
      rw [advance, if_pos (hok rfl)] at hmove
      obtain rfl := Option.some.inj hmove
      exact select_not_halts hanswers _ fault
  | claiming expected =>
      rw [advance, if_pos (hok rfl)] at hmove
      obtain rfl := Option.some.inj hmove
      exact claimNow_not_halts hw (hkept expected rfl) _ fault
  | executing claim =>
      rw [advance] at hmove
      split at hmove
      · obtain rfl := Option.some.inj hmove
        show (if _ then _ else _) ≠ _
        split
        · exact fun heq => by cases heq
        · exact hfinishing _ _
      · obtain rfl := Option.some.inj hmove
        exact hfinishing _ _
  | recording claim result =>
      obtain rfl := Option.some.inj hmove
      exact hfinishing _ _
  | beginning done jobId =>
      obtain rfl := Option.some.inj hmove
      show (if _ then _ else _) ≠ _
      rw [if_pos (hok rfl)]
      exact fun heq => by cases heq
  | completing done jobId =>
      have hsaved : isRejected (store.call (complete proto done a.now)).2
          = false := by simpa using hanswered.2
      rw [advance, if_pos (hok rfl)] at hmove
      obtain rfl := Option.some.inj hmove
      unfold completeNow
      rcases complete_spec proto hw hids a.now with
        ⟨e, hspec⟩ | ⟨i, job, new, status, -, -, -, -, -, -, hspec⟩
      · have hcall : store.call (complete proto done a.now)
            = (store, .rejected e) := by
          unfold Store.call
          rw [hspec]
        rw [hcall] at hsaved
        cases hsaved
      · have hcall : (store.call (complete proto done a.now)).2
            = .waiting := by
          unfold Store.call
          rw [hspec]
        dsimp only
        rw [hcall]
        exact fun heq => by cases heq
  | reconciling terminal =>
      obtain rfl := Option.some.inj hmove
      show (if _ then _ else _) ≠ _
      rw [if_neg (by rw [hok rfl]; decide)]
      split <;> exact fun heq => by cases heq
  | acknowledging terminal =>
      obtain rfl := Option.some.inj hmove
      show (if _ then _ else _) ≠ _
      rw [if_pos (hok rfl)]
      exact fun heq => by cases heq
  | savingClaim expected ahead => cases hmove
  | savingResult done jobId ahead => cases hmove

/-- A run makes what it can of its own write. -/
theorem settled_not_halts {store : Store (List Job) Failure Reply}
    {log : List Note} {turn : Turn} (hpayload : ∀ id operation payload,
      proto.envelopeError id operation payload = none →
        payload.isObject = true) (hhead : Each (AtHead cfg) log)
    (hw : WorkOk cfg proto store log w) (ok : Bool)
    (hsucceeds : isRejected (store.settle .store ok).2 = false)
    (hturn : settled cfg (store.settle .store ok).2 w = some turn)
    (fault : Fault) : turn ≠ .halts fault := by
  unfold settled at hturn
  split at hturn
  · obtain rfl := Option.some.inj hturn
    exact claimSettled_not_halts hpayload hw hhead ok hsucceeds fault
  · obtain rfl := Option.some.inj hturn
    exact completionSettled_not_halts hw ok hsucceeds fault
  · cases hturn

theorem fault_follow (s : State) (i : Nat) {turn : Turn} (seen : List Note)
    (h : ∀ fault, turn ≠ .halts fault) :
    ((s.follow i turn).note seen).fault = s.fault := by
  cases turn with
  | awaits w => rfl
  | done claimed => rfl
  | unsupported jobId => rfl
  | halts fault => exact absurd rfl (h fault)

theorem log_follow (s : State) (i : Nat) (turn : Turn) (seen : List Note) :
    ((s.follow i turn).note seen).log = seen ++ s.log := by
  cases turn <;> rfl

/-- The only run on its way. -/
theorem Inv.work (h : Inv cfg proto s) (hi : s.works[i]? = some w) :
    WorkOk cfg proto s.store s.log w := by
  rcases h.works with ⟨-, hworks⟩ | ⟨-, -, w', hworks, hw⟩
  · rw [hworks] at hi
    cases hi
  · rw [hworks] at hi
    have hmem := List.mem_of_getElem? hi
    rw [List.mem_singleton.mp hmem]
    exact hw

/-- A step that is seen by nobody, and changes no fault. -/
structure Unseen (s s' : State) : Prop where
  log : s'.log = s.log
  fault : s'.fault = s.fault
  works : s.fault.isSome = true → s.works = [] → s'.works = []

theorem Unseen.trans {s₁ s₂ s₃ : State} (h : Unseen s₁ s₂)
    (h' : Unseen s₂ s₃) : Unseen s₁ s₃ where
  log := h'.log.trans h.log
  fault := h'.fault.trans h.fault
  works hsome hnone :=
    h'.works (by rw [h.fault]; exact hsome) (h.works hsome hnone)

theorem unseen_schedule (s : State) (generation : Nat) :
    Unseen s (s.schedule generation) := by
  unfold State.schedule
  split <;> exact ⟨rfl, rfl, fun _ h => h⟩

theorem unseen_runOnce (cfg : Config) (s : State) : Unseen s (s.runOnce cfg).1 := by
  unfold State.runOnce
  split
  · exact ⟨rfl, rfl, fun _ h => h⟩
  · rename_i hfault
    split
    · exact ⟨rfl, rfl, fun _ h => h⟩
    · split
      · exact ⟨rfl, rfl, fun _ h => h⟩
      · refine ⟨rfl, rfl, fun hsome _ => ?_⟩
        rw [hfault] at hsome
        cases hsome

theorem unseen_tick (s : State) : Unseen s (s.tick cfg) := by
  unfold State.tick
  split
  · exact ⟨rfl, rfl, fun _ h => h⟩
  · have hcleared : Unseen s { s with timer := none } :=
      ⟨rfl, rfl, fun _ h => h⟩
    dsimp only
    split
    · exact hcleared
    · have hrun := hcleared.trans (unseen_runOnce cfg _)
      split
      · rename_i heq
        rw [heq] at hrun
        exact hrun.trans ⟨rfl, rfl, fun _ h => h⟩
      · rename_i heq
        rw [heq] at hrun
        exact hrun.trans ⟨rfl, rfl, fun _ h => h⟩

theorem unseen_start (s : State) : Unseen s s.start.1 := by
  unfold State.start
  split
  · exact ⟨rfl, rfl, fun _ h => h⟩
  · split
    · exact ⟨rfl, rfl, fun _ h => h⟩
    · split
      · exact ⟨rfl, rfl, fun _ h => h⟩
      · refine Unseen.trans ?_ (unseen_schedule _ _)
        exact ⟨rfl, rfl, fun _ h => h⟩

/-- The steps in which a run may take a turn. -/
def Event.turns : Event → Bool
  | settle _ => true
  | advance _ _ => true
  | _ => false

variable {e : Event}

theorem unseen_step (s : State) (he : e.turns = false) :
    Unseen s ((machine cfg proto).next s e) := by
  cases e with
  | settle ok => cases he
  | advance i a => cases he
  | enqueue req id now => exact ⟨rfl, rfl, fun _ h => h⟩
  | cancel jobId now => exact ⟨rfl, rfl, fun _ h => h⟩
  | runOnce => exact unseen_runOnce cfg s
  | start => exact unseen_start s
  | stop => exact ⟨rfl, rfl, fun _ h => h⟩
  | tick => exact unseen_tick s
  | resume i =>
      show Unseen s (State.step cfg proto s (.resume i)).1
      unfold State.step
      dsimp only
      split
      · exact ⟨rfl, rfl, fun _ h => h⟩
      · refine Unseen.trans ?_ (unseen_schedule _ _)
        exact ⟨rfl, rfl, fun _ h => h⟩
  | drained =>
      show Unseen s (if s.active then s else { s with stopping := false })
      split <;> exact ⟨rfl, rfl, fun _ h => h⟩

/-- Where a write settles, or a call goes on, a run takes a turn or nothing
is seen. -/
theorem turn_cases (cfg : Config) (proto : Protocol) (s : State)
    (he : e.turns = true) :
    Unseen s ((machine cfg proto).next s e)
      ∨ (∃ ok i w turn s', e = .settle ok ∧ s.works[i]? = some w
        ∧ settled cfg (s.store.settle .store ok).2 w = some turn
        ∧ State.log s' = s.log ∧ s'.fault = s.fault
        ∧ (machine cfg proto).next s e = (s'.follow i turn).note turn.seen)
      ∨ ∃ i a w move, e = .advance i a ∧ s.works[i]? = some w
        ∧ advance cfg proto a s.store w = some move
        ∧ (machine cfg proto).next s e
          = (({ s with store := move.store }).follow i move.turn).note
            move.seen := by
  cases e with
  | settle ok =>
      have hnext : (machine cfg proto).next s (.settle ok)
          = s.settle cfg ok := rfl
      rw [hnext]
      unfold State.settle
      split
      · exact .inl ⟨rfl, rfl, fun _ h => h⟩
      · dsimp only
        have hempty (store : Store (List Job) Failure Reply) :
            Unseen s { s with store, works := s.works.map Work.nearer } :=
          ⟨rfl, rfl, fun _ hnone => by
            show s.works.map Work.nearer = []
            rw [hnone]
            rfl⟩
        split
        · exact .inl (hempty _)
        · rename_i i w hloc
          cases hturn : settled cfg (s.store.settle .store ok).2 w with
          | none => exact .inl (hempty _)
          | some turn =>
              exact .inr (.inl ⟨ok, i, w, turn,
                { s with
                  store := (s.store.settle .store ok).1
                  works := s.works.map Work.nearer },
                rfl, getElem?_of_locate hloc, hturn, rfl, rfl, rfl⟩)
  | advance i a =>
      have hnext : (machine cfg proto).next s (.advance i a)
          = s.advance cfg proto i a := rfl
      rw [hnext]
      unfold State.advance
      cases hmove : s.works[i]?.bind (Executor.advance cfg proto a s.store) with
      | none => exact .inl ⟨rfl, rfl, fun _ h => h⟩
      | some move =>
          obtain ⟨w, hi, hmove⟩ := Option.bind_eq_some_iff.mp hmove
          exact .inr (.inr ⟨i, a, w, move, rfl, hi, hmove, rfl⟩)
  | enqueue req id now => cases he
  | cancel jobId now => cases he
  | runOnce => cases he
  | start => cases he
  | stop => cases he
  | tick => cases he
  | resume i => cases he
  | drained => cases he

/-- A claim under way finds the head it expects. -/
theorem headKept_claiming {a : Answer} {expected : Option Uuid}
    (h : headKept cfg s (.advance i a) = true)
    (hi : s.works[i]? = some (.claiming expected))
    (hselector : cfg.supportsOperation.isSome = true) :
    (s.store.mem.find? (Job.claimable cfg.serverId)).map Job.id
      = expected := by
  rw [headKept, hi, hselector] at h
  simpa using h

/-- A step at the head that was selected. -/
theorem atHead_step (h : Inv cfg proto s) (hhead : Each (AtHead cfg) s.log)
    (hkept : headKept cfg s e = true) :
    Each (AtHead cfg) ((machine cfg proto).next s e).log := by
  cases he : e.turns with
  | false =>
      rw [(unseen_step s he).log]
      exact hhead
  | true =>
      rcases turn_cases cfg proto s he with
        hunseen | ⟨ok, i, w, turn, s', -, -, -, hlog, -, hnext⟩ |
          ⟨i, a, w, move, rfl, hi, hmove, hnext⟩
      · rw [hunseen.log]
        exact hhead
      · rw [hnext, log_follow, hlog]
        exact hhead.seen_append (claimed_not_seen _)
      · rw [hnext, log_follow]
        exact atHead_advance hhead (h.work hi)
          (fun expected heq => headKept_claiming hkept (heq ▸ hi)) hmove

/-- A step that succeeds halts nothing. -/
theorem fault_step (h : Inv cfg proto s) (hhead : Each (AtHead cfg) s.log)
    (hanswers : ∀ supports, cfg.supportsOperation = some supports →
      ∀ operation, supports operation ≠ none)
    (hpayload : ∀ id operation payload,
      proto.envelopeError id operation payload = none →
        payload.isObject = true) (hkept : headKept cfg s e = true)
    (hsucceeds : succeeds proto s e = true) :
    ((machine cfg proto).next s e).fault = s.fault := by
  cases he : e.turns with
  | false => exact (unseen_step s he).fault
  | true =>
      rcases turn_cases cfg proto s he with
        hunseen | ⟨ok, i, w, turn, s', rfl, hi, hturn, -, hfault, hnext⟩ |
          ⟨i, a, w, move, rfl, hi, hmove, hnext⟩
      · exact hunseen.fault
      · rw [succeeds, Bool.and_eq_true, Bool.not_eq_true'] at hsucceeds
        rw [hnext, fault_follow, hfault]
        exact settled_not_halts hpayload hhead (h.work hi) ok hsucceeds.2
          hturn
      · rw [hnext, fault_follow]
        have hanswered : answered proto s.store a w = true := by
          rw [succeeds, hi] at hsucceeds
          exact hsucceeds
        exact advance_not_halts hanswers h.sound.ids (h.work hi)
          (fun expected heq => headKept_claiming hkept (heq ▸ hi)) hanswered
          hmove

/-- Once the executor has halted, nothing is seen of it any more. -/
theorem faulted_step (h : s.fault.isSome = true ∧ s.works = []) :
    (((machine cfg proto).next s e).fault.isSome = true
        ∧ ((machine cfg proto).next s e).works = [])
      ∧ ((machine cfg proto).next s e).log = s.log := by
  have hunseen : Unseen s ((machine cfg proto).next s e) := by
    cases he : e.turns with
    | false => exact unseen_step s he
    | true =>
        rcases turn_cases cfg proto s he with
          hunseen | ⟨ok, i, w, turn, s', -, hi, -⟩ | ⟨i, a, w, move, -, hi, -⟩
        · exact hunseen
        · rw [h.2] at hi
          cases hi
        · rw [h.2] at hi
          cases hi
  refine ⟨⟨?_, hunseen.works h.1 h.2⟩, hunseen.log⟩
  rw [hunseen.fault]
  exact h.1

end quiet

-- ====== results

section results

variable {cfg : Config} {proto : Protocol} {jobs : List Job}
  {events : List Event}

theorem inv_run (hids : (jobs.map Job.id).Nodup)
    (hfresh : (machine cfg proto).Allowed Fresh (.opened jobs) events) :
    Inv cfg proto ((machine cfg proto).run (.opened jobs) events) :=
  Machine.invariant_of_allowed (fun s e he h => inv_step s e he h) hfresh
    (inv_opened hids)

/-- Along a run whose claims find the head that was listed, that is what
they claim. -/
theorem atHead_run (hids : (jobs.map Job.id).Nodup)
    (hfresh : (machine cfg proto).Allowed Fresh (.opened jobs) events)
    (hkept : (machine cfg proto).Allowed (HeadKept cfg) (.opened jobs)
      events) :
    Each (AtHead cfg)
      ((machine cfg proto).run (.opened jobs) events).log := by
  have hboth : Inv cfg proto ((machine cfg proto).run (.opened jobs) events)
      ∧ Each (AtHead cfg)
        ((machine cfg proto).run (.opened jobs) events).log := by
    refine Machine.invariant_of_allowed
      (P := fun s => Inv cfg proto s ∧ Each (AtHead cfg) s.log) ?_
      (Machine.allowed_and hfresh hkept) ⟨inv_opened hids, trivial⟩
    exact fun s e he h => ⟨inv_step s e he.1 h.1, atHead_step h.1 h.2 he.2⟩
  exact hboth.2

theorem faultless_run (hids : (jobs.map Job.id).Nodup)
    (hanswers : ∀ supports, cfg.supportsOperation = some supports →
      ∀ operation, supports operation ≠ none)
    (hpayload : ∀ id operation payload,
      proto.envelopeError id operation payload = none →
        payload.isObject = true)
    (hfresh : (machine cfg proto).Allowed Fresh (.opened jobs) events)
    (hkept : (machine cfg proto).Allowed (HeadKept cfg) (.opened jobs)
      events)
    (hsucceeds : (machine cfg proto).Allowed (Succeeds proto) (.opened jobs)
      events) :
    ((machine cfg proto).run (.opened jobs) events).fault = none := by
  have hall : (Inv cfg proto ((machine cfg proto).run (.opened jobs) events)
      ∧ Each (AtHead cfg)
        ((machine cfg proto).run (.opened jobs) events).log)
      ∧ ((machine cfg proto).run (.opened jobs) events).fault = none := by
    refine Machine.invariant_of_allowed
      (P := fun s => (Inv cfg proto s ∧ Each (AtHead cfg) s.log)
        ∧ s.fault = none) ?_
      (Machine.allowed_and (Machine.allowed_and hfresh hkept) hsucceeds)
      ⟨⟨inv_opened hids, trivial⟩, rfl⟩
    rintro s e ⟨⟨hnew, hhead⟩, hsucceeds⟩ ⟨⟨hinv, hat⟩, hnone⟩
    exact ⟨⟨inv_step s e hnew hinv, atHead_step hinv hat hhead⟩,
      (fault_step hinv hat hanswers hpayload hhead hsucceeds).trans hnone⟩
  exact hall.2

/-- A run that has claimed its job and awaits the host. -/
def Work.executes : Work → Bool
  | executing _ => true
  | _ => false

/-- The local executor under any interleaving of its own calls, its timer
and others' calls of the registry. Where the head of the queue is at each
claim the one that was listed (none where none was), what is executed is what
was selected, and an executor whose calls succeed never halts. -/
theorem executor_runs (cfg : Config) (proto : Protocol) (jobs : List Job)
    (events : List Event)
    -- ids are the registry's own, and the payload of an envelope an object
    (hids : (jobs.map Job.id).Nodup)
    (hfresh : (machine cfg proto).Allowed Fresh (.opened jobs) events)
    (hpayload : ∀ id operation payload,
      proto.envelopeError id operation payload = none →
        payload.isObject = true) :
    let s := (machine cfg proto).run (.opened jobs) events
    -- at most one job is executed at a time
    (s.works.filter Work.executes).length ≤ 1
    -- what is executed was claimed just before
    ∧ (∀ newer before id, s.log = newer ++ .started id :: before →
        before.head? = some (.claimed id))
    -- a host operation that returned is not recorded failed, one that threw
    -- not succeeded
    ∧ (∀ id job, job ∈ s.store.mem ∨ job ∈ s.store.file → job.id = id →
        (.returned id ∈ s.log → job.status ≠ .failed)
          ∧ (.threw id ∈ s.log → job.status ≠ .succeeded))
    -- after a fault nothing is selected, claimed or executed any more
    ∧ (∀ before after, events = before ++ after →
        ((machine cfg proto).run (.opened jobs) before).fault.isSome = true →
        s.log = ((machine cfg proto).run (.opened jobs) before).log)
    -- and with the head of the queue kept between listing and claim:
    ∧ ((machine cfg proto).Allowed (HeadKept cfg) (.opened jobs) events →
        -- what is executed is the head that was selected
        (∀ newer before id, s.log = newer ++ .started id :: before →
          cfg.supportsOperation.isSome = true → ∃ older,
            before = .claimed id :: older
              ∧ older.head? = some (.selected (some id)))
        -- where every call succeeds, the executor does not halt
        ∧ ((∀ supports, cfg.supportsOperation = some supports →
              ∀ operation, supports operation ≠ none) →
            (machine cfg proto).Allowed (Succeeds proto) (.opened jobs)
              events →
            s.fault = none)) := by
  intro s
  have hinv : Inv cfg proto s := inv_run hids hfresh
  have hstarted (newer before : List Note) (id : Uuid)
      (hlog : s.log = newer ++ .started id :: before) :
      before.head? = some (.claimed id) := hinv.sound.inTurn.at hlog
  have hne : Status.failed ≠ Status.succeeded := by decide
  refine ⟨?_, hstarted, fun id job hjob hid => ⟨fun hin => ?_, fun hin => ?_⟩,
    ?_, fun hkept => ⟨?_, fun hanswers hsucceeds => ?_⟩⟩
  · refine Nat.le_trans (List.length_filter_le _ _) ?_
    rcases hinv.works with ⟨-, hworks⟩ | ⟨-, -, w, hworks, -⟩
    · rw [hworks]
      exact Nat.zero_le _
    · rw [hworks]
      exact Nat.le_refl _
  · exact hinv.sound.returned.not_other hinv.sound rfl hne hin hjob hid
  · exact hinv.sound.threw.not_other hinv.sound rfl hne.symm hin hjob hid
  · rintro before after rfl hfault
    have hbefore : Inv cfg proto
        ((machine cfg proto).run (.opened jobs) before) :=
      inv_run hids (((machine cfg proto).allowed_append _ _ _ _).mp hfresh).1
    have hnone : ((machine cfg proto).run (.opened jobs) before).works
        = [] := by
      rcases hbefore.works with ⟨-, hworks⟩ | ⟨-, hnone, -⟩
      · exact hworks
      · rw [hnone] at hfault
        cases hfault
    show ((machine cfg proto).run (.opened jobs) (before ++ after)).log = _
    rw [Machine.run_append]
    generalize (machine cfg proto).run (.opened jobs) before = start
      at hfault hnone
    have hquiet := Machine.invariant (m := machine cfg proto)
      (P := fun s => (s.fault.isSome = true ∧ s.works = [])
        ∧ s.log = start.log)
      (fun s e h => ⟨(faulted_step h.1).1, (faulted_step h.1).2.trans h.2⟩)
      (s := start) ⟨⟨hfault, hnone⟩, rfl⟩ after
    exact hquiet.2
  · intro newer before id hlog hselector
    have hhead := hstarted newer before id hlog
    cases before with
    | nil => cases hhead
    | cons n older =>
        obtain rfl : n = .claimed id := Option.some.inj hhead
        have hsplit : s.log
            = (newer ++ [.started id]) ++ .claimed id :: older := by
          rw [List.append_assoc]
          exact hlog
        have hat := (atHead_run hids hfresh hkept).at hsplit
        exact ⟨older, rfl, hat hselector⟩
  · exact faultless_run hids hanswers hpayload hfresh hkept hsucceeds

end results

-- ====== samples

/-- A protocol that takes every payload that is an object. -/
def objectProtocol : Protocol :=
  { sampleProtocol with
    envelopeError := fun _ _ payload =>
      if payload.isObject then none else some "payload must be an object" }

/-- An executor of service inspections, with everything it can be given. -/
def inspector : Config where
  serverId := "server-1"
  supportsOperation := some fun operation =>
    some (operation == .systemServicesInspect)
  journalReconciliation := true
  recordsEvidence := true

def oneQueued : List Job := [sampleJob sampleId .queued none]

def fine : Answer := ⟨true, ⟨1⟩, .obj []⟩

/-- One job from the listing to its acknowledgement, while somebody tries to
cancel it. -/
def inspection : List Event :=
  [.start, .tick, .advance 0 fine, .advance 0 fine,
    .cancel sampleId.text ⟨2⟩, .settle true, .advance 0 fine,
    .advance 0 fine, .advance 0 fine, .advance 0 fine, .settle true,
    .advance 0 fine, .advance 0 fine, .resume 0]

theorem executor_runs_sample :
    let s := (machine inspector objectProtocol).run (.opened oneQueued)
      inspection
    s.fault = none ∧ s.timer = some 1
      ∧ s.log = [.returned sampleId, .started sampleId, .claimed sampleId,
        .selected (some sampleId)]
      ∧ s.store.file.map Job.status = [.succeeded] := by
  have hfresh : (machine inspector objectProtocol).Allowed Fresh
      (.opened oneQueued) inspection :=
    ⟨trivial, trivial, trivial, trivial, trivial, trivial, trivial, trivial,
      trivial, trivial, trivial, trivial, trivial, trivial, trivial⟩
  have hkept : (machine inspector objectProtocol).Allowed
      (HeadKept inspector) (.opened oneQueued) inspection := by
    decide +kernel
  have hsucceeds : (machine inspector objectProtocol).Allowed
      (Succeeds objectProtocol) (.opened oneQueued) inspection := by
    decide +kernel
  obtain ⟨-, -, -, -, hquiet⟩ := executor_runs inspector objectProtocol
    oneQueued inspection (by decide) hfresh (fun id operation payload h => by
      unfold objectProtocol at h
      dsimp only at h
      split at h
      · assumption
      · cases h)
  refine ⟨(hquiet hkept).2 (fun supports hsupports operation => ?_) hsucceeds,
    by decide +kernel, by decide +kernel, by decide +kernel⟩
  cases hsupports
  exact nofun

/-- The only queued job is cancelled between the listing and the claim:
every call succeeds, and the executor halts. -/
theorem cancel_between_halts :
    (machine inspector objectProtocol).Allowed (Succeeds objectProtocol)
      (.opened oneQueued)
      [.runOnce, .advance 0 fine, .cancel sampleId.text ⟨2⟩, .settle true,
        .advance 0 fine]
    ∧ ((machine inspector objectProtocol).run (.opened oneQueued)
      [.runOnce, .advance 0 fine, .cancel sampleId.text ⟨2⟩, .settle true,
        .advance 0 fine]).fault = some ⟨.claim, some sampleId⟩ := by
  decide +kernel

example : Text.isDigit 'x' = false := by decide +kernel

end Yunpanel.Jobs.Executor
