/-
What a failed write leaves behind in the base registry.

The registry changes its list first and writes afterwards, through a chain
that never recovers. So a rejected operation has still happened in memory,
the file is left at the last list that reached it, and the instance can
write no more: whoever wants the file's state back has to open a new
registry on it, which is what the durable wrapper does.

Everything here is the write-chain library read at the registry's store:
`storeMoves` is the run of that store inside a run of the registry.
-/
import Yunpanel.Jobs.Proofs.Lifecycle

namespace Yunpanel.Jobs

open Lib

-- ====== the store's own run

/-- The same event, with its write succeeding. -/
def Event.succeeding : Event → Event
  | call c => call c
  | settle _ => settle true

/-- What an event does to the store: nothing, where it is a claim that has
to wait for an earlier one. -/
def Registry.moves (proto : Protocol) (r : Registry) :
    Event → List (Move (List Job) Failure Reply)
  | .call c =>
      if c.isClaim && r.claiming.isSome then []
      else [.call (c.effect proto)]
  | .settle ok => [.settle ok]

/-- The run of the store inside a run of the registry. -/
def storeMoves (proto : Protocol) (r : Registry) (events : List Event) :
    List (Move (List Job) Failure Reply) :=
  ((machine proto).steps r events).flatMap fun (r, e) => r.moves proto e

/-- The lists the calls of a run leave for writing, in order. -/
def writes (proto : Protocol) (r : Registry) (events : List Event) :
    List (List Job) :=
  Store.writes .store r.store (storeMoves proto r events)

/-- How many of them reach the file. -/
def landed (proto : Protocol) (r : Registry) (events : List Event) : Nat :=
  Store.landed .store r.store (storeMoves proto r events)

theorem run_moves (proto : Protocol) (r : Registry) (e : Event) :
    ((machine proto).next r e).store
      = (Store.machine .store).run r.store (r.moves proto e) := by
  cases e with
  | call c =>
      simp only [Machine.next, machine, Registry.step, Registry.moves]
      split <;> rfl
  | settle ok => rfl

theorem run_storeMoves (proto : Protocol) (r : Registry)
    (events : List Event) :
    ((machine proto).run r events).store
      = (Store.machine .store).run r.store (storeMoves proto r events) := by
  induction events generalizing r with
  | nil => rfl
  | cons e es ih =>
      have hcons : storeMoves proto r (e :: es)
          = r.moves proto e
            ++ storeMoves proto ((machine proto).next r e) es := rfl
      rw [hcons, Machine.run_append, Machine.run_cons, ih, run_moves]

/-- What calls can tell of a registry, whichever of its writes
succeeded. -/
structure Alike (q r : Registry) : Prop where
  mem : q.store.mem = r.store.mem
  queue : q.store.queue.length = r.store.queue.length
  claiming : q.claiming = r.claiming

variable {r : Registry} {file : List Job}

/-- Registries that are alike stay alike when one of them has its writes
succeed. -/
theorem alike_next (proto : Protocol) {q : Registry} (h : Alike q r)
    (e : Event) :
    Alike ((machine proto).next q e)
      ((machine proto).next r e.succeeding) := by
  cases e with
  | call c =>
      simp only [Machine.next, machine, Registry.step, Event.succeeding,
        h.claiming]
      split
      · exact h
      · refine ⟨?_, Store.length_queue_call_congr h.mem h.queue _, ?_⟩
        · rw [Store.call_mem, Store.call_mem, h.mem]
        · simp only [claimTicket, h.queue, h.claiming,
            Store.call_answer_congr h.mem]
  | settle ok =>
      refine ⟨?_, ?_, ?_⟩
      · change (q.store.settle .store ok).1.mem
          = (r.store.settle .store true).1.mem
        rw [Store.settle_mem, Store.settle_mem, h.mem]
      · change (q.store.settle .store ok).1.queue.length
          = (r.store.settle .store true).1.queue.length
        rw [Store.length_queue_settle, Store.length_queue_settle, h.queue]
      · simp only [Machine.next, machine, Registry.step, Event.succeeding,
          h.claiming]

/-- Memory is the same whether or not the writes succeed; nor does it
matter to which claims have to wait. -/
theorem jobs_run_succeeding (proto : Protocol) (r : Registry)
    (events : List Event) :
    ((machine proto).run r events).jobs
      = ((machine proto).run r (events.map Event.succeeding)).jobs := by
  suffices h : ∀ q r : Registry, Alike q r →
      ((machine proto).run q events).jobs
        = ((machine proto).run r (events.map Event.succeeding)).jobs from
    h r r ⟨rfl, rfl, rfl⟩
  induction events with
  | nil => exact fun q r h => h.mem
  | cons e es ih => exact fun q r h => ih _ _ (alike_next proto h e)

-- ====== a broken registry

/-- A write of this registry has failed, and the file is `file`. -/
def StuckAt (file : List Job) (r : Registry) : Prop :=
  r.store.broken = true ∧ r.store.file = file

theorem stuckAt_next (proto : Protocol) (r : Registry) (e : Event)
    (h : StuckAt file r) :
    StuckAt file ((machine proto).next r e) := by
  rw [StuckAt, run_moves]
  obtain ⟨-, hfile, hbroken⟩ :=
    Store.landed_of_broken Failure.store h.1 (r.moves proto e)
  exact ⟨hbroken, hfile.trans h.2⟩

theorem answer_settle_of_stuckAt (proto : Protocol) (h : StuckAt file r)
    (ok : Bool) (a : Reply) :
    (machine proto).answer r (.settle ok) ≠ .resolved a :=
  (Store.settle_of_broken Failure.store ok h.1).2.2 a

/-- A call on a drained registry, and its write succeeding: what its
caller is then answered from is what the file holds. -/
theorem file_eq_jobs_of_resolved (proto : Protocol)
    (hq : r.store.queue = []) (c : Call) {a : Reply}
    (h : (machine proto).answer ((machine proto).next r (.call c))
      (.settle true) = .resolved a) :
    let r' := (machine proto).next ((machine proto).next r (.call c))
      (.settle true)
    r'.store.file = r'.jobs := by
  have hstore := run_moves proto r (.call c)
  generalize (machine proto).next r (.call c) = q at h hstore ⊢
  change (q.store.settle .store true).2 = .resolved a at h
  change (q.store.settle .store true).1.file
    = (q.store.settle .store true).1.mem
  rw [Store.settle_mem]
  -- the queue is empty, or holds this call's own snapshot
  have hown : q.store.queue = []
      ∨ ∃ p, q.store.queue = [p] ∧ p.snapshot = q.store.mem := by
    rw [hstore, Registry.moves]
    by_cases hwait : (c.isClaim && r.claiming.isSome) = true
    · rw [if_pos hwait]
      exact .inl hq
    · rw [if_neg hwait, Machine.run_cons, Machine.run_nil,
        Store.next_call, Store.call]
      split
      · exact .inl hq
      · exact .inl hq
      · exact .inl hq
      · exact .inr ⟨_, by rw [hq]; rfl, rfl⟩
  rcases hown with hnil | ⟨p, hp, hsnap⟩
  · simp [Store.settle, hnil] at h
  · unfold Store.settle at h ⊢
    rw [hp] at h ⊢
    cases hb : q.store.broken with
    | true => simp [hb] at h
    | false => simp [hsnap]

-- ====== results

/-- What failing writes do to a registry, over every run: its memory is
the one it would have had if they had succeeded, its file holds the last
list that reached it, after the first failure nothing more is written or
resolved by a write, and a call whose write settles before the next call
is answered from the list that is in the file. -/
theorem registry_writeFailure (proto : Protocol) (jobs : List Job)
    (events : List Event) :
    ((machine proto).run (.opened jobs) events).jobs
        = ((machine proto).run (.opened jobs)
            (events.map Event.succeeding)).jobs
    ∧ (jobs :: writes proto (.opened jobs) events)[
          landed proto (.opened jobs) events]?
        = some ((machine proto).run (.opened jobs) events).store.file
    ∧ (∀ before after, events = before ++ .settle false :: after →
        ((machine proto).run (.opened jobs) before).store.queue ≠ [] →
        ((machine proto).run (.opened jobs) events).store.file
            = ((machine proto).run (.opened jobs) before).store.file
          ∧ ∀ x ∈ (machine proto).steps
              ((machine proto).run (.opened jobs)
                (before ++ [.settle false])) after,
            ∀ ok a, x.2 = .settle ok →
              (machine proto).answer x.1 x.2 ≠ .resolved a)
    ∧ (∀ (c : Call) (a : Reply),
        ((machine proto).run (.opened jobs) events).store.queue = [] →
        (machine proto).answer ((machine proto).run (.opened jobs)
            (events ++ [.call c])) (.settle true) = .resolved a →
        ((machine proto).run (.opened jobs)
            (events ++ [.call c, .settle true])).store.file
          = ((machine proto).run (.opened jobs)
              (events ++ [.call c, .settle true])).jobs) := by
  refine ⟨jobs_run_succeeding proto _ events, ?_, ?_, ?_⟩
  · rw [run_storeMoves]
    exact Store.file_run Failure.store (Store.opened jobs) _
  · rintro before after rfl hq
    rw [Machine.run_append, Machine.run_append, Machine.run_cons]
    generalize (machine proto).run (.opened jobs) before = r at hq ⊢
    have hstuck : StuckAt r.store.file
        ((machine proto).next r (.settle false)) := by
      obtain ⟨-, -, hfile, hbroken⟩ :=
        Store.settle_false (ε := Failure) .store hq
      exact ⟨hbroken, hfile⟩
    refine ⟨(Machine.invariant (stuckAt_next proto) hstuck after).2, ?_⟩
    rintro ⟨q, e⟩ hx ok a rfl
    exact answer_settle_of_stuckAt proto
      (Machine.forall_mem_steps (stuckAt_next proto) hstuck after _ hx) ok a
  · intro c a hq h
    rw [Machine.run_append] at h ⊢
    exact file_eq_jobs_of_resolved proto hq c h

def sampleRequest : EnqueueRequest :=
  { serverId := "server-1"
    type := "server.services"
    operation := "system.services.inspect"
    payload := .obj []
    resourceType := "system"
    resourceId := "server-1"
    idempotencyKey := none }

/-- A failed write does not take the job back, and a job claimed before
its own write is through is reported running while the file says
queued. -/
theorem registry_writeFailure_keeps_job :
    (let r := Registry.opened []
     let r₁ := (machine sampleProtocol).next r
       (.call (.enqueue sampleRequest sampleId ⟨0⟩))
     (machine sampleProtocol).answer r₁ (.settle false)
         = .rejected .store
       ∧ ((machine sampleProtocol).next r₁ (.settle false)).jobs.length
         ≠ r.jobs.length)
    ∧ (let r := (machine sampleProtocol).run (.opened [])
         [.call (.enqueue sampleRequest sampleId ⟨0⟩),
           .call (.claimNext "server-1" ⟨1⟩)]
       (∃ job, (machine sampleProtocol).answer r (.settle true)
            = .resolved (.enqueued job true)
          ∧ job.status = .running)
       ∧ ((machine sampleProtocol).next r (.settle true)).store.file.map
            Job.status = [.queued]) := by
  refine ⟨⟨rfl, by decide⟩, ⟨_, rfl, rfl⟩, by decide⟩

end Yunpanel.Jobs
