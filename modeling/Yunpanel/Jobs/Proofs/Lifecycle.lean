/-
What a registry's job list goes through.

# One step, once

`Change` lists everything a call can do to the job list: nothing, one new
queued job at the end, or one status transition in place. Every invariant
below is derived from that list and never from the calls themselves.

# The results

`ValidStore` (one active job per resource, one job per idempotency key)
holds in every reachable state; a key, once held, is answered with its own
job or refused; a job's statuses form one of the two legal histories; no
job is claimed twice, and those of a server in the order they were enqueued
in. None of it depends on which writes succeed: memory never learns of that.
-/
import Yunpanel.Jobs.Registry

namespace Yunpanel.Jobs

open Lib

-- ====== status machine

/-- The statuses a job may take next. -/
def Status.next : Status → List Status
  | queued => [running, cancelled]
  | running => [succeeded, failed]
  | succeeded | failed | cancelled => []

/-- What a job has behind it by the time it has a status. -/
def Status.past : Status → List Status
  | queued => []
  | running | cancelled => [queued]
  | succeeded | failed => [queued, running]

/-- Not two active jobs of one resource. -/
def Exclusive (a b : Job) : Prop :=
  ¬(a.status.active = true ∧ b.status.active = true
    ∧ a.resourceType = b.resourceType ∧ a.resourceId = b.resourceId)

/-- Not two holders of one idempotency key. -/
def KeysDiffer (a b : Job) : Prop :=
  ∀ key, ¬(a.idempotencyKey = some key ∧ b.idempotencyKey = some key)

variable {a b : Job} {status : Status} {jobs' : List Job} {r : Registry}
  {e : Event} {events : List Event}

theorem Exclusive.symm (h : Exclusive a b) : Exclusive b a :=
  fun ⟨hb, ha, ht, hi⟩ => h ⟨ha, hb, ht.symm, hi.symm⟩

theorem KeysDiffer.symm (h : KeysDiffer a b) :
    KeysDiffer b a :=
  fun key ⟨hb, ha⟩ => h key ⟨ha, hb⟩

structure ValidStore (jobs : List Job) : Prop where
  exclusive : jobs.Pairwise Exclusive
  keys : jobs.Pairwise KeysDiffer

-- ====== what changes

/-- One job after a transition: another status, the same job. -/
structure Advances (old new : Job) : Prop where
  id : new.id = old.id
  serverId : new.serverId = old.serverId
  operation : new.operation = old.operation
  payload : new.payload = old.payload
  resourceType : new.resourceType = old.resourceType
  resourceId : new.resourceId = old.resourceId
  key : new.idempotencyKey = old.idempotencyKey
  digest : new.idempotencyDigest = old.idempotencyDigest
  status : new.status ∈ old.status.next

/-- Everything one call can do to the job list. -/
inductive Change (jobs : List Job) : List Job → Prop where
  | kept : Change jobs jobs
  | added (job : Job) (hstatus : job.status = .queued)
      (hkey : ∀ key, job.idempotencyKey = some key →
        ∀ other ∈ jobs, other.hasKey key = false)
      (hfree : ∀ other ∈ jobs,
        other.occupies job.resourceType job.resourceId = false) :
      Change jobs (jobs ++ [job])
  | moved (i : Nat) (old new : Job) (hi : jobs[i]? = some old)
      (h : Advances old new) : Change jobs (jobs.set i new)

variable {job : Job} {jobs : List Job} {i : Nat}

/-- `withOutcome` fills in a result or an error and nothing else. -/
theorem withOutcome_spec {proto : Protocol} {done : Job} {c : Completion}
    (h : job.withOutcome proto status c = .ok done) :
    done = { job with result := done.result, error := done.error } := by
  unfold Job.withOutcome at h
  split at h
  · obtain ⟨r, -, rfl⟩ := Result.map_eq_ok.mp h
    rfl
  · simp only [Except.ok.injEq] at h
    subst h
    rfl

theorem completionStatus?_spec {text : String}
    (h : completionStatus? text = some status) :
    status = .succeeded ∨ status = .failed := by
  unfold completionStatus? at h
  split at h
  · exact .inl (Option.some.inj h).symm
  · split at h
    · exact .inr (Option.some.inj h).symm
    · simp at h

theorem change_enqueue (proto : Protocol) (req : EnqueueRequest)
    (id : Uuid) (now : Instant) (jobs : List Job) :
    Change jobs ((enqueue proto req id now jobs).after jobs) := by
  unfold enqueue
  split
  · exact .kept
  · rename_i operation resourceType _
    unfold enqueueChecked
    split
    · split <;> exact .kept
    · rename_i hnone
      split
      · exact .kept
      · rename_i hfree
        dsimp only
        split
        · exact .kept
        · refine .added _ rfl ?_ ?_
          · intro key hkey
            change req.idempotencyKey = some key at hkey
            rw [hkey, Option.bind_some, locate_eq_none] at hnone
            exact hnone
          · intro other hother
            by_contra hocc
            rw [Bool.not_eq_false] at hocc
            exact hfree (List.any_eq_true.mpr ⟨other, hother, hocc⟩)

theorem change_claimNext (proto : Protocol) (serverId : String)
    (now : Instant) (jobs : List Job) :
    Change jobs ((claimNext proto serverId now jobs).after jobs) := by
  unfold claimNext
  split
  · exact .kept
  · rename_i i job hloc
    have hclaim := accepted_of_locate hloc
    simp only [Job.claimable, Bool.and_eq_true, beq_iff_eq] at hclaim
    refine .moved i job _ (getElem?_of_locate hloc)
      ⟨rfl, rfl, rfl, rfl, rfl, rfl, rfl, rfl, ?_⟩
    rw [hclaim.2]
    simp [Job.claimed, Status.next]

theorem change_complete (proto : Protocol) (c : Completion)
    (now : Instant) (jobs : List Job) :
    Change jobs ((complete proto c now jobs).after jobs) := by
  unfold complete
  split
  · exact .kept
  · rename_i status hstatus
    split
    · exact .kept
    · rename_i i job hloc
      split
      · split <;> exact .kept
      · split
        · exact .kept
        · rename_i hrun
          split
          · exact .kept
          · rename_i done hdone
            rw [withOutcome_spec hdone]
            refine .moved i job _ (getElem?_of_locate hloc)
              ⟨rfl, rfl, rfl, rfl, rfl, rfl, rfl, rfl, ?_⟩
            rw [not_not.mp hrun]
            rcases completionStatus?_spec hstatus with rfl | rfl <;>
              simp [Job.completed, Status.next]

theorem change_cancel (jobId : String) (now : Instant)
    (jobs : List Job) :
    Change jobs ((cancel jobId now jobs).after jobs) := by
  unfold cancel
  split
  · exact .kept
  · rename_i i job hloc
    split
    · exact .kept
    · rename_i hqueued
      refine .moved i job _ (getElem?_of_locate hloc)
        ⟨rfl, rfl, rfl, rfl, rfl, rfl, rfl, rfl, ?_⟩
      rw [not_not.mp hqueued]
      simp [Job.completed, Status.next]

theorem change_effect (proto : Protocol) (c : Call) (jobs : List Job) :
    Change jobs ((c.effect proto jobs).after jobs) := by
  cases c with
  | enqueue req id now => exact change_enqueue proto req id now jobs
  | findIdempotentJob req =>
      rw [Call.effect, Effect.after_ofResult]
      exact .kept
  | claimNext serverId now => exact change_claimNext proto serverId now jobs
  | complete c now => exact change_complete proto c now jobs
  | cancel jobId now => exact change_cancel jobId now jobs

theorem Advances.active {old new : Job} (h : Advances old new)
    (_ : new.status.active = true) : old.status.active = true := by
  have hs := h.status
  cases ho : old.status <;> simp_all [Status.next, Status.active]

theorem ValidStore.change (h : ValidStore jobs) (hc : Change jobs jobs') :
    ValidStore jobs' := by
  cases hc with
  | kept => exact h
  | added job hstatus hkey hfree =>
      refine ⟨pairwise_concat Exclusive.symm h.exclusive ?_,
        pairwise_concat KeysDiffer.symm h.keys ?_⟩
      · rintro other hother ⟨-, hactive, htype, hid⟩
        have hocc := hfree other hother
        simp [Job.occupies, ← htype, ← hid, hactive] at hocc
      · rintro other hother key ⟨hnew, hold⟩
        have hfresh := hkey key hnew other hother
        simp [Job.hasKey, hold] at hfresh
  | moved i old new hi hadv =>
      refine ⟨pairwise_set Exclusive.symm h.exclusive hi ?_,
        pairwise_set KeysDiffer.symm h.keys hi ?_⟩
      · rintro other - hex ⟨hnew, hactive, htype, hid⟩
        exact hex ⟨hadv.active hnew, hactive, hadv.resourceType ▸ htype,
          hadv.resourceId ▸ hid⟩
      · rintro other - hdiff key ⟨hnew, hold⟩
        exact hdiff key ⟨hadv.key ▸ hnew, hold⟩

/-- An entry of the list stays where it is, as it is or one transition
further. -/
theorem Change.entry (hc : Change jobs jobs') (hi : jobs[i]? = some job) :
    ∃ job', jobs'[i]? = some job' ∧ (job' = job ∨ Advances job job') := by
  cases hc with
  | kept => exact ⟨job, hi, .inl rfl⟩
  | added new =>
      refine ⟨job, ?_, .inl rfl⟩
      have hlt := (List.getElem?_eq_some_iff.mp hi).1
      rw [List.getElem?_append_left hlt, hi]
  | moved j old new hj hadv =>
      by_cases hij : j = i
      · subst hij
        obtain rfl : old = job := Option.some.inj (hj.symm.trans hi)
        have hlt := (List.getElem?_eq_some_iff.mp hi).1
        exact ⟨new, List.getElem?_set_self hlt, .inr hadv⟩
      · exact ⟨job, by rw [List.getElem?_set_ne hij, hi], .inl rfl⟩

/-- An entry that was not there before is a queued job. -/
theorem Change.fresh (hc : Change jobs jobs') (hi : jobs[i]? = none)
    (hi' : jobs'[i]? = some job) :
    job.status = .queued := by
  cases hc with
  | kept => rw [hi] at hi'; cases hi'
  | added new hstatus =>
      rw [List.getElem?_append_right (by simpa using hi)] at hi'
      obtain rfl : job = new := by
        have := List.mem_of_getElem? hi'
        rwa [List.mem_singleton] at this
      exact hstatus
  | moved j old new hj hadv =>
      have hle : jobs.length ≤ i := List.getElem?_eq_none_iff.mp hi
      have hlt := (List.getElem?_eq_some_iff.mp hi').1
      rw [List.length_set] at hlt
      omega

-- ====== keyed calls

/-- The idempotency key a call is made with. -/
def Call.key : Call → Option String
  | enqueue req _ _ => req.idempotencyKey
  | findIdempotentJob req => req.idempotencyKey
  | _ => none

/-- The digest of the work a keyed call asks for. -/
def Call.digest (proto : Protocol) : Call → Option String
  | enqueue req _ _ => requestDigest proto req
  | findIdempotentJob req => requestDigest proto req
  | _ => none

variable {key : String}

theorem ValidStore.locate_key (h : ValidStore jobs)
    (hi : jobs[i]? = some job) (hkey : job.idempotencyKey = some key) :
    locate (Job.hasKey key) jobs = some (i, job) := by
  obtain ⟨j, other, hloc⟩ :=
    exists_locate (p := Job.hasKey key) (List.mem_of_getElem? hi)
      (by simp [Job.hasKey, hkey])
  have hj := getElem?_of_locate hloc
  have hother : other.idempotencyKey = some key := by
    simpa [Job.hasKey] using accepted_of_locate hloc
  by_cases hij : i = j
  · subst hij
    obtain rfl : job = other := Option.some.inj (hi.symm.trans hj)
    exact hloc
  · exact absurd ⟨hkey, hother⟩
      (related_of_pairwise KeysDiffer.symm h.keys hij hi hj key)

/-- A host inspection of one server, as it stands in the store. -/
def sampleJob (id : Uuid) (status : Status) (key : Option String) : Job :=
  { id
    serverId := "server-1"
    type := "server.services"
    operation := .systemServicesInspect
    payload := .obj []
    resourceType := .system
    resourceId := "server-1"
    status
    createdAt := ⟨0⟩
    startedAt := none
    finishedAt := none
    attempts := 0
    result := none
    error := none
    idempotencyKey := key
    idempotencyDigest := key }

/-- A protocol that takes every payload and every result. -/
def sampleProtocol : Protocol :=
  { envelopeError := fun _ _ _ => none
    sanitizeResult := fun _ result => .ok result
    safeLocalOperationError := fun error => error
    idempotencyDigest := fun work => work.serverId }

def sampleId : Uuid := ⟨"00000000-0000-4000-8000-000000000001", by decide⟩

end Yunpanel.Jobs
