/-
What the durable registry's calls show, and the inner call they make.

Every reply shows views of jobs; `effectCases` says that whatever a call's
synchronous part comes to, it shows jobs of the list it leaves, and
`wp_callRegistry` is the specification every mutation is proved from.
-/
import Yunpanel.Jobs.Proofs.DurableSpec

namespace Yunpanel.Jobs.Durable

open Lib

-- ====== what is shown

/-- The jobs a reply shows. -/
def replyShows : Reply → List PublicJob
  | .enqueued job _ => [job]
  | .claim job _ => [job]
  | .job job => [job]
  | .nothing => []

/-- A view of a job of the list. -/
def Shown (jobs : List Job) (view : PublicJob) : Prop :=
  ∃ job ∈ jobs, publicJob job = view

/-- The job an identity names has this status. -/
def HasStatus (jobs : List Job) (identity : Identity) (status : Status) :
    Prop :=
  ∃ job, findJob jobs identity.jobId = some job
    ∧ job.serverId = identity.serverId ∧ job.status = status

/-- Whatever a reply says about jobs is so in the list. -/
def DurableReply.Reports (jobs : List Job) : DurableReply → Prop
  | .done => True
  | .registry reply _ => ∀ v ∈ replyShows reply, Shown jobs v
  | .begun identity status _ => HasStatus jobs identity status
  | .acknowledged identity status _ => HasStatus jobs identity status
  | .jobs views => ∀ v ∈ views, Shown jobs v
  | .job view => ∀ v ∈ view, Shown jobs v

variable {jobs : List Job} {i : Nat} {job new : Job} {proto : Protocol}

theorem shown_getD (h : i < jobs.length) :
    Shown jobs (publicJob (jobs[i]?.getD job)) := by
  rw [List.getElem?_eq_getElem h]
  exact ⟨jobs[i], List.getElem_mem h, rfl⟩

/-- The writing calls: what they leave is shown, and only a claim can still
reject. -/
structure WritesShown (s : List Job) (r : List Job → Except Failure Reply) :
    Prop where
  shown : ∀ a, r s = .ok a → ∀ v ∈ replyShows a, Shown s v
  error : ∀ e, r s = .error e → ∃ message, e = .protocol message

/-- What a call's synchronous part can be: never half done, and showing
only what is in the list. -/
inductive EffectCases (jobs : List Job) : JobEffect → Prop where
  | refused (e : Failure) : EffectCases jobs (.refused e)
  | replied (a : Reply) (h : ∀ v ∈ replyShows a, Shown jobs v) :
      EffectCases jobs (.replied a)
  | written (s : List Job) (r : List Job → Except Failure Reply)
      (h : WritesShown s r) : EffectCases jobs (.written s r)

theorem writesShown_enqueue (jobs : List Job) (job : Job) :
    WritesShown (jobs ++ [job]) (enqueueResult jobs.length job) := by
  refine ⟨?_, fun e he => by simp [enqueueResult] at he⟩
  intro a ha v hv
  simp only [enqueueResult, Except.ok.injEq] at ha
  subst ha
  rw [replyShows, List.mem_singleton] at hv
  exact hv ▸ shown_getD (by simp)

theorem writesShown_job (h : jobs[i]? = some job) :
    WritesShown (jobs.set i new) (jobResult i new) := by
  have hlt := (List.getElem?_eq_some_iff.mp h).1
  refine ⟨?_, fun e he => by simp [jobResult] at he⟩
  intro a ha v hv
  simp only [jobResult, Except.ok.injEq] at ha
  subst ha
  rw [replyShows, List.mem_singleton] at hv
  exact hv ▸ shown_getD (by simpa using hlt)

theorem writesShown_claim (h : jobs[i]? = some job) :
    WritesShown (jobs.set i new) (claimResult proto i new) := by
  have hlt := (List.getElem?_eq_some_iff.mp h).1
  constructor
  · intro a ha v hv
    unfold claimResult at ha
    dsimp only at ha
    split at ha
    · cases ha
    · simp only [Except.ok.injEq] at ha
      subst ha
      rw [replyShows, List.mem_singleton] at hv
      exact hv ▸ shown_getD (by simpa using hlt)
  · intro e he
    unfold claimResult at he
    dsimp only at he
    split at he
    · rename_i message _
      simp only [Except.error.injEq] at he
      exact ⟨message, he.symm⟩
    · cases he

theorem effectCases (proto : Protocol) (c : Call) (jobs : List Job) :
    EffectCases jobs (c.effect proto jobs) := by
  have hjob : ∀ {p : Job → Bool} {i : Nat} {job : Job},
      locate p jobs = some (i, job) →
        ∀ v ∈ replyShows (.job (publicJob job)), Shown jobs v := by
    intro p i job h v hv
    rw [replyShows, List.mem_singleton] at hv
    exact hv ▸ ⟨job, mem_of_locate h, rfl⟩
  cases c with
  | enqueue req id now =>
      simp only [Call.effect, enqueue]
      split
      · exact .refused _
      · unfold enqueueChecked
        split
        · rename_i existing hexisting
          split
          · exact .refused _
          · refine .replied _ ?_
            obtain ⟨key, -, hloc⟩ := Option.bind_eq_some_iff.mp hexisting
            intro v hv
            rw [replyShows, List.mem_singleton] at hv
            exact hv ▸ ⟨_, mem_of_locate hloc, rfl⟩
        · split
          · exact .refused _
          · dsimp only
            split
            · exact .refused _
            · exact .written _ _ (writesShown_enqueue jobs _)
  | findIdempotentJob req =>
      simp only [Call.effect, findIdempotentJob]
      split
      · exact .refused _
      · split
        · exact .replied _ (by simp [replyShows])
        · rename_i hloc
          split
          · exact .refused _
          · exact .replied _ (hjob hloc)
  | claimNext serverId now =>
      simp only [Call.effect, claimNext]
      split
      · exact .replied _ (by simp [replyShows])
      · rename_i hloc
        exact .written _ _ (writesShown_claim (getElem?_of_locate hloc))
  | complete c now =>
      simp only [Call.effect, complete]
      split
      · exact .refused _
      · split
        · exact .refused _
        · rename_i hloc
          split
          · split
            · exact .replied _ (hjob hloc)
            · exact .refused _
          · split
            · exact .refused _
            · split
              · exact .refused _
              · exact .written _ _
                  (writesShown_job (getElem?_of_locate hloc))
  | cancel jobId now =>
      simp only [Call.effect, cancel]
      split
      · exact .refused _
      · rename_i hloc
        split
        · exact .refused _
        · exact .written _ _ (writesShown_job (getElem?_of_locate hloc))

-- ====== calling it

/-- The world once the inner registry's write is through. -/
def World.rewritten (w : World) (s : List Job) : World :=
  { w.putDisk { w.disk with jobs := s } with jobs := s }

theorem wp_callRegistry {c : Call}
    {Q : Except Rejection Reply → World → Prop} {w : World}
    (hrefused : ∀ e, c.effect proto w.jobs = .refused e →
      Q (.error (.registry e)) w)
    (hreplied : ∀ a, c.effect proto w.jobs = .replied a →
      (∀ v ∈ replyShows a, Shown w.jobs v) → Q (.ok a) w)
    (hwritten : ∀ s r, c.effect proto w.jobs = .written s r →
      WritesShown s r → w.faults.headD false = false → ∀ faults,
      (∀ a, r s = .ok a → Q (.ok a) { w.rewritten s with faults })
      ∧ (∀ e, r s = .error e →
          Q (.error (.registry e)) { w.rewritten s with faults }))
    (hlost : ∀ s r, c.effect proto w.jobs = .written s r → ∀ faults,
      Q (.error (.registry .store)) { w with jobs := s, faults }) :
    Exec.wp (callRegistry proto c) Q w := by
  rw [callRegistry, Exec.wp_bind, Exec.wp_read]
  dsimp only
  have hcases := effectCases proto c w.jobs
  cases he : c.effect proto w.jobs with
  | refused e => exact hrefused e he
  | spoiled s e => rw [he] at hcases; cases hcases
  | replied a =>
      rw [he] at hcases
      cases hcases with
      | replied _ h => exact hreplied a he h
  | written s r =>
      rw [he] at hcases
      cases hcases with
      | written _ _ h =>
          dsimp only
          rw [Exec.wp_bind, Exec.wp_modify]
          dsimp only
          rw [Exec.wp_bind]
          refine wp_persistJobs ?_ (fun faults => hlost s r he faults)
          intro hfault faults
          dsimp only
          cases hr : r s with
          | ok a => exact (hwritten s r he h hfault faults).1 a hr
          | error e => exact (hwritten s r he h hfault faults).2 e hr

end Yunpanel.Jobs.Durable
