/-
When a call of the cron service hands back a job that still counts.

# The condition

The job registry refuses a second active job of a task, and answers a key
it has with the job it has, whatever became of that. A call that has saved
a revision and is then refused leaves the revision without a job, and a
removal that failed once is handed back for as long as the revision stays:
`removal_stuck` is a run that deletes a task twice. `Clear` says of one
call that neither happens, and `cron_calls_answered_iff` that nothing else
can go wrong.

# The proof

`enqueue_cases` lists what enqueueing a job for a task can come to. That a
job found under a key is of the revision asked for is `key_inj` with the
invariant `Keyed`: every job got its key from the task it is for.
-/
import Yunpanel.Cron.Service
import Yunpanel.Jobs.Proofs.Lifecycle

namespace Yunpanel.Cron

open Json Lib Lib.Result
open Jobs (EnqueueRequest PublicJob Job publicJob)

variable (c : Context)

-- ====== purpose

/-- The job is for the revision the task has. -/
structure IsFor (task : Task) (job : PublicJob) : Prop where
  resource : job.resourceId = task.id.text
  revision : job.payload.object?.map (·.get "expectedRevision")
    = some task.revision.json

/-- The job is still to run, runs, or has succeeded. -/
def Counts (status : Jobs.Status) : Prop :=
  status ≠ .failed ∧ status ≠ .cancelled

instance (status : Jobs.Status) : Decidable (Counts status) :=
  inferInstanceAs (Decidable (_ ∧ _))

/-- A call that returns hands back a job of the task's current revision
that counts; one that rejects has changed no task. -/
def Answered (s : Panel) (move : Move) : Prop :=
  match (machine c).answer s move with
  | .returned task job =>
      task ∈ ((machine c).next s move).tasks ∧ IsFor task job
        ∧ Counts job.status
  | .rejected _ => ((machine c).next s move).tasks = s.tasks
  | .done => True

-- ====== condition

/-- The work a job of a task is asked for, as the registry knows it
again. -/
def Context.digest (kind : Kind) (task : Task) : Option String :=
  Jobs.requestDigest (withCron c.proto) (c.request kind task)

/-- A job of the revision will be there: the registry has one that counts,
or takes a new one. -/
def Applicable (env : Env) (kind : Kind) (task : Task) (jobs : JobStore) :
    Prop :=
  match jobs.mem.find? (Job.hasKey (c.key kind task)) with
  | some job => job.idempotencyDigest = c.digest kind task
      ∧ Counts job.status
  | none => (∀ job ∈ jobs.mem, job.occupies .websiteCron task.id.text = false)
      ∧ jobs.broken = false ∧ env.jobStored = true

/-- No job of the revision has failed or was cancelled. -/
def Unspent (kind : Kind) (task : Task) (jobs : JobStore) : Prop :=
  ∀ job, jobs.mem.find? (Job.hasKey (c.key kind task)) = some job →
    job.idempotencyDigest = c.digest kind task → Counts job.status

/-- A call that saves a task finds the job registry ready for the job; a
removal of the revision has not failed before. -/
def Clear (s : Panel) : Move → Prop
  | .createCron env input => ∀ task tasks,
      createSaved env input s.tasks = .ok (task, tasks) →
        Applicable c env .apply task s.jobs
  | .updateCron env taskId input => ∀ task tasks,
      updateSaved env taskId input s.tasks = .ok (task, tasks) →
        Applicable c env .apply task s.jobs
  | .deleteCron env taskId expectedRevision => ∀ task,
      deleteChecked env taskId expectedRevision s.tasks = .ok task →
        Unspent c .remove task s.jobs
  | _ => True

-- ====== keys

theorem eq_of_append_colon {as bs xs ys : List Char} (ha : ':' ∉ as)
    (hb : ':' ∉ bs) (h : as ++ ':' :: xs = bs ++ ':' :: ys) :
    as = bs ∧ xs = ys := by
  have htake : ∀ cs zs : List Char, ':' ∉ cs →
      (cs ++ ':' :: zs).takeWhile (· != ':') = cs := by
    intro cs zs hcs
    rw [List.takeWhile_append_of_pos]
    · simp
    · intro d hd
      rw [bne_iff_ne]
      rintro rfl
      exact hcs hd
  have hsame : as = bs := by
    rw [← htake as xs ha, h, htake bs ys hb]
  subst hsame
  exact ⟨rfl, (List.cons.inj (List.append_cancel_left h)).2⟩

theorem colon_notMem_uuid (id : Uuid) : ':' ∉ id.text.toList := by
  intro hmem
  rcases id.mem_text hmem with h | h
  · revert h
    decide
  · revert h
    decide

theorem colon_notMem_toDigits (n : Nat) : ':' ∉ Nat.toDigits 10 n := by
  intro hmem
  have hdigit := Nat.isDigit_of_mem_toDigits (by omega) (by omega) hmem
  revert hdigit
  decide

theorem colon_notMem_operation (kind : Kind) :
    ':' ∉ kind.operation.text.toList := by
  cases kind <;> decide

variable {task : Task} {env : Env}

variable {kind : Kind} {r : Panel × Answer} {next : List Task}
  {taskId : Json}

/-- A key names the operation, the task and the revision. -/
theorem key_inj {kind' : Kind} {task' : Task}
    (h : c.key kind task = c.key kind' task') :
    task.id = task'.id ∧ task.revision = task'.revision := by
  have hchars := congrArg String.toList h
  unfold Context.key at hchars
  rw [String.toList_ofList, String.toList_ofList] at hchars
  obtain ⟨-, hrest⟩ := eq_of_append_colon (colon_notMem_operation kind)
    (colon_notMem_operation kind') hchars
  obtain ⟨hid, hrest⟩ := eq_of_append_colon (colon_notMem_uuid task.id)
    (colon_notMem_uuid task'.id) hrest
  obtain ⟨hdigits, -⟩ := eq_of_append_colon (colon_notMem_toDigits _)
    (colon_notMem_toDigits _) hrest
  refine ⟨Uuid.ext_text (String.toList_inj.mp hid), Ranged.ext_val ?_⟩
  have hnat : task.revision.val.toNat = task'.revision.val.toNat := by
    rw [← Nat.ofDigitChars_ten_toDigits (n := task.revision.val.toNat),
      hdigits, Nat.ofDigitChars_ten_toDigits]
  have hpos := task.revision.ok.1
  have hpos' := task'.revision.ok.1
  omega

-- ====== requests

theorem isKeyChar_of_isDigit {d : Char} (h : d.isDigit = true) :
    Text.isKeyChar d = true := by
  have hdigit : Text.isDigit d = true := by
    simp only [Char.isDigit, Bool.and_eq_true, decide_eq_true_eq] at h
    simp only [Text.isDigit, Bool.and_eq_true, decide_eq_true_eq]
    exact h
  simp [Text.isKeyChar, hdigit]

/-- The parts of a key fit its pattern. -/
theorem validIdempotencyKey_key (kind : Kind) (task : Task) :
    Jobs.validIdempotencyKey (c.key kind task) = true := by
  have hop : kind.operation.text.toList.all Text.isKeyChar = true
      ∧ 10 ≤ kind.operation.text.toList.length
      ∧ kind.operation.text.toList.length ≤ 11 := by
    cases kind <;> decide
  have hid : task.id.text.toList.all Text.isKeyChar = true := by
    rw [List.all_eq_true]
    intro d hd
    rcases task.id.mem_text hd with h | rfl
    · exact Text.isKeyChar_of_isHex h
    · decide
  have hdigits : (Nat.toDigits 10 task.revision.val.toNat).all Text.isKeyChar
      = true := by
    rw [List.all_eq_true]
    intro d hd
    exact isKeyChar_of_isDigit
      (Nat.isDigit_of_mem_toDigits (by omega) (by omega) hd)
  have hlen : (Nat.toDigits 10 task.revision.val.toNat).length ≤ 16 := by
    have hle := task.revision.ok.2
    exact (Nat.length_toDigits_le_iff (by omega) (by omega)).mpr (by omega)
  have hsha := (c.desiredStateSha256 task).ok
  simp only [Text.isSha256, Text.inClass, Bool.and_eq_true,
    decide_eq_true_eq] at hsha
  have hhash : (c.desiredStateSha256 task).text.toList.all Text.isKeyChar
      = true := by
    rw [List.all_eq_true]
    intro d hd
    exact Text.isKeyChar_of_isHex (List.all_eq_true.mp hsha.1.1 d hd)
  have hidlen := task.id.text_length
  have hcolon : Text.isKeyChar ':' = true := by decide
  simp only [Jobs.validIdempotencyKey, Text.inClass, Context.key,
    String.toList_ofList, List.length_append, List.length_cons,
    List.all_append, List.all_cons, hop.1, hid, hdigits, hhash, hcolon,
    Bool.and_true, Bool.and_eq_true, decide_eq_true_eq, true_and]
  omega

/-- Nothing is wrong with a request of the service. -/
theorem checkRequest_request (kind : Kind) (task : Task) :
    Jobs.checkRequest (c.request kind task)
      = .ok (kind.operation, .websiteCron) := by
  have hserver := task.serverId.text_ne_empty
  have hresource := task.id.text_ne_empty
  have hkey := validIdempotencyKey_key c kind task
  have hpayload : (c.payload task).isObject = true := rfl
  have htype : Text.length kind.operation.text ≠ 0
      ∧ Text.length kind.operation.text ≤ 80 := by
    cases kind <;> decide
  have hop : Jobs.Operation.ofText? kind.operation.text
      = some kind.operation := by
    cases kind <;> decide
  have hres : Jobs.ResourceType.ofText? "website_cron"
      = some .websiteCron := by decide
  simp [Jobs.checkRequest, Context.request, hserver, hresource, hkey,
    hpayload, htype, hop, hres]

/-- Nothing is wrong with its payload. -/
theorem cronEnvelopeError_payload (kind : Kind) (task : Task) :
    cronEnvelopeError kind.operation (c.payload task) = none := by
  have huuid : ∀ id : Uuid, isCanonicalUuid id.json = true := by
    intro id
    simp [isCanonicalUuid]
  have hsha := (c.desiredStateSha256 task).ok
  have huser := task.unixUser.ok
  simp [cronEnvelopeError, Context.payload, validateCronMutation, huuid,
    Matching.json, hsha, huser]

-- ====== enqueue

/-- The job a request of the service becomes. -/
def Context.newJob (env : Env) (kind : Kind) (task : Task) : Job :=
  Jobs.newJob (withCron c.proto) (c.request kind task) env.jobId env.jobNow
    kind.operation .websiteCron

/-- What the job registry makes of a request of the service. -/
theorem enqueue_eq (env : Env) (kind : Kind) (task : Task)
    (jobs : List Job) :
    Jobs.enqueue (withCron c.proto) (c.request kind task) env.jobId
        env.jobNow jobs
      = match locate (Job.hasKey (c.key kind task)) jobs with
        | some (_, existing) =>
            if existing.idempotencyDigest ≠ c.digest kind task then
              .refused Jobs.jobIdempotencyConflict
            else .replied (.enqueued (publicJob existing) false)
        | none =>
            if jobs.any (Job.occupies .websiteCron task.id.text) then
              .refused (Jobs.refuse "website_cron_job_conflict"
                "A website_cron operation is already queued or running" 409)
            else .written (jobs ++ [c.newJob env kind task])
              (Jobs.enqueueResult jobs.length (c.newJob env kind task)) := by
  have henvelope : (withCron c.proto).createOperationEnvelope env.jobId
      kind.operation (c.newJob env kind task).payload
        = .ok ⟨env.jobId, kind.operation, (c.newJob env kind task).payload⟩ := by
    have hnone := cronEnvelopeError_payload c kind task
    unfold Jobs.Protocol.createOperationEnvelope
    cases kind <;>
      · simp only [Kind.operation] at hnone
        simp [withCron, Context.newJob, Jobs.newJob, Jobs.effectivePayload,
          Kind.operation, Jobs.Operation.deploys, Context.request, hnone]
  unfold Jobs.enqueue
  rw [checkRequest_request]
  dsimp only
  unfold Jobs.enqueueChecked
  rw [show (c.request kind task).idempotencyKey = some (c.key kind task)
    from rfl, Option.bind_some]
  cases locate (Job.hasKey (c.key kind task)) jobs with
  | some found => rfl
  | none =>
      dsimp only
      rw [show (c.request kind task).resourceId = task.id.text from rfl]
      split
      · rfl
      · rw [← Context.newJob, henvelope]

/-- Everything enqueueing a job for a task can come to. -/
inductive Enqueued (env : Env) (kind : Kind) (task : Task) (s : Panel) :
    Panel × Answer → Prop where
  | conflicting (job : Job) (e : Failure)
      (hfound : s.jobs.mem.find? (Job.hasKey (c.key kind task)) = some job)
      (hdigest : job.idempotencyDigest ≠ c.digest kind task) :
      Enqueued env kind task s (s, .rejected e)
  | repeated (job : Job)
      (hfound : s.jobs.mem.find? (Job.hasKey (c.key kind task)) = some job)
      (hdigest : job.idempotencyDigest = c.digest kind task) :
      Enqueued env kind task s (s, .returned task (publicJob job))
  | occupied (job : Job) (e : Failure)
      (hnone : s.jobs.mem.find? (Job.hasKey (c.key kind task)) = none)
      (hmem : job ∈ s.jobs.mem)
      (hocc : job.occupies .websiteCron task.id.text = true) :
      Enqueued env kind task s (s, .rejected e)
  | unwritten (t : Panel) (e : Failure)
      (hnone : s.jobs.mem.find? (Job.hasKey (c.key kind task)) = none)
      (hlost : s.jobs.broken = true ∨ env.jobStored = false)
      (htasks : t.tasks = s.tasks) :
      Enqueued env kind task s (t, .rejected e)
  | added (t : Panel)
      (hnone : s.jobs.mem.find? (Job.hasKey (c.key kind task)) = none)
      (hfree : ∀ job ∈ s.jobs.mem,
        job.occupies .websiteCron task.id.text = false)
      (hwritten : s.jobs.broken = false ∧ env.jobStored = true)
      (htasks : t.tasks = s.tasks) :
      Enqueued env kind task s
        (t, .returned task (publicJob (c.newJob env kind task)))

theorem enqueue_cases (env : Env) (kind : Kind) (task : Task) {s : Panel}
    (hqueue : s.jobs.queue = []) :
    Enqueued c env kind task s (s.enqueue c env kind task) := by
  unfold Panel.enqueue
  rw [Store.perform_of_drained _ _ hqueue, enqueue_eq]
  have hfind := locate_map_snd (Job.hasKey (c.key kind task)) s.jobs.mem
  cases hlocate : locate (Job.hasKey (c.key kind task)) s.jobs.mem with
  | some found =>
      rw [hlocate] at hfind
      dsimp only
      by_cases hdigest : found.2.idempotencyDigest = c.digest kind task
      · rw [if_neg (not_not.mpr hdigest)]
        exact .repeated found.2 hfind.symm hdigest
      · rw [if_pos hdigest]
        exact .conflicting found.2 _ hfind.symm hdigest
  | none =>
      rw [hlocate] at hfind
      dsimp only
      by_cases hocc : s.jobs.mem.any (Job.occupies .websiteCron task.id.text)
        = true
      · rw [if_pos hocc]
        obtain ⟨job, hmem, hjob⟩ := List.any_eq_true.mp hocc
        exact .occupied job _ hfind.symm hmem hjob
      · rw [if_neg hocc]
        have hfree : ∀ job ∈ s.jobs.mem,
            job.occupies .websiteCron task.id.text = false := by
          intro job hmem
          rw [← Bool.not_eq_true]
          exact fun hjob => hocc (List.any_eq_true.mpr ⟨job, hmem, hjob⟩)
        by_cases hlost : (s.jobs.broken || !env.jobStored) = true
        · dsimp only
          rw [if_pos hlost]
          exact .unwritten _ _ hfind.symm (by simpa using hlost) rfl
        · dsimp only
          rw [if_neg hlost]
          have hnew : ((s.jobs.mem ++ [c.newJob env kind task])[
              s.jobs.mem.length]?).getD (c.newJob env kind task)
                = c.newJob env kind task := by
            rw [List.getElem?_concat_length]
            rfl
          rw [show Jobs.enqueueResult s.jobs.mem.length
              (c.newJob env kind task) (s.jobs.mem ++ [c.newJob env kind task])
              = .ok (.enqueued (publicJob (c.newJob env kind task)) true) by
            unfold Jobs.enqueueResult
            rw [hnew]]
          exact .added _ hfind.symm hfree (by simpa using hlost) rfl

-- ====== invariant

/-- The job got its key from the task it is for. -/
def Keyed (job : Job) : Prop :=
  ∃ kind task, job.idempotencyKey = some (c.key kind task)
    ∧ job.resourceId = task.id.text ∧ job.payload = c.payload task

/-- What holds of the panel between calls. -/
structure Sound (s : Panel) : Prop where
  queue : s.jobs.queue = []
  keyed : ∀ job ∈ s.jobs.mem, Keyed c job

theorem sound_fresh : Sound c fresh :=
  ⟨rfl, fun _ h => by cases h⟩

theorem keyed_newJob (env : Env) (kind : Kind) (task : Task) :
    Keyed c (c.newJob env kind task) := by
  refine ⟨kind, task, rfl, rfl, ?_⟩
  cases kind <;> rfl

/-- A job found under the key of a task is for the task. -/
theorem isFor_of_hasKey {job : Job} (hkeyed : Keyed c job)
    (hkey : job.hasKey (c.key kind task) = true) :
    IsFor task (publicJob job) := by
  obtain ⟨kind', task', hown, hresource, hpayload⟩ := hkeyed
  have hsame : c.key kind' task' = c.key kind task := by
    have hkey : (job.idempotencyKey == some (c.key kind task)) = true := hkey
    rw [hown] at hkey
    exact Option.some.inj (beq_iff_eq.mp hkey)
  obtain ⟨hid, hrevision⟩ := key_inj c hsame
  refine ⟨hresource.trans (congrArg Uuid.text hid), ?_⟩
  show job.payload.object?.map _ = _
  rw [hpayload, ← hrevision]
  simp [Context.payload, object?]

-- ====== calls

/-- A call that has saved a task. -/
theorem answered_saved {s : Panel} {tasks : List Task} (hs : Sound c s)
    (hmem : task ∈ tasks) (hne : tasks ≠ s.tasks)
    (hr : Enqueued c env .apply task { s with tasks } r) :
    (match r.2 with
      | .returned task job => task ∈ r.1.tasks ∧ IsFor task job
          ∧ Counts job.status
      | .rejected _ => r.1.tasks = s.tasks
      | .done => True)
      ↔ Applicable c env .apply task s.jobs := by
  unfold Applicable
  cases hr with
  | conflicting job e hfound hdigest =>
      have hfound : s.jobs.mem.find? _ = some job := hfound
      rw [hfound]
      exact ⟨fun h => absurd h hne, fun h => absurd h.1 hdigest⟩
  | repeated job hfound hdigest =>
      have hfound : s.jobs.mem.find? _ = some job := hfound
      rw [hfound]
      have hfor := isFor_of_hasKey c
        (hs.keyed job (List.mem_of_find?_eq_some hfound))
        (List.find?_some hfound)
      exact ⟨fun h => ⟨hdigest, h.2.2⟩, fun h => ⟨hmem, hfor, h.2⟩⟩
  | occupied job e hnone hjob hocc =>
      have hnone : s.jobs.mem.find? _ = none := hnone
      rw [hnone]
      refine ⟨fun h => absurd h hne, fun h => ?_⟩
      rw [h.1 job hjob] at hocc
      cases hocc
  | unwritten t e hnone hlost htasks =>
      have hnone : s.jobs.mem.find? _ = none := hnone
      have hlost : s.jobs.broken = true ∨ env.jobStored = false := hlost
      rw [hnone]
      refine ⟨fun h => absurd (htasks.symm.trans h) hne, fun h => ?_⟩
      rcases hlost with hlost | hlost
      · rw [h.2.1] at hlost
        cases hlost
      · rw [h.2.2] at hlost
        cases hlost
  | added t hnone hfree hwritten htasks =>
      have hnone : s.jobs.mem.find? _ = none := hnone
      rw [hnone]
      have hfor : IsFor task (publicJob (c.newJob env .apply task)) := by
        refine ⟨rfl, ?_⟩
        show ((c.payload task).object?.map _) = _
        simp [Context.payload, object?]
      refine ⟨fun _ => ⟨hfree, hwritten⟩, fun _ => ⟨?_, hfor, ?_⟩⟩
      · rw [htasks]
        exact hmem
      · show Counts .queued
        decide

/-- A call that asks for a removal. -/
theorem answered_removal {s : Panel} (hs : Sound c s)
    (hmem : task ∈ s.tasks) (hr : Enqueued c env .remove task s r) :
    (match r.2 with
      | .returned task job => task ∈ r.1.tasks ∧ IsFor task job
          ∧ Counts job.status
      | .rejected _ => r.1.tasks = s.tasks
      | .done => True)
      ↔ Unspent c .remove task s.jobs := by
  unfold Unspent
  cases hr with
  | conflicting job e hfound hdigest =>
      rw [hfound]
      refine ⟨fun _ other h hsame => ?_, fun _ => rfl⟩
      obtain rfl := Option.some.inj h
      exact absurd hsame hdigest
  | repeated job hfound hdigest =>
      rw [hfound]
      have hfor := isFor_of_hasKey c
        (hs.keyed job (List.mem_of_find?_eq_some hfound))
        (List.find?_some hfound)
      refine ⟨fun h other hother _ => ?_,
        fun h => ⟨hmem, hfor, h job rfl hdigest⟩⟩
      obtain rfl := Option.some.inj hother
      exact h.2.2
  | occupied job e hnone hjob hocc =>
      rw [hnone]
      exact ⟨fun _ _ h => (nomatch h), fun _ => rfl⟩
  | unwritten t e hnone hlost htasks =>
      rw [hnone]
      exact ⟨fun _ _ h => (nomatch h), fun _ => htasks⟩
  | added t hnone hfree hwritten htasks =>
      rw [hnone]
      have hfor : IsFor task (publicJob (c.newJob env .remove task)) := by
        refine ⟨rfl, ?_⟩
        show ((c.payload task).object?.map _) = _
        simp [Context.payload, object?]
      refine ⟨fun _ _ h => (nomatch h), fun _ => ⟨?_, hfor, ?_⟩⟩
      · rw [htasks]
        exact hmem
      · show Counts .queued
        decide

-- ====== changes

/-- A created task is one more. -/
theorem createSaved_eq_ok {input : CreateInput} {tasks : List Task}
    (h : createSaved env input tasks = .ok (task, next)) :
    task ∈ next ∧ next ≠ tasks := by
  unfold createSaved createTask at h
  simp only [bind_eq_ok, pure_eq, Except.ok.injEq] at h
  obtain ⟨-, -, saved, ⟨-, -, -, -, -, -, -, -, -, -, -, -, -, -, -, -,
    created, -, -, -, rfl⟩, -, -, heq⟩ := h
  obtain ⟨rfl, rfl⟩ := Prod.mk.inj heq
  refine ⟨?_, fun hsame => ?_⟩
  · unfold sortTasks
    rw [List.mem_insertionSort]
    exact List.mem_append_right _ (List.mem_singleton_self _)
  · have hlen := congrArg List.length hsame
    unfold sortTasks at hlen
    rw [List.length_insertionSort, List.length_append,
      List.length_singleton] at hlen
    omega

theorem normalizePersisted_revision {draft : Draft}
    (h : normalizePersisted draft = .ok task) :
    task.revision.val = draft.revision := by
  unfold normalizePersisted at h
  simp only [bind_eq_ok, demand_eq_ok, pure_eq, Except.ok.injEq] at h
  obtain ⟨revision, hread, -, -, -, -, -, -, -, -, -, -, -, -, rfl⟩ := h
  have hread : (if h : 1 ≤ draft.revision ∧ draft.revision ≤ 9007199254740991
      then some (⟨draft.revision, h⟩ : Revision) else none)
      = some revision := hread
  split_ifs at hread
  exact (congrArg Ranged.val (Option.some.inj hread)).symm

/-- An updated task has another revision. -/
theorem updateSaved_eq_ok {input : UpdateInput} {tasks : List Task}
    (h : updateSaved env taskId input tasks = .ok (task, next)) :
    task ∈ next ∧ next ≠ tasks := by
  unfold updateSaved updateTask at h
  simp only [bind_eq_ok, pure_eq, Except.ok.injEq] at h
  obtain ⟨-, -, saved, ⟨id, -, expected, -, enabled, -, -, -,
    ⟨i, current⟩, hcurrent, name, -, schedule, -, command, -, now, -,
    updated, hupdated, rfl⟩, -, -, heq⟩ := h
  obtain ⟨rfl, rfl⟩ := Prod.mk.inj heq
  unfold currentTask at hcurrent
  simp only [bind_eq_ok, demand_eq_ok, pure_eq, Except.ok.injEq] at hcurrent
  obtain ⟨found, hlocate, -, -, -, -, -, -, heq⟩ := hcurrent
  obtain rfl : found = (i, current) := heq
  have hi := getElem?_of_locate hlocate
  have hlt := (List.getElem?_eq_some_iff.mp hi).1
  refine ⟨mem_set_self hi, fun hsame => ?_⟩
  have hself := List.getElem?_set_self (a := updated) hlt
  rw [hsame, hi] at hself
  have hrevision := normalizePersisted_revision hupdated
  rw [← Option.some.inj hself] at hrevision
  have hrevision : current.revision.val = current.revision.val + 1 := hrevision
  omega

/-- A removal is of a task there is. -/
theorem deleteChecked_eq_ok {expectedRevision : Json} {tasks : List Task}
    (h : deleteChecked env taskId expectedRevision tasks = .ok task) :
    task ∈ tasks := by
  unfold deleteChecked getCron getTask at h
  simp only [bind_eq_ok, demand_eq_ok, pure_eq, Except.ok.injEq] at h
  obtain ⟨got, ⟨found, ⟨id, -, hfind⟩, again, hagain, -, -, rfl⟩, -, -, -, -,
    rfl⟩ := h
  rw [← hfind] at hagain
  exact List.mem_of_find?_eq_some hagain

-- ====== runs

/-- Jobs that come along are no more than there were. -/
theorem length_progress (proto : Jobs.Protocol) (p : Progress)
    (jobs : List Job) :
    ((p.call.effect proto jobs).after jobs).length = jobs.length := by
  cases p with
  | claimNext serverId now =>
      show ((Jobs.claimNext proto serverId now jobs).after jobs).length = _
      unfold Jobs.claimNext
      split
      · rfl
      · exact List.length_set
  | complete completion now =>
      show ((Jobs.complete proto completion now jobs).after jobs).length = _
      unfold Jobs.complete
      split
      · rfl
      · split
        · rfl
        · split
          · split <;> rfl
          · split
            · rfl
            · split
              · rfl
              · exact List.length_set
  | cancel jobId now =>
      show ((Jobs.cancel jobId now jobs).after jobs).length = _
      unfold Jobs.cancel
      split
      · rfl
      · split
        · rfl
        · exact List.length_set

theorem Keyed.advances {old new : Job} (h : Keyed c old)
    (hadvance : Jobs.Advances old new) : Keyed c new := by
  obtain ⟨kind, task, hkey, hresource, hpayload⟩ := h
  exact ⟨kind, task, hadvance.key.trans hkey,
    hadvance.resourceId.trans hresource, hadvance.payload.trans hpayload⟩

/-- A job that comes along keeps its key. -/
theorem keyed_perform {s : Panel} (hs : Sound c s) (ok : Bool)
    (p : Progress) : ∀ job ∈ (s.jobs.perform .store ok
      (p.call.effect (withCron c.proto))).1.mem, Keyed c job := by
  have hchange := Jobs.change_effect (withCron c.proto) p.call s.jobs.mem
  have hlength := length_progress (withCron c.proto) p s.jobs.mem
  rw [Store.perform_mem _ _ hs.queue]
  generalize (p.call.effect (withCron c.proto) s.jobs.mem).after s.jobs.mem
    = after at hchange hlength
  cases hchange with
  | kept => exact hs.keyed
  | added job hstatus hkey hfree =>
      rw [List.length_append, List.length_singleton] at hlength
      omega
  | moved i old new hi hadvance =>
      exact forall_mem_set hs.keyed
        ((hs.keyed old (List.mem_of_getElem? hi)).advances c hadvance)

/-- A job of the registry after one enqueueing. -/
theorem sound_enqueue {s : Panel} (hs : Sound c s) (env : Env) (kind : Kind)
    (task : Task) : Sound c (s.enqueue c env kind task).1 := by
  refine ⟨Store.perform_queue _ _ hs.queue _, fun job hjob => ?_⟩
  have hjob : job ∈ (s.jobs.perform .store env.jobStored
      (Jobs.enqueue (withCron c.proto) (c.request kind task) env.jobId
        env.jobNow)).1.mem := hjob
  rw [Store.perform_mem _ _ hs.queue, enqueue_eq] at hjob
  cases hlocate : locate (Job.hasKey (c.key kind task)) s.jobs.mem with
  | some found =>
      rw [hlocate] at hjob
      dsimp only at hjob
      split at hjob
      · exact hs.keyed job hjob
      · exact hs.keyed job hjob
  | none =>
      rw [hlocate] at hjob
      dsimp only at hjob
      split at hjob
      · exact hs.keyed job hjob
      · rcases List.mem_append.mp hjob with hjob | hjob
        · exact hs.keyed job hjob
        · rw [List.mem_singleton.mp hjob]
          exact keyed_newJob c env kind task

theorem sound_next {s : Panel} (hs : Sound c s) (move : Move) :
    Sound c ((machine c).next s move) := by
  have hsave : ∀ env r, Sound c (s.save c env r).1 := by
    intro env r
    cases r with
    | error e => exact hs
    | ok saved =>
        have hsaved : Sound c { s with tasks := saved.2 } :=
          ⟨hs.queue, hs.keyed⟩
        exact sound_enqueue c hsaved env .apply saved.1
  cases move with
  | createCron env input => exact hsave env _
  | updateCron env taskId input => exact hsave env _
  | deleteCron env taskId expectedRevision =>
      show Sound c (deleteCron c env taskId expectedRevision s).1
      unfold deleteCron
      split
      · exact hs
      · exact sound_enqueue c hs env .remove _
  | job p ok =>
      exact ⟨Store.perform_queue _ _ hs.queue _, keyed_perform c hs ok p⟩
  | removed env taskId expectedRevision =>
      show Sound c (s.step c _).1
      unfold Panel.step
      dsimp only
      split
      · exact hs
      · split
        · exact ⟨hs.queue, hs.keyed⟩
        · exact hs

/-- A call that saves goes as it should exactly if the job registry takes
its job. -/
theorem answered_save {s : Panel} (hs : Sound c s)
    {r : Except Failure (Task × List Task)}
    (hr : ∀ task tasks, r = .ok (task, tasks) →
      task ∈ tasks ∧ tasks ≠ s.tasks) :
    (match (s.save c env r).2 with
      | .returned task job => task ∈ (s.save c env r).1.tasks
          ∧ IsFor task job ∧ Counts job.status
      | .rejected _ => (s.save c env r).1.tasks = s.tasks
      | .done => True)
      ↔ ∀ task tasks, r = .ok (task, tasks) →
          Applicable c env .apply task s.jobs := by
  cases r with
  | error e => exact ⟨fun _ _ _ h => (nomatch h), fun _ => rfl⟩
  | ok saved =>
      obtain ⟨task, tasks⟩ := saved
      obtain ⟨hmem, hne⟩ := hr task tasks rfl
      have hcases := enqueue_cases c env .apply task
        (s := { s with tasks }) hs.queue
      refine (answered_saved c hs hmem hne hcases).trans
        ⟨fun h other others heq => ?_, fun h => h task tasks rfl⟩
      obtain ⟨rfl, rfl⟩ := Prod.mk.inj (Except.ok.inj heq)
      exact h

/-- A call goes as it should exactly if it meets the condition. -/
theorem answered_iff {s : Panel} (hs : Sound c s) (move : Move) :
    Answered c s move ↔ Clear c s move := by
  cases move with
  | createCron env input =>
      exact answered_save c hs fun task tasks h => createSaved_eq_ok h
  | updateCron env taskId input =>
      exact answered_save c hs fun task tasks h => updateSaved_eq_ok h
  | deleteCron env taskId expectedRevision =>
      unfold Answered Clear
      have hstep : Panel.step c s (.deleteCron env taskId expectedRevision)
        = deleteCron c env taskId expectedRevision s := rfl
      show (match (Panel.step c s _).2 with
        | .returned task job => task ∈ (Panel.step c s _).1.tasks
            ∧ IsFor task job ∧ Counts job.status
        | .rejected _ => (Panel.step c s _).1.tasks = s.tasks
        | .done => True) ↔ _
      rw [hstep]
      unfold deleteCron
      cases hchecked : deleteChecked env taskId expectedRevision s.tasks with
      | error e =>
          refine ⟨fun _ task h => ?_, fun _ => rfl⟩
          rw [hchecked] at h
          cases h
      | ok task =>
          have hmem := deleteChecked_eq_ok hchecked
          refine (answered_removal c hs hmem
            (enqueue_cases c env .remove task hs.queue)).trans
            ⟨fun h other heq => ?_, fun h => h task hchecked⟩
          obtain rfl := Except.ok.inj (hchecked.symm.trans heq)
          exact h
  | job p ok => exact ⟨fun _ => trivial, fun _ => trivial⟩
  | removed env taskId expectedRevision =>
      refine ⟨fun _ => trivial, fun _ => ?_⟩
      have hnone : (machine c).answer s (.removed env taskId expectedRevision)
          = .done := by
        show (Panel.step c s _).2 = _
        unfold Panel.step
        dsimp only
        split
        · rfl
        · split <;> rfl
      unfold Answered
      rw [hnone]
      trivial

/-- In every run of calls and jobs, every call that returns hands back a
job of the current revision that counts and every call that rejects leaves
the tasks as they were, exactly if every call finds its way clear. -/
theorem cron_calls_answered_iff (moves : List Move) :
    (∀ x ∈ (machine c).steps fresh moves, Answered c x.1 x.2)
      ↔ (machine c).Allowed (Clear c) fresh moves :=
  Machine.forall_mem_steps_iff (P := Sound c)
    (fun _ move hs => sound_next c hs move)
    (fun _ move hs => answered_iff c hs move) (sound_fresh c) moves

section Samples

def sampleUuid (last : Fin 10) : Uuid where
  text := "00000000-0000-4000-8000-00000000000" ++ toString last.val
  shaped := Uuid.shaped_zeros last

def sampleSite : Site where
  id := sampleUuid 1
  serverId := sampleUuid 2
  applicationId := some (sampleUuid 3)
  runtimeType := "static"
  unixUser := some "yunapp-abcdef123456"

/-- Both stores can be written and the website is there. -/
def sampleEnv : Env where
  hosted := .found (some sampleSite)
  bound := .found (some sampleSite)
  now := some ⟨5⟩
  randomId := sampleUuid 4
  stored := true
  jobId := sampleUuid 5
  jobNow := ⟨5⟩
  jobStored := true

/-- A context in which all files have one hash. -/
def sampleContext : Context where
  sha256 _ := ⟨"aaaaaaaaaaaaaaaaaaaaaaaaaaaaaaaaaaaaaaaaaaaaaaaaaaaaaaaaaaaaaaaa",
    Eq.refl true⟩
  proto :=
    { envelopeError := fun _ _ _ => none
      sanitizeResult := fun _ result => .ok result
      safeLocalOperationError := id
      idempotencyDigest := fun work => work.type ++ work.resourceId }

def sampleFailed (jobId : Uuid) : Move :=
  .job (.complete
    { serverId := (sampleUuid 2).text
      jobId := jobId.text
      status := "failed"
      result := .null
      error := .null } ⟨6⟩) true

def sampleDelete (jobId : Uuid) : Move :=
  .deleteCron { sampleEnv with jobId } (sampleUuid 4).json (.num 1)

/-- A task is created, its job cancelled, and its removal fails. -/
def sampleRetry : List Move :=
  [.createCron sampleEnv
      { websiteId := (sampleUuid 1).json
        name := .str "Nightly"
        schedule := .str "0 3 * * *"
        command := .str "true"
        enabled := none },
    .job (.cancel (sampleUuid 5).text ⟨6⟩) true,
    sampleDelete (sampleUuid 6),
    .job (.claimNext (sampleUuid 2).text ⟨6⟩) true,
    sampleFailed (sampleUuid 6)]

/-- The status of the job an answer hands back. -/
def Answer.status? : Answer → Option Jobs.Status
  | returned _ job => some job.status
  | _ => none

/-- The job a good run ends with counts. -/
theorem counts_last {moves : List Move} {move : Move} {status : Jobs.Status}
    (h : ∀ x ∈ (machine c).steps fresh (moves ++ [move]),
      Answered c x.1 x.2)
    (hstatus : ((machine c).answer ((machine c).run fresh moves) move).status?
      = some status) : Counts status := by
  have hlast : Answered c ((machine c).run fresh moves) move :=
    (machine c).last_of_forall_mem_steps h
  unfold Answered at hlast
  cases hanswer : (machine c).answer ((machine c).run fresh moves) move with
  | returned task job =>
      rw [hanswer] at hlast hstatus
      rw [← Option.some.inj hstatus]
      exact hlast.2.2
  | rejected e =>
      rw [hanswer] at hstatus
      cases hstatus
  | done =>
      rw [hanswer] at hstatus
      cases hstatus

/-- A removal that has failed is handed back when it is asked for again. -/
theorem removal_stuck :
    ¬∀ x ∈ (machine sampleContext).steps fresh
        (sampleRetry ++ [sampleDelete (sampleUuid 7)]),
      Answered sampleContext x.1 x.2 := by
  intro h
  have hcounts := counts_last sampleContext h
    (by decide +kernel : _ = some Jobs.Status.failed)
  revert hcounts
  decide

end Samples

example : Text.isDigit '0' = true := by decide +kernel

end Yunpanel.Cron
