/-
Mutations of the durable registry preserve what holds between calls.

A completion is the one mutation let through while jobs are recovering: it
enters its job in the record first (in automatic mode), then writes the
terminal status, and may take the entry out again. Every other mutation
runs only while the record is empty.
-/
import Yunpanel.Jobs.Proofs.Durability

namespace Yunpanel.Jobs.Durable

open Lib

variable {P : Disk → Prop} {T : Identity → Prop}

-- ====== after a completion

variable {proto : Protocol} {c : Completion} {now : Instant}
  {automatic : Bool}

variable {r : List Job → Except Failure Reply} {identity : Identity}
  {e : Rejection}

/-- What a completion writes: the running job it names, now terminal. -/
theorem complete_written {jobs s : List Job}
    (h : complete proto c now jobs = .written s r) :
    ∃ i old new, jobs[i]? = some old ∧ s = jobs.set i new
      ∧ locate (fun job => job.id.text == c.jobId
          && job.serverId == c.serverId) jobs = some (i, old)
      ∧ old.id.text = c.jobId ∧ old.serverId = c.serverId
      ∧ old.status = .running ∧ Advances old new
      ∧ new.status.terminal = true := by
  unfold complete at h
  split at h
  · cases h
  · rename_i status hstatus
    split at h
    · cases h
    · rename_i i old hloc
      split at h
      · split at h <;> cases h
      · split at h
        · cases h
        · rename_i hrun
          split at h
          · cases h
          · rename_i done hdone
            cases h
            have hacc := accepted_of_locate hloc
            simp only [Bool.and_eq_true, beq_iff_eq] at hacc
            refine ⟨i, old, _, getElem?_of_locate hloc, rfl, hloc, hacc.1,
              hacc.2, not_not.mp hrun, ?_, ?_⟩
            · rw [withOutcome_spec hdone]
              refine ⟨rfl, rfl, rfl, rfl, rfl, rfl, rfl, rfl, ?_⟩
              rw [not_not.mp hrun]
              rcases completionStatus?_spec hstatus with rfl | rfl <;>
                simp [Job.completed, Status.next]
            · rcases completionStatus?_spec hstatus with rfl | rfl <;> rfl

/-- A rewrite that keeps the id is found where the old entry was. -/
theorem findJob_set {jobs : List Job} {i : Nat} {old new job : Job}
    {jobId : String} (hi : jobs[i]? = some old) (hid : new.id = old.id)
    (h : findJob jobs jobId = some job) :
    findJob (jobs.set i new) jobId = some job
      ∨ job = old ∧ findJob (jobs.set i new) jobId = some new := by
  induction jobs generalizing i with
  | nil => simp [findJob] at h
  | cons j js ih =>
      simp only [findJob, List.find?_cons] at h ih ⊢
      cases i with
      | zero =>
          obtain rfl : j = old := by simpa using hi
          rw [List.set_cons_zero, List.find?_cons, hid]
          by_cases hj : (j.id.text == jobId) = true
          · rw [hj] at h ⊢
            exact .inr ⟨(Option.some.inj h).symm, rfl⟩
          · rw [Bool.not_eq_true] at hj
            rw [hj] at h ⊢
            exact .inl h
      | succ i =>
          rw [List.set_cons_succ, List.find?_cons]
          by_cases hj : (j.id.text == jobId) = true
          · rw [hj] at h ⊢
            exact .inl h
          · rw [Bool.not_eq_true] at hj
            rw [hj] at h ⊢
            exact ih (by simpa using hi) h

/-- A completion leaves every matched entry matched, but for its own job
where that was not pending. -/
theorem matched_complete {jobs s : List Job}
    (h : complete proto c now jobs = .written s r) {pending : List String}
    (hm : Matched pending jobs identity) :
    Matched pending s identity
      ∨ identity = ⟨c.jobId, c.serverId⟩ ∧ identity.key ∉ pending := by
  obtain ⟨i, old, new, hi, rfl, -, hid, hserver, -, hadv, hterm⟩ :=
    complete_written h
  obtain ⟨job, hfind, hjobServer, hstatus⟩ := hm
  rcases findJob_set hi hadv.id hfind with hsame | ⟨rfl, hnew⟩
  · exact .inl ⟨job, hsame, hjobServer, hstatus⟩
  · by_cases hp : identity.key ∈ pending
    · exact .inl ⟨new, hnew, hadv.serverId.trans hjobServer,
        .inr ⟨hterm, hp⟩⟩
    · refine .inr ⟨?_, hp⟩
      have hjobId := findJob_id hfind
      obtain ⟨ij, is⟩ := identity
      dsimp only at hjobId hjobServer
      rw [← hjobId, ← hjobServer, hid, hserver]

/-- Entries the record lists read back as themselves. -/
theorem Settled.safeRecoveryJob_of_mem {w : World} (h : Settled w)
    (hmem : identity ∈ w.record.jobs) :
    safeRecoveryJob identity.jobId identity.serverId = some identity :=
  safeRecoveryJob_of_normal (h.toSynced.normal_of_mem identity hmem)

theorem wp_afterComplete (hrules : Rules P T) {w : World} (hkept : Kept P w)
    (hw : Settled w) (hfatal : w.fatal = none) {prepared : Option Automatic}
    (hprepared : ∀ a, prepared = some a →
      safeRecoveryJob c.jobId c.serverId = some a.identity)
    (hmatched : ∀ identity, T identity → identity ∈ w.record.jobs →
      Matched w.reconciliationPending w.jobs identity
        ∨ identity = ⟨c.jobId, c.serverId⟩
          ∧ identity.key ∉ w.reconciliationPending) (hremove : ∀ identity,
      safeRecoveryJob c.jobId c.serverId = some identity →
        identity.key ∉ w.reconciliationPending →
          P { w.disk with record := w.disk.record.removeJob identity })
    {Q : Except Rejection (Option Identity) → World → Prop}
    (hok : ∀ ack w', Kept P w' → Steady T w' →
      w'.initialized = w.initialized → w'.jobs = w.jobs → Q (.ok ack) w')
    (herr : ∀ e w', Kept P w' → w'.fatal.isSome = true →
      Q (.error e) w') :
    Exec.wp (afterComplete automatic c prepared) Q w := by
  have hidentity : (prepared.map Automatic.identity).or
      (safeRecoveryJob c.jobId c.serverId)
        = safeRecoveryJob c.jobId c.serverId := by
    cases prepared with
    | none => rfl
    | some a => exact (hprepared a rfl).symm
  have hsteady : (∀ identity ∈ w.record.jobs,
      identity = ⟨c.jobId, c.serverId⟩ →
        identity.key ∈ w.reconciliationPending) → Steady T w := by
    intro hall
    refine { hw with fatal := hfatal, matched := ?_ }
    intro identity hT hmem
    refine (hmatched identity hT hmem).resolve_right ?_
    rintro ⟨heq, hnot⟩
    exact hnot (hall identity hmem heq)
  rw [afterComplete, hidentity]
  split
  · -- not a job the record could name
    rename_i hnone
    refine hok none w hkept (hsteady ?_) rfl rfl
    intro identity hmem heq
    have hself := hw.safeRecoveryJob_of_mem hmem
    rw [heq, hnone] at hself
    cases hself
  · rename_i identity hid
    have honly : (⟨c.jobId, c.serverId⟩ : Identity) = identity :=
      (safeRecoveryJob_eq_some hid).symm
    rw [Exec.wp_bind, Exec.wp_read]
    dsimp only
    rw [Exec.wp_bind, Exec.wp_read]
    dsimp only
    by_cases hpending : identity.key ∈ w.reconciliationPending
    · have hst : Steady T w := by
        refine hsteady fun id _ heq => ?_
        rw [heq, honly]
        exact hpending
      simp only [hpending, decide_true, Bool.not_true, Bool.and_false,
        Bool.false_eq_true, if_false]
      rw [Exec.wp_ite]
      exact ⟨fun _ => hok _ w hkept hst rfl rfl,
        fun _ => hok _ w hkept hst rfl rfl⟩
    · simp only [hpending, decide_false, Bool.not_false, Bool.and_true,
        Bool.and_false, Bool.false_eq_true, if_false]
      rw [Exec.wp_ite]
      constructor
      · -- the entry is taken out, and what is running is detected again
        intro _
        have hP := hremove identity hid hpending
        rw [Exec.wp_bind]
        refine wp_removeRecoveryJob ?_ ?_
          fun e w' h => herr e w' (hkept.latched h) h.fatal
        · intro _
          dsimp only
          rw [Exec.wp_bind]
          refine wp_detectRecovery hw.toSynced ?_
            fun e w' h => herr e w' (hkept.latched h) h.fatal
          intro w' hd
          exact hok none w' (hkept.detected hrules hw.toSynced hd)
            (Steady.detected hrules hkept hw.toSynced hw.jobs hfatal hd)
            hd.initialized hd.jobs
        · intro faults
          dsimp only
          rw [Exec.wp_bind]
          have hput : Kept P { w.recorded (w.record.removeJob identity)
              with faults } := by
            have h := hkept.put (d := { w.disk with
              record := w.record.removeJob identity })
              (by rw [hw.record]; exact hP)
            exact ⟨h.disk, h.written⟩
          have hsync : Synced { w.recorded (w.record.removeJob identity)
              with faults } :=
            ⟨rfl, RecoveryRecord.normal_removeJob hw.normal⟩
          refine wp_detectRecovery hsync ?_
            fun e w' h => herr e w' (hput.latched h) h.fatal
          intro w' hd
          exact hok none w' (hput.detected hrules hsync hd)
            (Steady.detected hrules hput hsync hw.jobs hfatal hd)
            hd.initialized hd.jobs
      · -- nothing is recovering, so no entry could need taking out
        intro hquiet
        have hnone : w.recovery = none := by
          cases hr : w.recovery with
          | none => rfl
          | some jobs => simp [hr] at hquiet
        refine hok none w hkept (hsteady ?_) rfl rfl
        intro id hmem
        rw [hw.record_of_none hnone] at hmem
        cases hmem

-- ====== mutations

/-- What a call made on a disk owes it: its own job write keeps it
right. -/
def CallRules (P : Disk → Prop) (proto : Protocol) (c : Call) (d : Disk) :
    Prop :=
  ∀ (s : List Job) (r : List Job → Except Failure Reply),
    c.effect proto d.jobs = .written s r → P d → P { d with jobs := s }

/-- The inner registry accepts a completion in this world, and its write,
where it makes one, goes through. -/
def Accepted (proto : Protocol) (c : Completion) (now : Instant)
    (w : World) : Prop :=
  (∃ a, complete proto c now w.jobs = .replied a)
    ∨ (∃ s r, complete proto c now w.jobs = .written s r)
      ∧ w.faults.headD false = false

/-- A completion the base registry accepts names a job of the list. -/
theorem idLength_of_accepted {w : World} (h : Accepted proto c now w) :
    c.jobId.toList.length = 36 := by
  have hfound : ∃ job ∈ w.jobs, job.id.text = c.jobId := by
    have hnone : locate (fun job => job.id.text == c.jobId
          && job.serverId == c.serverId) w.jobs = none →
        ∃ e, complete proto c now w.jobs = .refused e := by
      intro hloc
      unfold complete
      rw [hloc]
      split
      · exact ⟨_, rfl⟩
      · exact ⟨_, rfl⟩
    cases hloc : locate (fun job => job.id.text == c.jobId
        && job.serverId == c.serverId) w.jobs with
    | none =>
        obtain ⟨e, he⟩ := hnone hloc
        rcases h with ⟨a, ha⟩ | ⟨⟨s, r, hs⟩, -⟩
        · rw [he] at ha
          cases ha
        · rw [he] at hs
          cases hs
    | some found =>
        obtain ⟨i, job⟩ := found
        have hacc := accepted_of_locate hloc
        simp only [Bool.and_eq_true, beq_iff_eq] at hacc
        exact ⟨job, mem_of_locate hloc, hacc.1⟩
  obtain ⟨job, -, hid⟩ := hfound
  rw [← hid]
  exact job.id.text_length

/-- What a completion owes the disks. In automatic mode its write may rely
on the job being recorded; where it takes an entry out, the call was
accepted with that entry not pending. -/
structure CompleteRules (P : Disk → Prop) (T : Identity → Prop)
    (automatic : Bool) (proto : Protocol) (c : Completion)
    (now : Instant) (w : World) : Prop where
  write : ∀ (d : Disk) (s : List Job)
      (r : List Job → Except Failure Reply),
    complete proto c now d.jobs = .written s r →
    (automatic = true → ∀ identity,
      safeRecoveryJob c.jobId c.serverId = some identity →
        FoundRunning d.jobs identity → identity ∈ d.record.jobs) →
    P d → P { d with jobs := s }
  remove : ∀ (w₁ : World) (d : Disk) (identity : Identity),
    Steady T w₁ → (automatic = false → w₁ = w) →
    safeRecoveryJob c.jobId c.serverId = some identity →
    (automatic = true → FoundRunning w₁.jobs identity →
      identity.key ∈ w₁.reconciliationPending) →
    identity.key ∉ w₁.reconciliationPending →
    Accepted proto c now w₁ → d.record = w₁.record →
    P w₁.disk → P d → P { d with record := d.record.removeJob identity }

/-- How an operation on a healthy process may end. -/
def Ends (P : Disk → Prop) (T : Identity → Prop)
    (r : Except Rejection DurableReply) (w : World) : Prop :=
  match r with
  | .ok a => Kept P w ∧ Steady T w ∧ w.initialized = true
      ∧ a.Reports w.jobs
  | .error _ => Kept P w ∧ (w.fatal.isSome = true ∨ Undone w)

theorem Settled.rewritten {w : World} (h : Settled w) (s : List Job)
    (faults : List Bool) :
    Settled { w.rewritten s with faults } :=
  { h with jobs := rfl, record := h.record, normal := h.normal }

theorem Settled.undone {w : World} (h : Settled w)
    (hfatal : w.fatal = none) (hinit : w.initialized = true)
    (jobs : List Job) (faults : List Bool) :
    Undone { w with jobs, faults } :=
  ⟨hfatal, hinit, { h with jobs := rfl }⟩

theorem Kept.rewritten {w : World} (h : Kept P w) {s : List Job}
    (hs : P { w.disk with jobs := s }) (faults : List Bool) :
    Kept P { w.rewritten s with faults } :=
  ⟨(h.put hs).disk, (h.put hs).written⟩

/-- Calls other than a completion, made while nothing is recovering. -/
theorem wp_perform_other {c : Call}
    (hc : ∀ input now, c ≠ .complete input now) {w : World}
    (hkept : Kept P w) (hw : Steady T w) (hinit : w.initialized = true)
    (hnone : w.recovery = none) (hcall : CallRules P proto c w.disk) :
    Exec.wp (perform automatic proto c) (Ends P T) w := by
  have hbody : perform automatic proto c = (do
      let reply ← callRegistry proto c
      return .registry reply none) := by
    cases c with
    | complete input now => exact absurd rfl (hc input now)
    | enqueue req id now => rfl
    | findIdempotentJob req => rfl
    | claimNext serverId now => rfl
    | cancel jobId now => rfl
  have hnil : w.record.jobs = [] := hw.toSettled.record_of_none hnone
  rw [hbody, Exec.wp_bind]
  refine wp_callRegistry ?_ ?_ ?_ ?_
  · intro e _
    exact ⟨hkept, .inr (hw.toSettled.undone hw.fatal hinit w.jobs
      w.faults)⟩
  · intro a _ hshown
    exact ⟨hkept, hw, hinit, hshown⟩
  · intro s r heff hshown _ faults
    have hP : P { w.disk with jobs := s } := by
      rw [hw.jobs] at heff
      exact hcall s r heff hkept.disk
    have hkept' := hkept.rewritten hP faults
    have hsettled := hw.toSettled.rewritten s faults
    refine ⟨fun a ha => ⟨hkept', ?_, hinit, hshown.shown a ha⟩,
      fun e _ => ⟨hkept', .inr ⟨hw.fatal, hinit, hsettled⟩⟩⟩
    refine { hsettled with fatal := hw.fatal, matched := ?_ }
    intro identity _ hmem
    change identity ∈ w.record.jobs at hmem
    rw [hnil] at hmem
    cases hmem
  · intro s _ _ faults
    exact ⟨⟨hkept.disk, hkept.written⟩,
      .inr (hw.toSettled.undone hw.fatal hinit s faults)⟩

theorem wp_perform_complete (hrules : Rules P T) {w : World}
    (hkept : Kept P w) (hw : Steady T w) (hinit : w.initialized = true)
    (hcall : CompleteRules P T automatic proto c now w) :
    Exec.wp (perform automatic proto (.complete c now)) (Ends P T) w := by
  rw [perform, Exec.wp_bind]
  refine wp_prepareAutomaticReconciliation hrules hkept hw ?_
    fun e w' h hf => ⟨h, .inl hf⟩
  intro prepared w₁ hkept₁ hw₁ hprep
  have hinit₁ : w₁.initialized = true := hprep.initialized.trans hinit
  dsimp only
  rw [Exec.wp_bind]
  -- what is left once the inner call has returned
  have hafter : ∀ (w₂ : World) (a : Reply), Kept P w₂ → Settled w₂ →
      w₂.fatal = none → w₂.initialized = true →
      w₂.reconciliationPending = w₁.reconciliationPending →
      w₂.disk.record = w₁.record →
      (∀ identity, T identity → identity ∈ w₂.record.jobs →
        Matched w₂.reconciliationPending w₂.jobs identity
          ∨ identity = ⟨c.jobId, c.serverId⟩
            ∧ identity.key ∉ w₂.reconciliationPending) →
      Accepted proto c now w₁ → (∀ v ∈ replyShows a, Shown w₂.jobs v) →
      Exec.wp (do
        let ack ← afterComplete automatic c prepared
        return DurableReply.registry a ack) (Ends P T) w₂ := by
    intro w₂ a hk hs hf hi hpend hrec hm hacc hshown
    rw [Exec.wp_bind]
    refine wp_afterComplete hrules hk hs hf hprep.identity hm ?_ ?_
      fun e w' h hf => ⟨h, .inl hf⟩
    · intro identity hid hnot
      rw [hpend] at hnot
      refine hcall.remove w₁ w₂.disk identity hw₁ hprep.same hid ?_ hnot
        hacc hrec hkept₁.disk hk.disk
      exact fun hauto hrun => hprep.pending hauto identity hid hrun
    · intro ack w' hk' hst' hinit' hjobs'
      refine ⟨hk', hst', hinit'.trans hi, fun v hv => ?_⟩
      show Shown w'.jobs v
      rw [hjobs']
      exact hshown v hv
  refine wp_callRegistry ?_ ?_ ?_ ?_
  · intro e _
    exact ⟨hkept₁, .inr (hw₁.toSettled.undone hw₁.fatal hinit₁ w₁.jobs
      w₁.faults)⟩
  · intro a heff hshown
    exact hafter w₁ a hkept₁ hw₁.toSettled hw₁.fatal hinit₁ rfl
      hw₁.record.symm (fun id hT hmem => .inl (hw₁.matched id hT hmem))
      (.inl ⟨a, heff⟩) hshown
  · intro s r heff hshown hfault faults
    have hP : P { w₁.disk with jobs := s } := by
      have heff' := heff
      rw [hw₁.jobs] at heff'
      refine hcall.write w₁.disk s r heff' ?_ hkept₁.disk
      intro hauto identity hid hrun
      rw [← hw₁.jobs] at hrun
      rw [← hw₁.record]
      exact hw₁.toSettled.mem_of_key (findJob_idLength hrun.choose_spec.1)
        (hw₁.pendingListed _ (hprep.pending hauto identity hid hrun))
    have hkept' := hkept₁.rewritten hP faults
    have hsettled := hw₁.toSettled.rewritten s faults
    refine ⟨fun a ha => ?_, fun e _ => ⟨hkept', .inr
      ⟨hw₁.fatal, hinit₁, hsettled⟩⟩⟩
    refine hafter _ a hkept' hsettled hw₁.fatal hinit₁ rfl
      hw₁.record.symm ?_ (.inr ⟨⟨s, r, heff⟩, hfault⟩)
      (hshown.shown a ha)
    intro identity hT hmem
    exact matched_complete heff (hw₁.matched identity hT hmem)
  · intro s _ _ faults
    exact ⟨⟨hkept₁.disk, hkept₁.written⟩,
      .inr (hw₁.toSettled.undone hw₁.fatal hinit₁ s faults)⟩

/-- What every call ends in. -/
def Answered (P : Disk → Prop) (T : Identity → Prop)
    (r : Except Rejection DurableReply) (w : World) : Prop :=
  Good P T w ∧ ∀ a, r = .ok a → a.Reports w.disk.jobs

theorem answered_error {w : World} (h : Good P T w) :
    Answered P T (.error e) w :=
  ⟨h, fun a ha => by cases ha⟩

theorem answered_fatal {w : World} (h : Kept P w)
    (hf : w.fatal.isSome = true) : Answered P T (.error e) w := by
  refine answered_error ⟨h, fun hnone => ?_⟩
  rw [hnone] at hf
  cases hf

theorem answered_steady {r : Except Rejection DurableReply} {w : World}
    (h : Kept P w) (hw : Steady T w)
    (hr : ∀ a, r = .ok a → a.Reports w.jobs) :
    Answered P T r w :=
  ⟨⟨h, fun _ _ => hw⟩, fun a ha => hw.jobs ▸ hr a ha⟩

/-- A mutation, once its process is open: what happens inside the `try`
decides everything. -/
theorem wp_mutate (hrules : Rules P T) {c : Call} {w : World}
    (hw : Good P T w)
    (hbody : ∀ w', Kept P w' → Steady T w' → w'.initialized = true →
      w' = w.opened →
      w'.recovery = none ∨ (∃ input now, c = .complete input now) →
      Exec.wp (perform automatic proto c) (Ends P T) w') :
    Exec.wp (mutate automatic proto c) (Answered P T) w := by
  have hrest : ∀ w', Kept P w' → w'.initialized = true →
      (w'.fatal = none → Steady T w') → w' = w.opened →
      Exec.wp (do
        assertMutationAllowed c
        Exec.attempt (perform automatic proto c) fun e => do
          let latched ← Exec.read fun w => w.fatal.isSome
          if latched then Exec.fail e
          else
            reloadDurableState (Call.inspects c)
            Exec.fail e) (Answered P T) w' := by
    intro w' hk hinit hst hsame
    have hgood : Good P T w' := ⟨hk, fun h _ => hst h⟩
    rw [Exec.wp_bind, assertMutationAllowed, Exec.wp_bind]
    refine wp_assertHealthy ?_ fun _ e => answered_error hgood
    intro hfatal
    dsimp only
    rw [Exec.wp_bind, Exec.wp_read]
    dsimp only
    -- refused while recovering, or let through to the inner registry
    have hgo : w'.recovery = none
          ∨ (∃ input now, c = .complete input now) →
        Exec.wp (Exec.attempt (perform automatic proto c) fun e => do
          let latched ← Exec.read fun w => w.fatal.isSome
          if latched then Exec.fail e
          else
            reloadDurableState (Call.inspects c)
            Exec.fail e) (Answered P T) w' := by
      intro hallowed
      rw [Exec.wp_attempt]
      refine Exec.wp_mono
        (hbody w' hk (hst hfatal) hinit hsame hallowed) ?_
      intro r t ht
      cases r with
      | ok a =>
          exact answered_steady ht.1 ht.2.1 fun b hb => by
            obtain rfl := Except.ok.inj hb
            exact ht.2.2.2
      | error e =>
          dsimp only
          obtain ⟨hkept, hend⟩ := ht
          rw [Exec.wp_bind, Exec.wp_read]
          dsimp only
          rw [Exec.wp_ite]
          constructor
          · exact fun hf => answered_fatal hkept hf
          · intro hf
            have hundone : Undone t := hend.resolve_left hf
            rw [Exec.wp_bind]
            refine wp_reloadDurableState hrules hkept hundone ?_
              fun e' t' h hf => answered_fatal h hf
            intro t' hk' hst' _ _
            exact answered_error ⟨hk', fun _ _ => hst'⟩
    cases c with
    | complete input now => exact hgo (.inr ⟨input, now, rfl⟩)
    | enqueue req id now | findIdempotentJob req | claimNext serverId now
    | cancel jobId now =>
        dsimp only
        cases hrec : w'.recovery with
        | some jobs => exact answered_error hgood
        | none => exact hgo (.inl hrec)
  rw [mutate, Exec.wp_bind]
  refine Exec.wp_mono (wp_opened hrules hw) ?_
  rintro r w' ⟨hr, hopened⟩
  cases r with
  | ok _ => exact hrest w' hr.1 hr.2.1 hr.2.2 hopened
  | error e => exact answered_fatal hr.1 hr.2

end Yunpanel.Jobs.Durable
