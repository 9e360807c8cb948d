/-
What holds of the registry of backup operations after every run, whatever
is called in whatever order, whichever writes fail, and wherever the
process dies.

The steps of an operation are kept in order only by who calls: the
registry links any pending step of a running operation. Where each link
names the first step that has not succeeded, as the orchestrator's do, the
steps are some that succeeded, then at most one dispatched or failed, then
pending ones.
-/
import Yunpanel.Backup.Proofs.Operations

namespace Yunpanel.Backup

open Json Lib Lib.Result

variable {host : Host}

-- ====== one active each

/-- No two operations of one server are both queued or running. -/
def OneActive (ops : List (Operation host)) : Prop :=
  ops.Pairwise fun a b =>
    ¬(a.phase.isActive = true ∧ b.phase.isActive = true
      ∧ a.plan.serverId = b.plan.serverId)

theorem isActive_of_moves {steps steps' : List StepRecord}
    {phase phase' : Phase} (h : Moves steps phase steps' phase') :
    phase.isActive = true := by
  cases h <;> rfl

theorem OneActive.changes {ops ops' : List (Operation host)}
    (h : OneActive ops) (hchanges : Changes ops ops') : OneActive ops' := by
  have hsymm : ∀ {a b : Operation host},
      ¬(a.phase.isActive = true ∧ b.phase.isActive = true
        ∧ a.plan.serverId = b.plan.serverId) →
      ¬(b.phase.isActive = true ∧ a.phase.isActive = true
        ∧ b.plan.serverId = a.plan.serverId) :=
    fun hab ⟨hb, ha, he⟩ => hab ⟨ha, hb, he.symm⟩
  cases hchanges with
  | created op _ _ hfree _ =>
      refine pairwise_concat hsymm h fun other hother hboth => ?_
      have hidle := hfree other hother hboth.2.2.symm
      rw [hidle] at hboth
      exact Bool.false_ne_true hboth.2.1
  | progressed hi hprogress =>
      refine pairwise_set hsymm h hi fun other _ hrel hboth => hrel ?_
      rw [hprogress.plan] at hboth
      exact ⟨isActive_of_moves hprogress.moves, hboth.2⟩

-- ====== only forward

/-- A state a step can have after another. -/
def StepState.Le (s s' : StepState) : Prop :=
  s = s' ∨ s = .pending ∨ ∃ w, s = .dispatched w ∧ s'.workRef = some w

/-- A phase an operation can have after another. -/
def Phase.Le (p p' : Phase) : Prop :=
  p = p' ∨ p = .queued ∨ ∃ t, p = .running t ∧ p'.startedAt = some t

theorem StepState.Le.trans {a b c : StepState} (hab : a.Le b)
    (hbc : b.Le c) : a.Le c := by
  rcases hab with rfl | hpending | ⟨w, ha, hb⟩
  · exact hbc
  · exact .inr (.inl hpending)
  · refine .inr (.inr ⟨w, ha, ?_⟩)
    rcases hbc with rfl | rfl | ⟨w', rfl, hc⟩
    · exact hb
    · cases hb
    · rw [hc, ← hb]
      rfl

theorem Phase.Le.trans {a b c : Phase} (hab : a.Le b) (hbc : b.Le c) :
    a.Le c := by
  rcases hab with rfl | hqueued | ⟨t, ha, hb⟩
  · exact hbc
  · exact .inr (.inl hqueued)
  · refine .inr (.inr ⟨t, ha, ?_⟩)
    rcases hbc with rfl | rfl | ⟨t', rfl, hc⟩
    · exact hb
    · cases hb
    · rw [hc, ← hb]
      rfl

/-- A record a step can have after another. -/
def StepRecord.Le (r r' : StepRecord) : Prop :=
  r'.stepId = r.stepId ∧ r.state.Le r'.state

/-- The steps of an operation at a later time. -/
def StepsLe (rs rs' : List StepRecord) : Prop :=
  ∀ (k : Nat) (r : StepRecord), rs[k]? = some r →
    ∃ r', rs'[k]? = some r' ∧ r.Le r'

theorem StepsLe.refl (rs : List StepRecord) : StepsLe rs rs :=
  fun _ r hr => ⟨r, hr, rfl, .inl rfl⟩

theorem StepsLe.trans {as bs cs : List StepRecord} (hab : StepsLe as bs)
    (hbc : StepsLe bs cs) : StepsLe as cs := by
  intro k a ha
  obtain ⟨b, hb, hid, hle⟩ := hab k a ha
  obtain ⟨c, hc, hid', hle'⟩ := hbc k b hb
  exact ⟨c, hc, hid'.trans hid, hle.trans hle'⟩

theorem stepsLe_set {rs : List StepRecord} {k : Nat} {r : StepRecord}
    {s : StepState} {now : Instant} (hk : rs[k]? = some r)
    (h : r.state.Le s) : StepsLe rs (rs.set k (r.moved s now)) := by
  intro j a ha
  by_cases hjk : k = j
  · subst hjk
    obtain rfl : r = a := Option.some.inj (hk.symm.trans ha)
    refine ⟨r.moved s now, ?_, rfl, h⟩
    rw [List.getElem?_set_self]
    exact (List.getElem?_eq_some_iff.mp hk).1
  · exact ⟨a, by rw [List.getElem?_set_ne hjk, ha], rfl, .inl rfl⟩

theorem stepsLe_of_moves {steps steps' : List StepRecord}
    {phase phase' : Phase} (h : Moves steps phase steps' phase') :
    StepsLe steps steps' := by
  cases h with
  | started => exact StepsLe.refl steps
  | linked startedAt now w hk hr => exact stepsLe_set hk (.inr (.inl hr))
  | completed startedAt now w e hk hr _ =>
      exact stepsLe_set hk (.inr (.inr ⟨w, hr, rfl⟩))
  | failed startedAt now w x hk hr =>
      exact stepsLe_set hk (.inr (.inr ⟨w, hr, rfl⟩))

theorem phaseLe_of_moves {steps steps' : List StepRecord}
    {phase phase' : Phase} (h : Moves steps phase steps' phase') :
    phase.Le phase' := by
  cases h with
  | started => exact .inr (.inl rfl)
  | linked => exact .inl rfl
  | completed startedAt now w e hk hr hphase =>
      rcases hphase with rfl | rfl
      · exact .inl rfl
      · exact .inr (.inr ⟨startedAt, rfl, rfl⟩)
  | failed startedAt now w x hk hr =>
      exact .inr (.inr ⟨startedAt, rfl, rfl⟩)

/-- An operation at a later time. -/
structure Operation.Le (op op' : Operation host) : Prop where
  id : op'.id = op.id
  plan : op'.plan = op.plan
  phase : op.phase.Le op'.phase
  steps : StepsLe op.steps op'.steps

theorem Operation.Le.refl (op : Operation host) : op.Le op :=
  ⟨rfl, rfl, .inl rfl, StepsLe.refl op.steps⟩

theorem Operation.Le.trans {a b c : Operation host} (hab : a.Le b)
    (hbc : b.Le c) : a.Le c :=
  ⟨hbc.id.trans hab.id, hbc.plan.trans hab.plan, hab.phase.trans hbc.phase,
    hab.steps.trans hbc.steps⟩

/-- The operations at a later time: each at its place. -/
def Extends (ops ops' : List (Operation host)) : Prop :=
  ∀ (i : Nat) (op : Operation host), ops[i]? = some op →
    ∃ op', ops'[i]? = some op' ∧ op.Le op'

theorem Extends.refl (ops : List (Operation host)) : Extends ops ops :=
  fun _ op hop => ⟨op, hop, .refl op⟩

theorem Extends.trans {as bs cs : List (Operation host)}
    (hab : Extends as bs) (hbc : Extends bs cs) : Extends as cs := by
  intro i a ha
  obtain ⟨b, hb, hle⟩ := hab i a ha
  obtain ⟨c, hc, hle'⟩ := hbc i b hb
  exact ⟨c, hc, hle.trans hle'⟩

theorem extends_of_changes {ops ops' : List (Operation host)}
    (h : Changes ops ops') : Extends ops ops' := by
  cases h with
  | created op _ _ _ _ =>
      intro i a ha
      have hlt : i < ops.length := (List.getElem?_eq_some_iff.mp ha).1
      exact ⟨a, by rw [List.getElem?_append_left hlt, ha], .refl a⟩
  | @progressed i op op' hi hprogress =>
      intro j a ha
      by_cases hij : i = j
      · subst hij
        obtain rfl : op = a := Option.some.inj (hi.symm.trans ha)
        refine ⟨op', ?_, hprogress.id, hprogress.plan,
          phaseLe_of_moves hprogress.moves, stepsLe_of_moves hprogress.moves⟩
        rw [List.getElem?_set_self]
        exact (List.getElem?_eq_some_iff.mp hi).1
      · exact ⟨a, by rw [List.getElem?_set_ne hij, ha], .refl a⟩

-- ====== replay

/-- The operation of an id, at a later time. -/
theorem findOperation_later {ops ops' : List (Operation host)} {id : Uuid}
    {i : Nat} {op : Operation host} (h : findOperation ops id = .ok (i, op))
    (hle : Extends ops ops') :
    ∃ op', findOperation ops' id = .ok (i, op') ∧ ops'[i]? = some op'
      ∧ op.Le op' := by
  have hlocate := locate_of_findOperation h
  obtain ⟨op', hop', hle'⟩ := hle i op (getElem?_of_locate hlocate)
  obtain ⟨b, hb⟩ := locate_of_pointwise
    (fun j a ha => by
      obtain ⟨b, hb, hab⟩ := hle j a ha
      exact ⟨b, hb, by rw [hab.id]⟩) hlocate
  obtain rfl : op' = b :=
    Option.some.inj (hop'.symm.trans (getElem?_of_locate hb))
  refine ⟨op', ?_, hop', hle'⟩
  unfold findOperation
  rw [hb]

/-- The step a request named, at a later time. -/
theorem Target.later {ops ops' : List (Operation host)} {o s w : Json}
    (t : Target ops o s w) (h : Extends ops ops') :
    ∃ t' : Target ops' o s w, t'.work = t.work ∧ t'.index = t.index
      ∧ t'.stepIndex = t.stepIndex ∧ t.op.Le t'.op
      ∧ t.record.Le t'.record := by
  obtain ⟨op', hfound, -, hle⟩ := findOperation_later t.foundOp h
  obtain ⟨r', hr', hrle⟩ := hle.steps t.stepIndex t.record t.getElem?_record
  have hstep : findStep op' t.step = .ok (t.stepIndex, r') := by
    obtain ⟨b, hb⟩ := locate_of_pointwise
      (fun j a ha => by
        obtain ⟨b, hb, hab⟩ := hle.steps j a ha
        exact ⟨b, hb, by rw [hab.1]⟩)
      (locate_of_findStep t.foundStep)
    obtain rfl : r' = b :=
      Option.some.inj (hr'.symm.trans (getElem?_of_locate hb))
    unfold findStep
    rw [hb]
  exact ⟨⟨t.id, t.step, t.work, t.index, op', t.stepIndex, r', t.readId,
    t.readStep, t.readWork, hfound, hstep⟩, rfl, rfl, rfl, hle, hrle⟩

/-- What a request that was accepted has brought about. -/
def Request.Done (ops : List (Operation host)) : Request → Prop
  | .create planValue =>
      ∃ plan : Plan host, normalizeBackupExecutionPlan host planValue
          = .ok plan
        ∧ ∃ (i : Nat) (op : Operation host), ops[i]? = some op
          ∧ op.plan.idempotencyKey = plan.idempotencyKey
  | .start o =>
      ∃ (id : Uuid) (i : Nat) (op : Operation host), Uuid.read? o = some id
        ∧ findOperation ops id = .ok (i, op) ∧ op.phase ≠ .queued
  | .linkStep o s w =>
      ∃ t : Target ops o s w, t.record.state ≠ .pending
  | .succeedStep o s w e =>
      ∃ (t : Target ops o s w) (evidence : Evidence),
        normalizeEvidence host e = .ok evidence
        ∧ t.record.state = .succeeded t.work evidence
  | .failStep o s w x =>
      ∃ (t : Target ops o s w) (error : StepError),
        normalizeError x = .ok error
        ∧ t.record.state = .failed t.work error

theorem StepState.Le.eq_of_succeeded {w : WorkRef} {e : Evidence}
    {s : StepState} (h : (succeeded w e).Le s) : s = .succeeded w e := by
  rcases h with h | h | ⟨_, h, _⟩
  · exact h.symm
  · cases h
  · cases h

theorem StepState.Le.eq_of_failed {w : WorkRef} {x : StepError}
    {s : StepState} (h : (failed w x).Le s) : s = .failed w x := by
  rcases h with h | h | ⟨_, h, _⟩
  · exact h.symm
  · cases h
  · cases h

theorem StepState.Le.ne_pending {s s' : StepState} (h : s.Le s')
    (hs : s ≠ .pending) : s' ≠ .pending := by
  rcases h with rfl | rfl | ⟨_, -, h⟩
  · exact hs
  · exact absurd rfl hs
  · rintro rfl
    cases h

theorem Phase.Le.ne_queued {p p' : Phase} (h : p.Le p')
    (hp : p ≠ .queued) : p' ≠ .queued := by
  rcases h with rfl | rfl | ⟨_, -, h⟩
  · exact hp
  · exact absurd rfl hp
  · rintro rfl
    cases h

/-- What was brought about stays. -/
theorem Request.Done.later {request : Request}
    {ops ops' : List (Operation host)} (h : request.Done ops)
    (hle : Extends ops ops') : request.Done ops' := by
  cases request with
  | create planValue =>
      obtain ⟨plan, hplan, i, op, hop, hkey⟩ := h
      obtain ⟨op', hop', hle'⟩ := hle i op hop
      exact ⟨plan, hplan, i, op', hop', by rw [hle'.plan, hkey]⟩
  | start o =>
      obtain ⟨id, i, op, hid, hop, hphase⟩ := h
      obtain ⟨op', hop', -, hle'⟩ := findOperation_later hop hle
      exact ⟨id, i, op', hid, hop', hle'.phase.ne_queued hphase⟩
  | linkStep o s w =>
      obtain ⟨t, ht⟩ := h
      obtain ⟨t', -, -, -, -, hrecord⟩ := t.later hle
      exact ⟨t', hrecord.2.ne_pending ht⟩
  | succeedStep o s w e =>
      obtain ⟨t, evidence, hevidence, ht⟩ := h
      obtain ⟨t', hwork, -, -, -, hrecord⟩ := t.later hle
      refine ⟨t', evidence, hevidence, ?_⟩
      rw [hwork]
      exact (ht ▸ hrecord.2).eq_of_succeeded
  | failStep o s w x =>
      obtain ⟨t, error, herror, ht⟩ := h
      obtain ⟨t', hwork, -, -, -, hrecord⟩ := t.later hle
      refine ⟨t', error, herror, ?_⟩
      rw [hwork]
      exact (ht ▸ hrecord.2).eq_of_failed

/-- The state a request leaves. -/
def Change.after (ops : List (Operation host)) :
    Change host → List (Operation host)
  | .same _ => ops
  | .next ops' _ => ops'

theorem Change.extends {request : Request} {now : Instant}
    {randomId : String} {ops : List (Operation host)} {change : Change host}
    (h : request.transform now randomId ops = .ok change) :
    Extends ops (change.after ops) := by
  cases change with
  | same result => exact Extends.refl ops
  | next ops' result => exact extends_of_changes (changes_of_transform h)

/-- The record of a step after a change to it. -/
theorem Target.record_after {ops : List (Operation host)} {o s w : Json}
    (t : Target ops o s w) {op' : Operation host} {state : StepState}
    {now : Instant} (hprogress : Progress t.op op')
    (hsteps : op'.steps
      = t.op.steps.set t.stepIndex (t.record.moved state now)) :
    ∃ t' : Target (ops.set t.index op') o s w,
      t'.work = t.work ∧ t'.record.state = state := by
  obtain ⟨t', hwork, hindex, hstep, -, -⟩ :=
    t.later (extends_of_changes (.progressed t.getElem?_op hprogress))
  refine ⟨t', hwork, ?_⟩
  have hop : t'.op = op' := by
    have hget := t'.getElem?_op
    rw [hindex, List.getElem?_set_self
      (List.getElem?_eq_some_iff.mp t.getElem?_op).1] at hget
    exact (Option.some.inj hget).symm
  have hget := t'.getElem?_record
  rw [hop, hsteps, hstep, List.getElem?_set_self
    (List.getElem?_eq_some_iff.mp t.getElem?_record).1] at hget
  rw [← Option.some.inj hget]
  rfl

/-- A request that is accepted has brought about what it is for. -/
theorem done_of_transform {request : Request} {now : Instant}
    {randomId : String} {ops : List (Operation host)} {change : Change host}
    (h : request.transform now randomId ops = .ok change) :
    request.Done (change.after ops) := by
  cases request with
  | create planValue =>
      obtain ⟨plan, hplan, ⟨op, hmem, hkey, rfl⟩ | ⟨-, op, rfl, -, -, -, rfl⟩⟩ :=
        create_eq_ok h
      · obtain ⟨i, hi⟩ := List.getElem?_of_mem hmem
        exact ⟨plan, hplan, i, op, hi, hkey⟩
      · exact ⟨op.plan, hplan, ops.length, op,
          List.getElem?_concat_length, rfl⟩
  | start o =>
      have hlater := Change.extends h
      obtain ⟨id, i, op, hid, hop, ⟨hrunning, rfl⟩
        | ⟨-, op', hprogress, hphase, -, rfl⟩⟩ := start_eq_ok h
      · refine ⟨id, i, op, hid, hop, ?_⟩
        intro hqueued
        rw [hqueued] at hrunning
        cases hrunning
      · obtain ⟨b, hfound, hget, -⟩ := findOperation_later hop hlater
        have hi := getElem?_of_locate (locate_of_findOperation hop)
        have hset : (ops.set i op')[i]? = some op' :=
          List.getElem?_set_self (List.getElem?_eq_some_iff.mp hi).1
        obtain rfl : op' = b := Option.some.inj (hset.symm.trans hget)
        exact ⟨id, i, op', hid, hfound,
          by rw [hphase]; exact Phase.noConfusion⟩
  | linkStep o s w =>
      obtain ⟨t, ⟨hstate, rfl⟩ | ⟨-, op', hprogress, hsteps, rfl⟩⟩ :=
        linkStep_eq_ok h
      · exact ⟨t, by rw [hstate]; exact StepState.noConfusion⟩
      · obtain ⟨t', -, hstate⟩ := t.record_after hprogress hsteps
        exact ⟨t', by rw [hstate]; exact StepState.noConfusion⟩
  | succeedStep o s w e =>
      obtain ⟨t, evidence, hevidence, ⟨hstate, rfl⟩
        | ⟨-, op', hprogress, hsteps, rfl⟩⟩ := succeedStep_eq_ok h
      · exact ⟨t, evidence, hevidence, hstate⟩
      · obtain ⟨t', hwork, hstate⟩ := t.record_after hprogress hsteps
        exact ⟨t', evidence, hevidence, by rw [hstate, hwork]⟩
  | failStep o s w x =>
      obtain ⟨t, error, herror, ⟨hstate, rfl⟩
        | ⟨-, op', hprogress, hsteps, rfl⟩⟩ := failStep_eq_ok h
      · exact ⟨t, error, herror, hstate⟩
      · obtain ⟨t', hwork, hstate⟩ := t.record_after hprogress hsteps
        exact ⟨t', error, herror, by rw [hstate, hwork]⟩

/-- A request that has been done changes nothing again. -/
theorem not_next_of_done {request : Request} {now : Instant}
    {randomId : String} {ops ops' : List (Operation host)}
    {result : Operation host} (hdone : request.Done ops) :
    request.transform now randomId ops ≠ .ok (.next ops' result) := by
  intro h
  cases request with
  | create planValue =>
      obtain ⟨plan, hplan, i, op, hop, hkey⟩ := hdone
      obtain ⟨plan', hplan', ⟨_, -, -, hsame⟩ | ⟨hnew, -⟩⟩ :=
        create_eq_ok h
      · cases hsame
      · obtain rfl : plan = plan' := Except.ok.inj (hplan.symm.trans hplan')
        exact hnew op (List.mem_of_getElem? hop) hkey
  | start o =>
      obtain ⟨id, i, op, hid, hop, hphase⟩ := hdone
      obtain ⟨id', i', op', hid', hop', ⟨-, hsame⟩ | ⟨hqueued, -⟩⟩ :=
        start_eq_ok h
      · cases hsame
      · obtain rfl : id = id' := Option.some.inj (hid.symm.trans hid')
        obtain ⟨rfl, rfl⟩ :=
          Prod.mk.inj (Except.ok.inj (hop.symm.trans hop'))
        exact hphase hqueued
  | linkStep o s w =>
      obtain ⟨t, ht⟩ := hdone
      obtain ⟨t', ⟨-, hsame⟩ | ⟨hpending, -⟩⟩ := linkStep_eq_ok h
      · cases hsame
      · exact ht (t.unique t' ▸ hpending)
  | succeedStep o s w e =>
      obtain ⟨t, _, -, ht⟩ := hdone
      obtain ⟨t', _, -, ⟨-, hsame⟩ | ⟨hdispatched, -⟩⟩ :=
        succeedStep_eq_ok h
      · cases hsame
      · rw [t.unique t', ht] at hdispatched
        cases hdispatched
  | failStep o s w x =>
      obtain ⟨t, _, -, ht⟩ := hdone
      obtain ⟨t', _, -, ⟨-, hsame⟩ | ⟨hdispatched, -⟩⟩ := failStep_eq_ok h
      · cases hsame
      · rw [t.unique t', ht] at hdispatched
        cases hdispatched

-- ====== the registry

/-- Memory is what the file was written from. -/
def Linked (r : Registry host) : Prop :=
  (r.file = none ∧ r.operations = [])
    ∨ r.file = some (storeJson r.operations)

theorem linked_initial : Linked (Registry.initial : Registry host) :=
  .inl ⟨rfl, rfl⟩

/-- Starting again leaves the operations what they were. -/
theorem reopen_of_linked {r : Registry host} (h : Linked r) :
    r.reopen.operations = r.operations ∧ r.reopen.file = r.file := by
  unfold Registry.reopen
  rcases h with ⟨hnone, hnil⟩ | hsome
  · rw [hnone]
    exact ⟨hnil.symm, rfl⟩
  · rw [hsome]
    dsimp only
    split
    · rename_i ops hread
      exact ⟨eq_of_normalizeStore hread, rfl⟩
    · exact ⟨rfl, rfl⟩

/-- What a call leaves: what there was, or what the transform made and
wrote. -/
theorem mutate_cases (r : Registry host) (request : Request) (now : Instant)
    (randomId : String) (written : Bool) :
    (r.mutate request now randomId written).1 = r
      ∨ ∃ ops result,
        request.transform now randomId r.operations = .ok (.next ops result)
        ∧ (r.mutate request now randomId written).1
          = { r with operations := ops, file := some (storeJson ops) } := by
  unfold Registry.mutate
  cases h : request.transform now randomId r.operations with
  | error e => exact .inl rfl
  | ok change =>
      cases change with
      | same result => exact .inl rfl
      | next ops result =>
          cases written with
          | false => exact .inl rfl
          | true => exact .inr ⟨ops, result, rfl, rfl⟩

/-- The request of an event, where it has one. -/
def Event.request : Event → Option (Request × Instant × String)
  | .call request now randomId _ => some (request, now, randomId)
  | .cut request now randomId => some (request, now, randomId)
  | .restart => none

theorem linked_reopen {r : Registry host} (h : Linked r) :
    Linked r.reopen := by
  obtain ⟨hops, hfile⟩ := reopen_of_linked h
  unfold Linked
  rw [hops, hfile]
  exact h

theorem next_call (r : Registry host) (request : Request) (now : Instant)
    (randomId : String) (written : Bool) :
    (registry host).next r (.call request now randomId written)
      = if r.up = true then (r.mutate request now randomId written).1
        else r := by
  simp only [Machine.next, registry, Registry.step]
  split <;> rfl

theorem next_cut (r : Registry host) (request : Request) (now : Instant)
    (randomId : String) :
    (registry host).next r (.cut request now randomId)
      = if r.up = true then (r.mutate request now randomId true).1.reopen
        else r := by
  simp only [Machine.next, registry, Registry.step]
  split <;> rfl

/-- What one event leaves: the operations there were, or those of a
request of the event. -/
theorem next_cases {r : Registry host} (h : Linked r) (e : Event) :
    Linked ((registry host).next r e)
      ∧ (((registry host).next r e).operations = r.operations
        ∨ ∃ request now randomId result,
          e.request = some (request, now, randomId)
          ∧ request.transform now randomId r.operations
            = .ok (.next ((registry host).next r e).operations result)) := by
  cases e with
  | restart => exact ⟨linked_reopen h, .inl (reopen_of_linked h).1⟩
  | call request now randomId written =>
      rw [next_call]
      split
      · rcases mutate_cases r request now randomId written with
          hsame | ⟨ops, result, htransform, hnew⟩
        · rw [hsame]
          exact ⟨h, .inl rfl⟩
        · rw [hnew]
          exact ⟨.inr rfl, .inr ⟨request, now, randomId, result, rfl,
            htransform⟩⟩
      · exact ⟨h, .inl rfl⟩
  | cut request now randomId =>
      rw [next_cut]
      split
      · rcases mutate_cases r request now randomId true with
          hsame | ⟨ops, result, htransform, hnew⟩
        · rw [hsame]
          exact ⟨linked_reopen h, .inl (reopen_of_linked h).1⟩
        · rw [hnew]
          have hlinked : Linked ({ r with
              operations := ops, file := some (storeJson ops) } :
                Registry host) := .inr rfl
          refine ⟨linked_reopen hlinked,
            .inr ⟨request, now, randomId, result, rfl, ?_⟩⟩
          rw [(reopen_of_linked hlinked).1]
          exact htransform
      · exact ⟨h, .inl rfl⟩

theorem extends_next {r : Registry host} (h : Linked r) (e : Event) :
    Extends r.operations ((registry host).next r e).operations := by
  rcases (next_cases h e).2 with hsame | ⟨_, _, _, _, -, htransform⟩
  · rw [hsame]
    exact Extends.refl _
  · exact extends_of_changes (changes_of_transform htransform)

/-- Nothing that was brought about is lost, over any run. -/
theorem extends_run {r : Registry host} (h : Linked r)
    (events : List Event) :
    Linked ((registry host).run r events)
      ∧ Extends r.operations ((registry host).run r events).operations := by
  induction events generalizing r with
  | nil => exact ⟨h, Extends.refl _⟩
  | cons e events ih =>
      obtain ⟨hlinked, hextends⟩ := ih (next_cases h e).1
      exact ⟨hlinked, (extends_next h e).trans hextends⟩

theorem oneActive_next {r : Registry host} (e : Event)
    (h : Linked r ∧ OneActive r.operations) :
    Linked ((registry host).next r e)
      ∧ OneActive ((registry host).next r e).operations := by
  obtain ⟨hlinked, hnext⟩ := next_cases h.1 e
  refine ⟨hlinked, ?_⟩
  rcases hnext with hsame | ⟨_, _, _, _, -, htransform⟩
  · rw [hsame]
    exact h.2
  · exact h.2.changes (changes_of_transform htransform)

/-- A call that was answered changes nothing when it is made again, at any
later time. -/
theorem mutate_of_answered {r : Registry host} {request : Request}
    {now : Instant} {randomId : String} {written : Bool}
    {result : Operation host} (h : Linked r)
    (hanswer : (registry host).answer r (.call request now randomId written)
      = some (.ok result)) (more : List Event) (now' : Instant)
    (randomId' : String) (written' : Bool) :
    let r' := (registry host).run
      ((registry host).next r (.call request now randomId written)) more
    (r'.mutate request now' randomId' written').1 = r' := by
  intro r'
  have hdone : request.Done ((registry host).next r
      (.call request now randomId written)).operations := by
    rw [next_call]
    simp only [Machine.answer, registry, Registry.step] at hanswer
    split at hanswer
    case isFalse => cases hanswer
    rename_i hup
    rw [if_pos hup]
    unfold Registry.mutate at hanswer ⊢
    cases htransform : request.transform now randomId r.operations with
    | error e =>
        rw [htransform] at hanswer
        cases hanswer
    | ok change =>
        rw [htransform] at hanswer
        have hafter := done_of_transform htransform
        cases change with
        | same result' => exact hafter
        | next ops result' =>
            cases written with
            | false => cases hanswer
            | true => exact hafter
  obtain ⟨-, hextends⟩ := extends_run (next_cases h
    (.call request now randomId written)).1 more
  rcases mutate_cases r' request now' randomId' written' with
    hsame | ⟨ops, result', htransform, -⟩
  · exact hsame
  · exact absurd htransform (not_next_of_done (hdone.later hextends))

-- ====== the order

/-- Some that succeeded, at most one dispatched or failed, then pending
ones. -/
def shaped : List StepState → Bool
  | [] => true
  | .succeeded _ _ :: rest => shaped rest
  | _ :: rest => rest.all StepState.isPending

/-- The steps of an operation, by their states. -/
def Operation.states (op : Operation host) : List StepState :=
  op.steps.map StepRecord.state

theorem shaped_of_pending {states : List StepState}
    (h : states.all StepState.isPending = true) : shaped states = true := by
  cases states with
  | nil => rfl
  | cons s states =>
      rw [List.all_cons, Bool.and_eq_true] at h
      cases s with
      | pending => exact h.2
      | dispatched _ | succeeded _ _ | failed _ _ => cases h.1

/-- Whatever the first step that has not succeeded becomes, the order
stays. -/
theorem shaped_set {states : List StepState} (h : shaped states = true)
    {k : Nat} {s : StepState} (hk : states[k]? = some s)
    (hs : s.isSucceeded = false)
    (hbefore : ∀ (j : Nat) (a : StepState), j < k → states[j]? = some a →
      a.isSucceeded = true) (s' : StepState) :
    shaped (states.set k s') = true := by
  induction states generalizing k with
  | nil => cases hk
  | cons a states ih =>
      cases k with
      | zero =>
          obtain rfl : a = s := Option.some.inj hk
          have hrest : states.all StepState.isPending = true := by
            cases a with
            | succeeded _ _ => cases hs
            | pending | dispatched _ | failed _ _ => exact h
          show shaped (s' :: states) = true
          cases s' with
          | succeeded _ _ =>
              show shaped states = true
              exact shaped_of_pending hrest
          | pending | dispatched _ | failed _ _ => exact hrest
      | succ k =>
          have ha := hbefore 0 a (Nat.succ_pos k) rfl
          cases a with
          | succeeded _ _ =>
              exact ih h hk fun j b hj hb =>
                hbefore (j + 1) b (Nat.succ_lt_succ hj) hb
          | pending | dispatched _ | failed _ _ => cases ha

/-- All steps before one that was dispatched have succeeded. -/
theorem succeeded_before {states : List StepState}
    (h : shaped states = true) {k : Nat} {s : StepState}
    (hk : states[k]? = some s) (hs : s.isPending = false) :
    ∀ (j : Nat) (a : StepState), j < k → states[j]? = some a →
      a.isSucceeded = true := by
  induction states generalizing k with
  | nil => cases hk
  | cons b states ih =>
      intro j a hj ha
      cases k with
      | zero => omega
      | succ k =>
          cases b with
          | succeeded _ _ =>
              cases j with
              | zero =>
                  rw [← Option.some.inj ha]
                  rfl
              | succ j => exact ih h hk j a (Nat.lt_of_succ_lt_succ hj) ha
          | pending | dispatched _ | failed _ _ =>
              have hpending := List.all_eq_true.mp h s
                (List.mem_of_getElem? hk)
              rw [hpending] at hs
              cases hs

/-- A link names the first step that has not succeeded. -/
def LinksInOrder (r : Registry host) (e : Event) : Prop :=
  ∀ o s w now randomId, e.request = some (.linkStep o s w, now, randomId) →
    ∀ t : Target r.operations o s w, t.record.state = .pending →
      ∀ (j : Nat) (a : StepRecord), j < t.stepIndex →
        t.op.steps[j]? = some a → a.state.isSucceeded = true

/-- The steps of every operation are in order. -/
def Shaped (ops : List (Operation host)) : Prop :=
  ∀ op ∈ ops, shaped op.states = true

/-- Deciding or linking a step in order keeps the order. -/
theorem shaped_moved {op op' : Operation host} {k : Nat} {r : StepRecord}
    {s : StepState} {now : Instant} (h : shaped op.states = true)
    (hk : op.steps[k]? = some r) (hr : r.state.isSucceeded = false)
    (hbefore : ∀ (j : Nat) (a : StepState), j < k →
      op.states[j]? = some a → a.isSucceeded = true)
    (hsteps : op'.steps = op.steps.set k (r.moved s now)) :
    shaped op'.states = true := by
  have hget : op.states[k]? = some r.state := by
    rw [Operation.states, List.getElem?_map, hk]
    rfl
  rw [Operation.states, hsteps, List.map_set]
  exact shaped_set h hget hr hbefore s

theorem shaped_transform {r : Registry host} {request : Request}
    {now : Instant} {randomId : String} {ops : List (Operation host)}
    {result : Operation host} {e : Event} (hlinks : LinksInOrder r e)
    (hrequest : e.request = some (request, now, randomId))
    (htransform : request.transform now randomId r.operations
      = .ok (.next ops result)) (h : Shaped r.operations) : Shaped ops := by
  have hget : ∀ {o s w : Json} (t : Target r.operations o s w),
      shaped t.op.states = true := fun t =>
    h t.op (List.mem_of_getElem? t.getElem?_op)
  have hdecided : ∀ {o s w : Json} (t : Target r.operations o s w),
      t.record.state = .dispatched t.work →
      ∀ (j : Nat) (a : StepState), j < t.stepIndex →
        t.op.states[j]? = some a → a.isSucceeded = true := by
    intro o s w t hstate
    refine succeeded_before (s := t.record.state) (hget t) ?_ ?_
    · rw [Operation.states, List.getElem?_map, t.getElem?_record]
      rfl
    · rw [hstate]
      rfl
  cases request with
  | create planValue =>
      obtain ⟨_, -, ⟨_, -, -, hsame⟩ | ⟨-, op, -, -, hpending, -, hnext⟩⟩ :=
        create_eq_ok htransform
      · cases hsame
      · cases hnext
        refine forall_mem_concat h (shaped_of_pending ?_)
        rw [Operation.states, List.all_map, List.all_eq_true]
        intro a ha
        show a.state.isPending = true
        rw [hpending a ha]
        rfl
  | start o =>
      obtain ⟨_, _, op, -, hop, ⟨-, hsame⟩
        | ⟨-, op', -, -, hsteps, hnext⟩⟩ := start_eq_ok htransform
      · cases hsame
      · cases hnext
        have hmem := mem_of_locate (locate_of_findOperation hop)
        refine forall_mem_set h ?_
        rw [Operation.states, hsteps]
        exact h op hmem
  | linkStep o s w =>
      obtain ⟨t, ⟨-, hsame⟩ | ⟨hpending, op', -, hsteps, hnext⟩⟩ :=
        linkStep_eq_ok htransform
      · cases hsame
      · cases hnext
        refine forall_mem_set h (shaped_moved (hget t) t.getElem?_record
          (by rw [hpending]; rfl) ?_ hsteps)
        intro j a hj ha
        rw [Operation.states, List.getElem?_map,
          Option.map_eq_some_iff] at ha
        obtain ⟨record, hrecord, rfl⟩ := ha
        exact hlinks o s w now randomId hrequest t hpending j record hj
          hrecord
  | succeedStep o s w e =>
      obtain ⟨t, _, -, ⟨-, hsame⟩ | ⟨hstate, op', -, hsteps, hnext⟩⟩ :=
        succeedStep_eq_ok htransform
      · cases hsame
      · cases hnext
        exact forall_mem_set h (shaped_moved (hget t) t.getElem?_record
          (by rw [hstate]; rfl) (hdecided t hstate) hsteps)
  | failStep o s w x =>
      obtain ⟨t, _, -, ⟨-, hsame⟩ | ⟨hstate, op', -, hsteps, hnext⟩⟩ :=
        failStep_eq_ok htransform
      · cases hsame
      · cases hnext
        exact forall_mem_set h (shaped_moved (hget t) t.getElem?_record
          (by rw [hstate]; rfl) (hdecided t hstate) hsteps)

theorem shaped_next {r : Registry host} {e : Event}
    (hlinks : LinksInOrder r e) (h : Linked r ∧ Shaped r.operations) :
    Linked ((registry host).next r e)
      ∧ Shaped ((registry host).next r e).operations := by
  obtain ⟨hlinked, hnext⟩ := next_cases h.1 e
  refine ⟨hlinked, ?_⟩
  rcases hnext with hsame | ⟨_, _, _, _, hrequest, htransform⟩
  · rw [hsame]
    exact h.2
  · exact shaped_transform hlinks hrequest htransform h.2

-- ====== the registry

/-- A decision of a step that was decided is refused where it is another
one. -/
theorem refused_of_decided {r : Registry host} {o s w : Json}
    (t : Target r.operations o s w) (now : Instant) (randomId : String)
    (written : Bool) :
    (∀ e evidence, normalizeEvidence host e = .ok evidence →
        (t.record.state.isSucceeded || t.record.state.isFailed) = true →
        t.record.state ≠ .succeeded t.work evidence →
        ∃ failure, r.mutate (.succeedStep o s w e) now randomId written
          = (r, .error failure))
      ∧ (∀ x error, normalizeError x = .ok error →
        (t.record.state.isSucceeded || t.record.state.isFailed) = true →
        t.record.state ≠ .failed t.work error →
        ∃ failure, r.mutate (.failStep o s w x) now randomId written
          = (r, .error failure)) := by
  have hdispatched : (t.record.state.isSucceeded
      || t.record.state.isFailed) = true →
      t.record.state ≠ .dispatched t.work := by
    intro hdecided he
    rw [he] at hdecided
    cases hdecided
  refine ⟨fun e evidence hevidence hdecided hother => ?_,
    fun x error herror hdecided hother => ?_⟩
  · cases htransform : succeedStep now o s w e r.operations with
    | error failure =>
        refine ⟨failure, ?_⟩
        unfold Registry.mutate
        rw [show Request.transform now randomId (.succeedStep o s w e)
          r.operations = .error failure from htransform]
    | ok change =>
        obtain ⟨t', evidence', hevidence', ⟨hstate, -⟩ | ⟨hstate, -⟩⟩ :=
          succeedStep_eq_ok htransform
        · obtain rfl : evidence = evidence' :=
            Except.ok.inj (hevidence.symm.trans hevidence')
          exact absurd (t.unique t' ▸ hstate) hother
        · exact absurd (t.unique t' ▸ hstate) (hdispatched hdecided)
  · cases htransform : failStep now o s w x r.operations with
    | error failure =>
        refine ⟨failure, ?_⟩
        unfold Registry.mutate
        rw [show Request.transform now randomId (.failStep o s w x)
          r.operations = .error failure from htransform]
    | ok change =>
        obtain ⟨t', error', herror', ⟨hstate, -⟩ | ⟨hstate, -⟩⟩ :=
          failStep_eq_ok htransform
        · obtain rfl : error = error' :=
            Except.ok.inj (herror.symm.trans herror')
          exact absurd (t.unique t' ▸ hstate) hother
        · exact absurd (t.unique t' ▸ hstate) (hdispatched hdecided)

/-- For every run of the registry, whatever is called in whatever order,
whichever writes fail and wherever the process dies:

- no two operations of one server are queued or running at once;
- the file holds what memory holds, and each operation in it is accepted
  by `normalizeOperation` and read as it is;
- a call that was answered changes nothing when it is made again, then or
  at any later time;
- deciding a decided step otherwise is refused and changes nothing;
- where each link names the first step that has not succeeded, the steps
  of every operation are some that succeeded, at most one dispatched or
  failed, then pending ones. -/
theorem operations_of_run (host : Host) (events : List Event) :
    let r := (registry host).run Registry.initial events
    OneActive r.operations
      ∧ (Linked r ∧ ∀ op ∈ r.operations,
        normalizeOperation host op.json = .ok op)
      ∧ (∀ request now randomId written result,
        (registry host).answer r (.call request now randomId written)
            = some (.ok result) →
        ∀ more now' randomId' written',
          let r' := (registry host).run ((registry host).next r
            (.call request now randomId written)) more
          (r'.mutate request now' randomId' written').1 = r')
      ∧ (∀ o s w (t : Target r.operations o s w) now randomId written,
        (t.record.state.isSucceeded || t.record.state.isFailed) = true →
        (∀ e evidence, normalizeEvidence host e = .ok evidence →
          t.record.state ≠ .succeeded t.work evidence →
          ∃ failure, r.mutate (.succeedStep o s w e) now randomId written
            = (r, .error failure))
        ∧ (∀ x error, normalizeError x = .ok error →
          t.record.state ≠ .failed t.work error →
          ∃ failure, r.mutate (.failStep o s w x) now randomId written
            = (r, .error failure)))
      ∧ ((registry host).Allowed LinksInOrder Registry.initial events →
        Shaped r.operations) := by
  intro r
  obtain ⟨hlinked, hactive⟩ := Machine.invariant
    (P := fun r : Registry host => Linked r ∧ OneActive r.operations)
    (fun r e h => oneActive_next e h)
    (⟨linked_initial, List.Pairwise.nil⟩ :
      Linked (Registry.initial : Registry host)
        ∧ OneActive (Registry.initial : Registry host).operations) events
  refine ⟨hactive, ⟨hlinked, fun op _ => normalizeOperation_json op⟩,
    fun request now randomId written result hanswer more now' randomId'
      written' => mutate_of_answered hlinked hanswer more now' randomId'
        written',
    fun o s w t now randomId written hdecided => ?_, fun hallowed => ?_⟩
  · obtain ⟨hsucceed, hfail⟩ := refused_of_decided t now randomId written
    exact ⟨fun e evidence hevidence => hsucceed e evidence hevidence hdecided,
      fun x error herror => hfail x error herror hdecided⟩
  · have hshaped := Machine.invariant_of_allowed
      (P := fun r : Registry host => Linked r ∧ Shaped r.operations)
      (fun r e hlinks h => shaped_next hlinks h) hallowed
      ⟨linked_initial, by intro op hop; cases hop⟩
    exact hshaped.2

/-- An operation of the two applications, whose second step is linked
before its first one. -/
def exampleLink : List Event :=
  let operationId : Json := .str "0b8e6f39-2f4c-4f5e-9b6b-3d1f0f0a7c11"
  match examplePreview with
  | .error _ => []
  | .ok plan =>
      match exampleExecution plan with
      | .error _ => []
      | .ok value =>
          [.call (.create value) exampleTime
              "0b8e6f39-2f4c-4f5e-9b6b-3d1f0f0a7c11" true,
            .call (.start operationId) exampleTime "" true,
            .call (.linkStep operationId
                (.str ("backup-step:3d3cf853b78326863cfce9d5390b24c2"
                  ++ "b89e3d7b01bd4a77435beaa046a1e948"))
                (.obj [("kind", .str "job"), ("id", .str "job:1")]))
              exampleTime "" true]

/-- The registry links a step whose earlier ones are still pending. -/
theorem later_step_linked_first :
    ¬ ∀ (host : Host) (events : List Event),
      Shaped ((registry host).run Registry.initial events).operations := by
  intro h
  have hrun : (((registry exampleHost).run Registry.initial
      exampleLink).operations.all fun op => shaped op.states) = false := by
    decide +kernel
  have hall : (((registry exampleHost).run Registry.initial
      exampleLink).operations.all fun op => shaped op.states) = true :=
    List.all_eq_true.mpr (h exampleHost exampleLink)
  rw [hall] at hrun
  cases hrun

example : Text.isHex 'A' = false := by decide +kernel

end Yunpanel.Backup
