/-
What a request can do to the journal.

Every request but `create` moves one step of one operation on, so there is
one lemma that says where (`onStep_cases`) and one relation that lists how
(`Advance`, a constructor for each way a step's progress changes). All
that is proved about runs goes through `effect_cases`.
-/
import Yunpanel.Provisioning.Orchestrator

namespace Yunpanel.Provisioning

open Lib

-- ====== lookup

/-- Where a request's step stands. -/
structure At (journal : Journal) (operationId stepId : String)
    (i j : Nat) (op : Operation) (step : Step) : Prop where
  operation : locate (fun op => op.operationId.text == operationId)
    journal.operations = some (i, op)
  step : locate (fun step => step.id.text == stepId) op.steps
    = some (j, step)

namespace At

variable {journal : Journal} {operationId stepId : String} {i j : Nat}
  {op : Operation} {step : Step}

theorem operationId_eq (h : At journal operationId stepId i j op step) :
    op.operationId.text = operationId :=
  beq_iff_eq.mp (accepted_of_locate (p := fun op : Operation =>
    op.operationId.text == operationId) h.operation)

theorem stepId_eq (h : At journal operationId stepId i j op step) :
    step.id.text = stepId :=
  beq_iff_eq.mp (accepted_of_locate (p := fun step : Step =>
    step.id.text == stepId) h.step)

theorem found_eq (h : At journal operationId stepId i j op step) :
    found journal operationId stepId = some (op, step) := by
  unfold found
  rw [h.operation]
  dsimp only
  rw [h.step]
  rfl

end At

/-- What a turn makes of the journal. -/
def Turn.effect (journal : Journal) (i j : Nat) (op : Operation)
    (now : Instant) : Turn → JournalEffect
  | refused e => .refused e
  | same => .replied op
  | changed p =>
      .written (journal.advance i j p (some now)) (publicOperation i op)
  | spoiled p e => .spoiled (journal.advance i j p none) e

theorem onStep_cases (operationId stepId : String) (now : Instant)
    (turn : Operation → Step → Turn) (journal : Journal) :
    (found journal operationId stepId = none
        ∧ ∃ e, onStep operationId stepId now turn journal = .refused e)
      ∨ ∃ i j op step, At journal operationId stepId i j op step
        ∧ onStep operationId stepId now turn journal
          = (turn op step).effect journal i j op now := by
  unfold onStep found
  cases hop : locate (fun op => op.operationId.text == operationId)
      journal.operations with
  | none => exact .inl ⟨rfl, _, rfl⟩
  | some located =>
      obtain ⟨i, op⟩ := located
      dsimp only
      cases hstep : locate (fun step => step.id.text == stepId)
          op.steps with
      | none => exact .inl ⟨rfl, _, rfl⟩
      | some located =>
          obtain ⟨j, step⟩ := located
          refine .inr ⟨i, j, op, step, ⟨hop, hstep⟩, ?_⟩
          dsimp only
          cases turn op step <;> rfl

-- ====== advances

/-- The ways the progress of a step changes. -/
inductive Advance (op : Operation) (step : Step) : Progress → Prop where
  | begin (from_ : step.state = .pending ∨ step.state = .blocked) :
      Advance op step
        { step.toProgress with state := .applying, error := none }
  | complete (from_ : step.state = .applying) (evidence : Fields) :
      Advance op step
        { step.toProgress with
          state := .succeeded, evidence := some evidence, error := none }
  | halt (from_ : step.state = .applying) {target : StepState}
      (ended : target = .blocked ∨ target = .failed)
      (evidence : Option Fields) (error : Option Label) :
      Advance op step
        { step.toProgress with state := target, evidence, error }
  | retry (from_ : step.state = .failed)
      (unstarted : step.compensation.state = .pending
        ∨ step.compensation.state = .notRequired) :
      Advance op step
        { step.toProgress with
          state := .pending, error := none, evidence := none }
  | beginCompensation
      (from_ : step.state = .succeeded ∨ step.state = .failed)
      (unsettled : step.compensation.state = .pending
        ∨ step.compensation.state = .failed)
      (clear : findBlockingLaterCompensationStep op step.id.text = none) :
      Advance op step
        { step.toProgress with
          state := .compensating
          compensation :=
            { step.compensation with state := .applying, error := none } }
  | completeCompensation (from_ : step.state = .compensating)
      (running : step.compensation.state = .applying)
      (evidence : Fields) :
      Advance op step
        { step.toProgress with
          state := .compensated
          compensation :=
            { state := .succeeded, evidence := some evidence,
              error := none } }
  | failCompensation (from_ : step.state = .compensating)
      (running : step.compensation.state = .applying) (code : Label) :
      Advance op step
        { step.toProgress with
          state := if step.error = none then .succeeded else .failed
          compensation := { step.compensation with
            state := .failed, error := some code } }
  /-- The error code of `failCompensation` was refused half way. -/
  | spoilCompensation (from_ : step.state = .compensating)
      (running : step.compensation.state = .applying) :
      Advance op step
        { step.toProgress with
          compensation := { step.compensation with state := .failed } }

/-- The progress a turn leaves, where it leaves another. -/
def Turn.progress : Turn → Option Progress
  | changed p | spoiled p _ => some p
  | _ => none

variable {evidence : Json} {error : String}

/-- What a request leaves in memory: the journal as it was, or one
operation more, or one step moved on. -/
inductive Moves (journal : Journal) : Journal → Prop where
  | same : Moves journal journal
  | appended (op : Operation)
      (hop : ∀ other ∈ journal.operations,
        other.operationId ≠ op.operationId) :
      Moves journal (journal.append op hop)
  | advanced {operationId stepId : String} {i j : Nat} {op : Operation}
      {step : Step} {p : Progress} (now : Option Instant)
      (located : At journal operationId stepId i j op step)
      (advance : Advance op step p) :
      Moves journal (journal.advance i j p now)

end Yunpanel.Provisioning
