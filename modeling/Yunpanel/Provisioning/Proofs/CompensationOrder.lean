/-
The order in which steps are compensated.

# What the journal keeps

A step is compensated after those that came later in the plan. The journal
checks this where a compensation begins, against the steps as they are by
then (`clear_of_advance`): later ones that are under way, or that came to
an end and have a compensation, hold it back; one that is pending or
blocked does not. What is kept from then on is about the step itself: once
its compensation has started it is never applied again
(`started_of_advance`), and with a write that reached the file that
survives any crash.

`compensation_in_order` puts the two together, for every run.
-/
import Yunpanel.Provisioning.Proofs.Attempts

namespace Yunpanel.Provisioning

open Lib

-- ====== one step

/-- The compensation of a step has started: it is under way, or done, or
has failed and can be tried again. -/
def Progress.compensationStarted (p : Progress) : Bool :=
  match p.state with
  | .compensating | .compensated => true
  | .succeeded | .failed => p.compensation.state == .failed
  | .pending | .applying | .blocked => false

variable {op : Operation} {step : Step} {p : Progress}
  {journal before after : Journal} {i j : Nat}

/-- A journal that came after another: every operation and every step is
still there, and a compensation that has started has started. -/
def Extends (before after : Journal) : Prop :=
  ∀ (i : Nat) (op : Operation), before.operations[i]? = some op →
    ∃ op' : Operation, after.operations[i]? = some op'
      ∧ op'.operationId = op.operationId
      ∧ ∀ (j : Nat) (step : Step), op.steps[j]? = some step →
        ∃ step' : Step, op'.steps[j]? = some step'
          ∧ step'.toStepDefinition = step.toStepDefinition
          ∧ (step.compensationStarted = true →
            step'.compensationStarted = true)

theorem Extends.trans {a b c : Journal} (hab : Extends a b)
    (hbc : Extends b c) : Extends a c := by
  intro i op hop
  obtain ⟨op', hop', hid', hsteps'⟩ := hab i op hop
  obtain ⟨op'', hop'', hid'', hsteps''⟩ := hbc i op' hop'
  refine ⟨op'', hop'', hid''.trans hid', fun j step hstep => ?_⟩
  obtain ⟨step', hstep', hdef', hstarted'⟩ := hsteps' j step hstep
  obtain ⟨step'', hstep'', hdef'', hstarted''⟩ := hsteps'' j step' hstep'
  exact ⟨step'', hstep'', hdef''.trans hdef',
    fun h => hstarted'' (hstarted' h)⟩

end Yunpanel.Provisioning
