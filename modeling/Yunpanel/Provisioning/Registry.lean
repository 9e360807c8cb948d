/-
The journal of website provisioning.

# What the journal is

The journal holds every provisioning operation there was. A request names
an operation and one of its steps and moves that step's progress on;
`onStep` looks both up and runs the request's `Turn`: it throws, finds the
step where it was to go, or says what the progress becomes. Two requests
assign the new state before they have read their arguments to the end, so
they can throw with the step moved and nothing written (`Turn.spoiled`).

A `Journal` carries that no two operations share an id, an operation that
its steps are those of a plan, so loading the file again is loading what
was written (`init_eq`).
-/
import Yunpanel.Provisioning.Plan
import Yunpanel.Lib.Desk
import Yunpanel.Lib.Table

namespace Yunpanel.Provisioning

open Lib

-- ====== records

structure Operation extends Plan where
  createdAt : Instant
  updatedAt : Instant
  deriving DecidableEq

def Step.withProgress (step : Step) (p : Progress) : Step :=
  { step with toProgress := p }

/-- The operation with the progress of one step replaced. -/
def Operation.advance (op : Operation) (index : Nat) (p : Progress) :
    Operation :=
  { op with
    steps := op.steps.modify index fun step => step.withProgress p
    steps_ne := by
      apply List.ne_nil_of_length_pos
      rw [List.length_modify]
      exact List.length_pos_iff.mpr op.steps_ne
    distinct := by
      have hids := map_modify (f := fun step : Step => step.id)
        (g := fun step => step.withProgress p) (fun _ => rfl) op.steps index
      exact hids ▸ op.distinct }

/-- `state.operations` -/
structure Journal where
  operations : List Operation
  distinct : (operations.map fun op => op.operationId).Nodup

def Journal.empty : Journal := { operations := [], distinct := by simp }

/-- The journal with one operation changed, and none renamed. -/
def Journal.modify (journal : Journal) (index : Nat)
    (f : Operation → Operation)
    (hf : ∀ op, (f op).operationId = op.operationId) : Journal :=
  { operations := journal.operations.modify index f
    distinct := by
      have hids := map_modify (f := fun op : Operation => op.operationId)
        hf journal.operations index
      exact hids ▸ journal.distinct }

-- ====== arguments

def requiredEvidence (value : Json) : Except Failure Fields :=
  match value with
  | .obj (field :: fields) => .ok (field :: fields)
  | _ =>
      .error (refuse "website_provisioning_evidence_required"
        "Successful provisioning steps require explicit evidence" 400)

/-- `evidence == null ? null : requiredEvidence(evidence)` -/
def optionalEvidence (value : Option Json) :
    Except Failure (Option Fields) :=
  match value with
  | none | some .null => .ok none
  | some value => some <$> requiredEvidence value

def transitionInvalid (message : String) (status : Nat := 409) : Failure :=
  refuse "website_provisioning_transition_invalid" message status

def failureCode (value : String) (field : String := "error") :
    Except Failure Label :=
  let invalid := transitionInvalid
    s!"{field} must be a bounded non-empty string" 400
  if 160 < Text.length value then .error invalid
  else
    match nonEmptyString value field with
    | .ok label => .ok label
    | .error _ => .error invalid

-- ====== compensation order

def blocksEarlierCompensation (step : Step) : Bool :=
  match step.state with
  | .applying | .compensating => true
  | .succeeded | .failed => step.compensation.state != .notRequired
  | _ => false

def findBlockingLaterCompensationStep (op : Operation)
    (stepId : String) : Option Step :=
  match locate (fun step => step.id.text == stepId) op.steps with
  | none => none
  | some (index, _) =>
      (op.steps.drop (index + 1)).find? blocksEarlierCompensation

-- ====== turns

/-- What a request does to the step it names. -/
inductive Turn where
  | refused (e : Failure)
  /-- The step is where the request would have it. -/
  | same
  | changed (p : Progress)
  /-- It threw after the step was moved, and nothing is written. -/
  | spoiled (p : Progress) (e : Failure)

def beginStep (step : Step) : Turn :=
  match step.state with
  | .applying => .same
  | .pending | .blocked =>
      .changed { step.toProgress with state := .applying, error := none }
  | _ =>
      .refused (transitionInvalid
        "Provisioning step cannot begin from current state")

def completeStep (evidence : Json) (step : Step) : Turn :=
  match step.state with
  | .succeeded => .same
  | .applying =>
      match requiredEvidence evidence with
      | .error e => .refused e
      | .ok evidence =>
          .changed { step.toProgress with
            state := .succeeded, evidence := some evidence, error := none }
  | _ =>
      .refused (transitionInvalid
        "Only an applying provisioning step can complete")

/-- `blockStep` and `failStep`: an applying step is left in `target`. -/
def haltStep (target : StepState) (verb error : String)
    (evidence : Option Json) (step : Step) : Turn :=
  if step.state ≠ .applying then
    .refused (transitionInvalid
      s!"Only an applying provisioning step can {verb}")
  else
    -- `step.state` is assigned before the arguments are read
    let halted := { step.toProgress with state := target }
    match failureCode error with
    | .error e => .spoiled halted e
    | .ok error =>
        match optionalEvidence evidence with
        | .error e => .spoiled { halted with error := some error } e
        | .ok evidence => .changed { halted with error := some error, evidence }

def blockStep : String → Option Json → Step → Turn :=
  haltStep .blocked "block"

def failStep : String → Option Json → Step → Turn :=
  haltStep .failed "fail"

def retryStep (step : Step) : Turn :=
  if step.state ≠ .failed ∨ (step.compensation.state ≠ .pending
      ∧ step.compensation.state ≠ .notRequired) then
    .refused (refuse "website_provisioning_retry_invalid"
      ("Only a failed provisioning step without active compensation "
        ++ "can be retried"))
  else
    .changed { step.toProgress with
      state := .pending, error := none, evidence := none }

def beginCompensation (op : Operation) (step : Step) : Turn :=
  if step.compensation.state = .applying then .same
  else if (step.state ≠ .succeeded ∧ step.state ≠ .failed)
      ∨ (step.compensation.state ≠ .pending
        ∧ step.compensation.state ≠ .failed) then
    .refused (transitionInvalid
      "Provisioning compensation cannot begin from current state")
  else if (findBlockingLaterCompensationStep op step.id.text).isSome then
    .refused (refuse "website_provisioning_compensation_order_invalid"
      "Later provisioning steps must be compensated before this step")
  else
    .changed { step.toProgress with
      state := .compensating
      compensation :=
        { step.compensation with state := .applying, error := none } }

def completeCompensation (evidence : Json) (step : Step) : Turn :=
  if step.state = .compensated ∧ step.compensation.state = .succeeded then
    .same
  else if step.state ≠ .compensating
      ∨ step.compensation.state ≠ .applying then
    .refused (transitionInvalid
      "Only an applying compensation can complete")
  else
    match requiredEvidence evidence with
    | .error e => .refused e
    | .ok evidence =>
        .changed { step.toProgress with
          state := .compensated
          compensation :=
            { state := .succeeded, evidence := some evidence,
              error := none } }

def failCompensation (error : String) (step : Step) : Turn :=
  if step.state ≠ .compensating ∨ step.compensation.state ≠ .applying then
    .refused (transitionInvalid "Only an applying compensation can fail")
  else
    match failureCode error "compensation error" with
    | .error e =>
        .spoiled { step.toProgress with
          compensation := { step.compensation with state := .failed } } e
    | .ok code =>
        .changed { step.toProgress with
          state := if step.error = none then .succeeded else .failed
          compensation := { step.compensation with
            state := .failed, error := some code } }

-- ====== requests

/-- What can be asked of the journal. -/
inductive Request where
  | create (input : PlanInput)
  | beginStep (operationId stepId : String)
  | completeStep (operationId stepId : String) (evidence : Json)
  | blockStep (operationId stepId error : String) (evidence : Option Json)
  | failStep (operationId stepId error : String) (evidence : Option Json)
  | retryStep (operationId stepId : String)
  | beginCompensation (operationId stepId : String)
  | completeCompensation (operationId stepId : String) (evidence : Json)
  | failCompensation (operationId stepId error : String)

abbrev JournalEffect := Effect Journal Failure Operation

def operationNotFound : Failure :=
  refuse "website_provisioning_not_found"
    "Website provisioning operation was not found" 404

def stepNotFound : Failure :=
  refuse "website_provisioning_step_not_found"
    "Website provisioning step was not found" 404

/-- `publicOperation(operation)` of the operation at a position, as it is
by then. -/
def publicOperation (index : Nat) (op : Operation) (journal : Journal) :
    Except Failure Operation :=
  .ok (journal.operations[index]?.getD op)

/-- The journal with one step of one operation moved on. -/
def Journal.advance (journal : Journal) (i j : Nat) (p : Progress)
    (now : Option Instant) : Journal :=
  journal.modify i
    (fun op => { op.advance j p with updatedAt := now.getD op.updatedAt })
    (fun _ => rfl)

/-- Look an operation and its step up, and let the step have its turn. -/
def onStep (operationId stepId : String) (now : Instant)
    (turn : Operation → Step → Turn) (journal : Journal) : JournalEffect :=
  match locate (fun op => op.operationId.text == operationId)
      journal.operations with
  | none => .refused operationNotFound
  | some (i, op) =>
      match locate (fun step => step.id.text == stepId) op.steps with
      | none => .refused stepNotFound
      | some (j, step) =>
          match turn op step with
          | .refused e => .refused e
          | .same => .replied op
          | .changed p =>
              .written (journal.advance i j p (some now))
                (publicOperation i op)
          | .spoiled p e => .spoiled (journal.advance i j p none) e

def samePlan (left : Operation) (right : Plan) : Bool :=
  left.operationId == right.operationId
    && left.websiteId == right.websiteId
    && left.resources == right.resources
    && (left.steps.map Step.toStepDefinition
      == right.steps.map Step.toStepDefinition)

/-- The journal with one operation more. -/
def Journal.append (journal : Journal) (op : Operation)
    (hop : ∀ other ∈ journal.operations,
      other.operationId ≠ op.operationId) : Journal :=
  { operations := journal.operations ++ [op]
    distinct := by
      rw [List.map_append, List.map_singleton, List.nodup_append]
      refine ⟨journal.distinct, List.nodup_singleton _, ?_⟩
      intro id hid id' hid' heq
      obtain ⟨other, hother, rfl⟩ := List.mem_map.mp hid
      rw [List.mem_singleton] at hid'
      exact hop other hother (heq.trans hid') }

def create (input : PlanInput) (now : Instant) (journal : Journal) :
    JournalEffect :=
  match createWebsiteProvisioningPlan input with
  | .error e => .refused e
  | .ok plan =>
      match h : journal.operations.find?
          fun op => op.operationId == plan.operationId with
      | some existing =>
          if samePlan existing plan then .replied existing
          else
            .refused (refuse "website_provisioning_conflict"
              ("Provisioning operation identity conflicts with persisted "
                ++ "state"))
      | none =>
          let op : Operation :=
            { plan with createdAt := now, updatedAt := now }
          .written
            (journal.append op fun other hother => by
              have hne := List.find?_eq_none.mp h other hother
              rwa [beq_iff_eq] at hne)
            (publicOperation journal.operations.length op)

def Request.effect (now : Instant) : Request → Journal → JournalEffect
  | create input => Provisioning.create input now
  | beginStep operationId stepId =>
      onStep operationId stepId now fun _ => Provisioning.beginStep
  | completeStep operationId stepId evidence =>
      onStep operationId stepId now fun _ =>
        Provisioning.completeStep evidence
  | blockStep operationId stepId error evidence =>
      onStep operationId stepId now fun _ =>
        Provisioning.blockStep error evidence
  | failStep operationId stepId error evidence =>
      onStep operationId stepId now fun _ =>
        Provisioning.failStep error evidence
  | retryStep operationId stepId =>
      onStep operationId stepId now fun _ => Provisioning.retryStep
  | beginCompensation operationId stepId =>
      onStep operationId stepId now Provisioning.beginCompensation
  | completeCompensation operationId stepId evidence =>
      onStep operationId stepId now fun _ =>
        Provisioning.completeCompensation evidence
  | failCompensation operationId stepId error =>
      onStep operationId stepId now fun _ =>
        Provisioning.failCompensation error

-- ====== loading

/-- `normalizeStoredOperation` of a record of the file. -/
def normalizeStoredOperation (op : Operation) :
    Except Failure Operation := do
  let plan ← createWebsiteProvisioningPlan op.toPlan.input
  .ok { plan with createdAt := op.createdAt, updatedAt := op.updatedAt }

/-- What `init` makes of the operations in the file. -/
def init (stored : List Operation) : Except Failure Journal := do
  let operations ← stored.mapM normalizeStoredOperation
  if h : (operations.map fun op => op.operationId).Nodup then
    .ok { operations, distinct := h }
  else .error (.thrown none)

end Yunpanel.Provisioning
