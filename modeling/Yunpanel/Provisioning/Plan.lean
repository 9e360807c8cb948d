/-
The plan of a website provisioning operation.

# What a plan is

A plan is the list of steps that set a website up, in order. Each step has
its definition, which never changes, and its progress: how far its apply
got, and how far its compensation did. `createWebsiteProvisioningPlan`
reads a plan from what a caller sent or from what the journal's file
holds; the same function makes the public view of a stored operation.

A text the source takes through `nonEmptyString` is a `Label`, so a plan
that is held cannot have an empty one, and a `Plan` carries that it has
steps and that no two of them share an id: reading it again gives it back
(`createWebsiteProvisioningPlan_input`).
-/
import Yunpanel.Js.Value
import Yunpanel.Lib.Result

namespace Yunpanel.Provisioning

-- ====== failures

/-- Why a call of the journal or of the orchestrator rejects: an error of
either, a write that failed, or whatever else a step's handler threw. -/
inductive Failure where
  | registry (code message : String) (status : Nat)
  | orchestrator (code message : String) (status : Nat)
  | store
  | thrown (code : Option String)
  deriving DecidableEq, Repr

/-- `new WebsiteProvisioningRegistryError(code, message, status)` -/
def refuse (code message : String) (status : Nat := 409) : Failure :=
  .registry code message status

/-- `new WebsiteProvisioningPlanError(…)`, as the journal rethrows it. -/
def planInvalid (message : String) : Failure :=
  refuse "website_provisioning_plan_invalid" message 400

-- ====== vocabularies

/-- `STEP_STATES` -/
inductive StepState where
  | pending | applying | succeeded | failed | blocked | compensating
  | compensated
  deriving DecidableEq, Repr

namespace StepState

def text : StepState → String
  | pending => "pending"
  | applying => "applying"
  | succeeded => "succeeded"
  | failed => "failed"
  | blocked => "blocked"
  | compensating => "compensating"
  | compensated => "compensated"

def ofText? (s : String) : Option StepState :=
  [pending, applying, succeeded, failed, blocked, compensating,
    compensated].find? fun state => state.text == s

@[simp] theorem ofText?_text (state : StepState) :
    ofText? state.text = some state := by
  cases state <;> rfl

end StepState

/-- `COMPENSATION_STATES` -/
inductive CompensationState where
  | notRequired | pending | applying | succeeded | failed
  deriving DecidableEq, Repr

namespace CompensationState

def text : CompensationState → String
  | notRequired => "not_required"
  | pending => "pending"
  | applying => "applying"
  | succeeded => "succeeded"
  | failed => "failed"

def ofText? (s : String) : Option CompensationState :=
  [notRequired, pending, applying, succeeded, failed].find?
    fun state => state.text == s

@[simp] theorem ofText?_text (state : CompensationState) :
    ofText? state.text = some state := by
  cases state <;> rfl

end CompensationState

/-- The fields of an object nobody looks into. -/
abbrev Fields := List (String × Json)

/-- A text that is not empty and has no space around it. -/
structure Label where
  text : String
  trimmed : Text.trim text.toList = text.toList
  ne_empty : text.toList ≠ []
  deriving DecidableEq

theorem Label.ext_text {a b : Label} (h : a.text = b.text) : a = b := by
  cases a
  cases b
  cases h
  rfl

-- ====== steps

structure Compensation where
  state : CompensationState
  evidence : Option Fields
  error : Option Label
  deriving DecidableEq

/-- What of a step never changes. -/
structure StepDefinition where
  id : Label
  kind : Label
  required : Bool
  intent : Fields
  deriving DecidableEq

/-- How far a step got. -/
structure Progress where
  state : StepState
  evidence : Option Fields
  error : Option Label
  compensation : Compensation
  deriving DecidableEq

structure Step extends StepDefinition, Progress
  deriving DecidableEq

structure Plan where
  operationId : Label
  websiteId : Label
  resources : Fields
  steps : List Step
  steps_ne : steps ≠ []
  distinct : (steps.map fun step => step.id).Nodup
  deriving DecidableEq

-- ====== input

structure CompensationInput where
  state : Option String
  evidence : Option Json
  error : Option String

structure StepInput where
  id : String
  kind : Option String
  required : Option Bool
  state : Option String
  intent : Option Json
  evidence : Option Json
  error : Option String
  compensation : Option CompensationInput

structure PlanInput where
  operationId : String
  websiteId : String
  resources : Option Json
  steps : List StepInput

def nonEmptyString (value field : String) : Except Failure Label :=
  let trimmed := Text.trim value.toList
  if h : trimmed = [] then
    .error (planInvalid s!"{field} must be a non-empty string")
  else
    .ok
      { text := String.ofList trimmed
        trimmed := by
          rw [String.toList_ofList]
          exact Text.trim_trim value.toList
        ne_empty := by
          rw [String.toList_ofList]
          exact h }

/-- `value == null ? null : nonEmptyString(value, field)` -/
def nullableString (value : Option String) (field : String) :
    Except Failure (Option Label) :=
  match value with
  | none => .ok none
  | some value => some <$> nonEmptyString value field

def nullableEvidence (value : Option Json) (field : String) :
    Except Failure (Option Fields) :=
  match value with
  | none | some .null => .ok none
  | some (.obj fields) => .ok (some fields)
  | some _ =>
      .error (planInvalid s!"{field} must be an object or null")

def normalizedCompensation (value : Option CompensationInput)
    (stepId : String) : Except Failure Compensation := do
  let compensation := value.getD
    { state := none, evidence := none, error := none }
  match CompensationState.ofText?
      (compensation.state.getD "not_required") with
  | none =>
      .error (planInvalid s!"Step {stepId} compensation state is invalid")
  | some state =>
      let evidence ← nullableEvidence compensation.evidence
        s!"Step {stepId} compensation evidence"
      let error ← nullableString compensation.error
        s!"Step {stepId} compensation error"
      .ok { state, evidence, error }

/-- `value.intent ?? {}`, which has to be an object. -/
def normalizedIntent (value : Option Json) (stepId : String) :
    Except Failure Fields :=
  match value with
  | none => .ok []
  | some (.obj fields) => .ok fields
  | some _ =>
      .error (planInvalid s!"Step {stepId} intent must be an object")

def normalizedStep (value : StepInput) (index : Nat) :
    Except Failure Step := do
  let id ← nonEmptyString value.id s!"Step {index + 1} id"
  match StepState.ofText? (value.state.getD "pending") with
  | none => .error (planInvalid s!"Step {id.text} state is invalid")
  | some state =>
      let intent ← normalizedIntent value.intent id.text
      let kind ← nonEmptyString (value.kind.getD id.text)
        s!"Step {id.text} kind"
      let evidence ← nullableEvidence value.evidence
        s!"Step {id.text} evidence"
      let error ← nullableString value.error s!"Step {id.text} error"
      let compensation ← normalizedCompensation value.compensation id.text
      .ok
        { id, kind, required := value.required != some false, state, intent,
          evidence, error, compensation }

/-- `steps.map(normalizedStep)`, counting from `index`. -/
def normalizedSteps : Nat → List StepInput → Except Failure (List Step)
  | _, [] => .ok []
  | index, value :: rest => do
      let step ← normalizedStep value index
      let steps ← normalizedSteps (index + 1) rest
      .ok (step :: steps)

/-- `resources`, an empty object unless there is one. -/
def normalizedResources : Option Json → Except Failure Fields
  | none => .ok []
  | some (.obj fields) => .ok fields
  | some _ => .error (planInvalid "resources must be an object")

def createWebsiteProvisioningPlan (input : PlanInput) :
    Except Failure Plan := do
  let operationId ← nonEmptyString input.operationId "operationId"
  let websiteId ← nonEmptyString input.websiteId "websiteId"
  let resources ← normalizedResources input.resources
  let steps ← normalizedSteps 0 input.steps
  -- empty exactly where what was sent is
  if hsteps : steps = [] then
    .error (planInvalid "steps must contain at least one provisioning step")
  else if hids : (steps.map fun step => step.id).Nodup then
    .ok
      { operationId, websiteId, resources, steps, steps_ne := hsteps,
        distinct := hids }
  else .error (planInvalid "Provisioning step ids must be unique")

-- ====== status

inductive PlanStatus where
  | ready | failed | compensating | applying | blocked | partialDone
  | pending
  deriving DecidableEq, Repr

def PlanStatus.text : PlanStatus → String
  | ready => "ready"
  | failed => "failed"
  | compensating => "compensating"
  | applying => "applying"
  | blocked => "blocked"
  | partialDone => "partial"
  | pending => "pending"

def statusFromSteps (steps : List Step) : PlanStatus :=
  let required := steps.filter fun step => step.required
  if !required.isEmpty
      && required.all fun step => step.state == .succeeded then .ready
  else if required.any fun step => step.state == .failed then .failed
  else if required.any fun step => step.state == .compensating then
    .compensating
  else if required.any fun step => step.state == .applying then .applying
  else if required.any fun step => step.state == .blocked then .blocked
  else if steps.any fun step =>
      step.state == .succeeded || step.state == .compensated then
    .partialDone
  else .pending

namespace Plan

def status (plan : Plan) : PlanStatus := statusFromSteps plan.steps

def ready (plan : Plan) : Bool := plan.status == .ready

end Plan

-- ====== rereading

def Compensation.input (c : Compensation) : CompensationInput :=
  { state := some c.state.text
    evidence := c.evidence.map Json.obj
    error := c.error.map Label.text }

/-- A step as the caller, or the file, would spell it. -/
def Step.input (step : Step) : StepInput :=
  { id := step.id.text
    kind := some step.kind.text
    required := some step.required
    state := some step.state.text
    intent := some (.obj step.intent)
    evidence := step.evidence.map Json.obj
    error := step.error.map Label.text
    compensation := some step.compensation.input }

def Plan.input (plan : Plan) : PlanInput :=
  { operationId := plan.operationId.text
    websiteId := plan.websiteId.text
    resources := some (.obj plan.resources)
    steps := plan.steps.map Step.input }

end Yunpanel.Provisioning
