/-
Driving a provisioning operation.

# What the orchestrator does

`runNext` reads the journal and decides on one thing to do: reconcile a
step that a stopped process left applying, refresh a blocked one, or begin
the next pending one and run its handler. `compensateStep` begins the
compensation of a step and runs its handler. Everything asked of the
journal is awaited, so between any two segments of a call other calls run.

# How a call is written

What a segment decides on is a `Next`; where it has to wait it leaves a
`Stage`, and where it waits for the journal the stage holds an `After`,
what it does with the journal's answer. The two calls that the source
wraps in `try` have an `After` of their own for every request inside, and
`caught` is what their `catch` does.
-/
import Yunpanel.Provisioning.Registry
import Yunpanel.Lib.Flight

namespace Yunpanel.Provisioning

open Lib

-- ====== handlers

/-- Which functions the handler of a kind of step has. -/
structure Handler where
  apply : Bool
  inspect : Bool
  compensate : Bool
  inspectCompensation : Bool

/-- The handler of each kind; one that is not there has no function. -/
abbrev Handlers := String → Handler

/-- `new WebsiteProvisioningOrchestratorError(code, message, status)` -/
def orchestratorError (code message : String) (status : Nat := 409) :
    Failure :=
  .orchestrator code message status

def handlerFor (handlers : Handlers) (step : Step) :
    Except Failure Handler :=
  let handler := handlers step.kind.text
  if handler.apply then .ok handler
  else
    .error (orchestratorError "website_provisioning_handler_unavailable"
      s!"Provisioning handler is unavailable for {step.kind.text}" 503)

def compensationHandlerFor (handlers : Handlers) (step : Step) :
    Except Failure Handler :=
  let handler := handlers step.kind.text
  if handler.compensate then .ok handler
  else
    .error (orchestratorError "website_provisioning_compensation_unavailable"
      s!"Provisioning compensation is unavailable for {step.kind.text}"
      503)

/-- `error.code`, where it is a string. -/
def Failure.code? : Failure → Option String
  | .registry code _ _ | .orchestrator code _ _ => some code
  | .store => none
  | .thrown code => code

/-- `/^[a-z0-9_]{1,80}$/` -/
def isPublicCode (code : String) : Bool :=
  Text.inClass (fun c => Text.isDigit c || Text.isLower c || c == '_')
    1 80 code

def publicErrorCode (code : Option String)
    (fallback : String := "website_provisioning_step_failed") : String :=
  match code with
  | some code => if isPublicCode code then code else fallback
  | none => fallback

/-- `evidence(value)` -/
def evidence : Json → Option Fields
  | .obj fields => some fields
  | _ => none

def field (key : String) (fields : Fields) : Option Json :=
  (fields.find? fun entry => entry.1 == key).map Prod.snd

/-- The reason given in an answer, where it is a string. -/
def reason (fields : Fields) : Option String :=
  match field "reason" fields with
  | some (.str code) => some code
  | _ => none

-- ====== results

inductive RunOutcome where
  | ready | reconciled | progressed | blocked | failed | interrupted
  | compensated | compensationFailed | compensationInterrupted
  deriving DecidableEq, Repr

def RunOutcome.text : RunOutcome → String
  | ready => "ready"
  | reconciled => "reconciled"
  | progressed => "progressed"
  | blocked => "blocked"
  | failed => "failed"
  | interrupted => "interrupted"
  | compensated => "compensated"
  | compensationFailed => "compensation_failed"
  | compensationInterrupted => "compensation_interrupted"

inductive ActionRequired where
  | inspectOrRemediate | inspectOrRemediateCompensation
  | remediateOrCompensate | continueCompensationOrRemediate | remediate
  | retry | retryCompensationOrRemediate
  deriving DecidableEq, Repr

def ActionRequired.text : ActionRequired → String
  | inspectOrRemediate => "inspect_or_remediate"
  | inspectOrRemediateCompensation => "inspect_or_remediate_compensation"
  | remediateOrCompensate => "remediate_or_compensate"
  | continueCompensationOrRemediate =>
      "continue_compensation_or_remediate"
  | remediate => "remediate"
  | retry => "retry"
  | retryCompensationOrRemediate => "retry_compensation_or_remediate"

structure RunResult where
  operation : Operation
  outcome : RunOutcome
  stepId : Option Label := none
  actionRequired : Option ActionRequired := none
  error : Option String := none

inductive Reply where
  | operation (op : Operation)
  | result (r : RunResult)

-- ====== stages

/-- A call of the orchestrator, or a request made of the journal by
someone else. -/
inductive Call where
  | journal (r : Request)
  | runNext (operationId : String)
  | retryStep (operationId stepId : String)
  | compensateStep (operationId stepId : String)

/-- Why a step is being inspected. -/
inductive Inspection where
  | interrupted | compensation | blocked
  deriving DecidableEq

/-- What a call does once the journal has answered its request. -/
inductive After where
  | answer
  | run (operationId : String)
  | result (outcome : RunOutcome) (step : Step)
      (actionRequired : Option ActionRequired) (error : Option String)
  /-- `reconciled`, or `ready` where that was the last step. -/
  | reconciled (step : Step)
  | refresh (operationId : Label) (step : Step) (code : String)
      (inspected : Fields)
  | reconcile (operationId : Label) (step : Step) (inspected : Fields)
  | apply (operationId : Label) (step : Step)
  | tryBlocked (operationId : Label) (step : Step) (code : String)
  | tryProgressed (operationId : Label) (step : Step)
  | compensate (operationId : Label) (step : Step)
  | tryFailed (operationId : Label) (step : Step) (code : String)
  | tryCompensated (operationId : Label) (step : Step)

inductive Stage where
  | starting (c : Call)
  | asking (r : Request) (k : After)
  | waiting (ticket : Nat) (k : After)
  | inspecting (why : Inspection) (op : Operation) (step : Step)
  | applying (op : Operation) (step : Step)
  | compensating (op : Operation) (step : Step)

/-- What a segment comes to. -/
inductive Next where
  | ask (r : Request) (k : After)
  | inspect (why : Inspection) (op : Operation) (step : Step)
  | apply (operationId : Label) (op : Operation) (step : Step)
  | compensate (operationId : Label) (op : Operation) (step : Step)
  | run (operationId : String)
  | done (r : Except Failure Reply)

/-- What a call did that others can see. -/
inductive Note where
  /-- It moved a step from pending to applying. -/
  | began (operationId stepId : Label)
  /-- It invoked the step's `apply`. -/
  | applied (operationId stepId : Label)
  /-- It moved a step to compensating. -/
  | beganCompensation (operationId stepId : Label)
  /-- It invoked the step's `compensate`. -/
  | compensated (operationId stepId : Label)
  | finished (r : Except Failure Reply)

def Next.done' (r : RunResult) : Next := .done (.ok (.result r))

-- ====== reconciliation

def Inspection.unresolved (why : Inspection) (op : Operation) (step : Step)
    (error : Option String) : Next :=
  match why with
  | interrupted => .done'
      { operation := op, outcome := .interrupted, stepId := some step.id
        actionRequired := some .inspectOrRemediate, error }
  | compensation => .done'
      { operation := op, outcome := .compensationInterrupted
        stepId := some step.id
        actionRequired := some .inspectOrRemediateCompensation, error }
  | blocked => .done'
      { operation := op, outcome := .blocked, stepId := some step.id
        actionRequired := some .remediateOrCompensate, error }

/-- The fallback code of a failed inspection. -/
def Inspection.fallback : Inspection → String
  | compensation => "website_provisioning_compensation_inspection_failed"
  | _ => "website_provisioning_step_failed"

/-- What `reconcileInterrupted`, `reconcileInterruptedCompensation` and
`reconcileBlocked` make of an inspection. -/
def inspected (why : Inspection) (op : Operation) (step : Step)
    (outcome : Except Failure (Option Fields)) : Next :=
  match outcome with
  | .error e =>
      why.unresolved op step
        (some (publicErrorCode e.code? why.fallback))
  | .ok none => why.unresolved op step none
  | .ok (some fields) =>
      let operationId := op.operationId.text
      let satisfied := field "satisfied" fields == some (.bool true)
      match why with
      | .interrupted =>
          if satisfied then
            .ask (.completeStep operationId step.id.text (.obj fields))
              (.reconciled step)
          else if field "satisfied" fields == some (.bool false)
              && field "retryable" fields == some (.bool true) then
            let code := publicErrorCode (reason fields)
              "website_provisioning_retry_required"
            .ask (.failStep operationId step.id.text code
                (some (.obj fields)))
              (.result .failed step (some .retry) (some code))
          else why.unresolved op step none
      | .compensation =>
          if satisfied then
            .ask (.completeCompensation operationId step.id.text
                (.obj fields))
              (.result .compensated step none none)
          else why.unresolved op step none
      | .blocked =>
          if satisfied then
            .ask (.beginStep operationId step.id.text)
              (.reconcile op.operationId step fields)
          else
            .ask (.beginStep operationId step.id.text)
              (.refresh op.operationId step
                (publicErrorCode (reason fields)
                  "website_provisioning_blocked")
                fields)

/-- `inspectStep` and `inspectCompensation`, up to where they wait for the
handler. -/
def inspect (handlers : Handlers) (why : Inspection) (op : Operation)
    (step : Step) : Next :=
  let found := match why with
    | .compensation => (compensationHandlerFor handlers step).map
        Handler.inspectCompensation
    | _ => (handlerFor handlers step).map Handler.inspect
  match found with
  | .error e => inspected why op step (.error e)
  | .ok false => inspected why op step (.ok none)
  | .ok true => .inspect why op step

-- ====== driving

def Step.terminal (step : Step) : Bool :=
  step.required && (step.state == .failed || step.state == .compensated)

/-- `runNext`, from the operation it read. -/
def runNext (handlers : Handlers) (op : Operation) : Next :=
  if op.ready then
    .done' { operation := op, outcome := .ready }
  else
    match op.steps.find? fun step => step.state == .applying with
    | some step => inspect handlers .interrupted op step
    | none =>
    match op.steps.find? fun step => step.state == .compensating with
    | some step => inspect handlers .compensation op step
    | none =>
    match op.steps.find? fun step =>
        step.required && step.state == .blocked with
    | some step => inspect handlers .blocked op step
    | none =>
    match op.steps.find? Step.terminal with
    | some step => .done'
        { operation := op, outcome := .blocked, stepId := some step.id
          actionRequired :=
            if step.state = .compensated then
              some .continueCompensationOrRemediate
            else some .remediateOrCompensate }
    | none =>
    match op.steps.find? fun step => step.state == .pending with
    | none => .done'
        { operation := op, outcome := .blocked
          actionRequired := some .remediate }
    | some step =>
        match handlerFor handlers step with
        | .error e => .done (.error e)
        | .ok _ =>
            .ask (.beginStep op.operationId.text step.id.text)
              (.apply op.operationId step)

def notFound : Failure :=
  orchestratorError "website_provisioning_not_found"
    "Website provisioning operation was not found" 404

/-- `compensateStep`, from the operation it read. -/
def compensateStep (handlers : Handlers) (op : Operation)
    (stepId : String) : Next :=
  match op.steps.find? fun step => step.id.text == stepId with
  | none =>
      .done (.error (orchestratorError "website_provisioning_step_not_found"
        "Website provisioning step was not found" 404))
  | some step =>
      if step.compensation.state = .notRequired then
        .done (.error (orchestratorError
          "website_provisioning_compensation_not_required"
          "Provisioning step does not require compensation"))
      else if step.state = .compensating then
        inspect handlers .compensation op step
      else
        match compensationHandlerFor handlers step with
        | .error e => .done (.error e)
        | .ok _ =>
            .ask (.beginCompensation op.operationId.text stepId)
              (.compensate op.operationId step)

/-- `registry.get` -/
def get (journal : Journal) (operationId : String) : Option Operation :=
  journal.operations.find? fun op => op.operationId.text == operationId

/-- The first segment of a call. -/
def Call.start (handlers : Handlers) (held : Journal) : Call → Next
  | .journal r => .ask r .answer
  | .runNext operationId =>
      match get held operationId with
      | none => .done (.error notFound)
      | some op => Provisioning.runNext handlers op
  | .retryStep operationId stepId =>
      .ask (.retryStep operationId stepId) (.run operationId)
  | .compensateStep operationId stepId =>
      match get held operationId with
      | none => .done (.error notFound)
      | some op => Provisioning.compensateStep handlers op stepId

/-- The `catch` of `runNext`. -/
def caught (operationId : Label) (step : Step) (e : Failure) : Next :=
  match e with
  | .registry "website_provisioning_evidence_required" _ _ =>
      .done (.error e)
  | _ =>
      let code := publicErrorCode e.code?
      .ask (.failStep operationId.text step.id.text code none)
        (.result .failed step none (some code))

def compensationFailed (operationId : Label) (step : Step)
    (code : String) (k : After) : Next :=
  .ask (.failCompensation operationId.text step.id.text code) k

/-- The `catch` of `compensateStep`. -/
def caughtCompensation (operationId : Label) (step : Step)
    (e : Failure) : Next :=
  let code := publicErrorCode e.code?
    "website_provisioning_compensation_failed"
  compensationFailed operationId step code
    (.result .compensationFailed step
      (some .retryCompensationOrRemediate) (some code))

/-- What `runNext` makes of what `apply` returned or threw. -/
def applied (op : Operation) (step : Step) (value : Except Failure Json) :
    Next :=
  let operationId := op.operationId
  match value with
  | .error e => caught operationId step e
  | .ok value =>
      match evidence value with
      | none =>
          caught operationId step
            (orchestratorError "website_provisioning_evidence_required"
              "Provisioning handler did not return completion evidence"
              500)
      | some fields =>
          if field "satisfied" fields == some (.bool false) then
            let code := match field "reason" fields with
              | none | some .null => "website_provisioning_blocked"
              | some (.str code) => publicErrorCode (some code)
              | some _ => publicErrorCode none
            .ask (.blockStep operationId.text step.id.text code
                (some (.obj fields)))
              (.tryBlocked operationId step code)
          else
            .ask (.completeStep operationId.text step.id.text
                (.obj fields))
              (.tryProgressed operationId step)

/-- What `compensateStep` makes of what `compensate` returned or threw. -/
def compensated (op : Operation) (step : Step)
    (value : Except Failure Json) : Next :=
  let operationId := op.operationId
  match value with
  | .error e => caughtCompensation operationId step e
  | .ok value =>
      match evidence value with
      | some fields =>
          if field "satisfied" fields == some (.bool false) then
            let code := publicErrorCode (reason fields)
              "website_provisioning_compensation_failed"
            compensationFailed operationId step code
              (.tryFailed operationId step code)
          else
            .ask (.completeCompensation operationId.text step.id.text
                (.obj fields))
              (.tryCompensated operationId step)
      | none =>
          let code := publicErrorCode none
            "website_provisioning_compensation_failed"
          compensationFailed operationId step code
            (.tryFailed operationId step code)

/-- What a call does with the journal's answer. -/
def After.resume : After → Except Failure Operation → Next
  | answer, r => .done (r.map Reply.operation)
  | run _, .error e => .done (.error e)
  | run operationId, .ok _ => .run operationId
  | result _ _ _ _, .error e => .done (.error e)
  | result outcome step actionRequired error, .ok op => .done'
      { operation := op, outcome, stepId := some step.id, actionRequired,
        error }
  | reconciled _, .error e => .done (.error e)
  | reconciled step, .ok op => .done'
      { operation := op
        outcome := if op.ready then .ready else .reconciled
        stepId := some step.id }
  | refresh _ _ _ _, .error e => .done (.error e)
  | refresh operationId step code inspected, .ok _ =>
      .ask (.blockStep operationId.text step.id.text code
          (some (.obj inspected)))
        (.result .blocked step (some .remediateOrCompensate) (some code))
  | reconcile _ _ _, .error e => .done (.error e)
  | reconcile operationId step inspected, .ok op =>
      if (op.steps.find? fun other => other.id == step.id).any
          fun other => other.state == .applying then
        .ask (.completeStep operationId.text step.id.text (.obj inspected))
          (.reconciled step)
      else
        .done (.error (orchestratorError
          "website_provisioning_transition_invalid"
          "Blocked provisioning step could not enter reconciliation"))
  | apply _ _, .error e => .done (.error e)
  | apply operationId step, .ok op =>
      match op.steps.find? fun other => other.id == step.id with
      | some current => .apply operationId op current
      | none => caught operationId step (.thrown none)
  | tryBlocked operationId step _, .error e => caught operationId step e
  | tryBlocked _ step code, .ok op => .done'
      { operation := op, outcome := .blocked, stepId := some step.id
        actionRequired := some .remediateOrCompensate, error := some code }
  | tryProgressed operationId step, .error e => caught operationId step e
  | tryProgressed _ step, .ok op => .done'
      { operation := op
        outcome := if op.ready then .ready else .progressed
        stepId := some step.id }
  | compensate _ _, .error e => .done (.error e)
  | compensate operationId step, .ok op =>
      match op.steps.find? fun other => other.id == step.id with
      | some current => .compensate operationId op current
      | none => caughtCompensation operationId step (.thrown none)
  | tryFailed operationId step _, .error e => caughtCompensation operationId step e
  | tryFailed _ step code, .ok op => .done'
      { operation := op, outcome := .compensationFailed
        stepId := some step.id
        actionRequired := some .retryCompensationOrRemediate
        error := some code }
  | tryCompensated operationId step, .error e => caughtCompensation operationId step e
  | tryCompensated _ step, .ok op => .done'
      { operation := op, outcome := .compensated, stepId := some step.id }

-- ====== machine

/-- What a segment is given: the clock, and what the handler it waited
for returned or threw. -/
structure Answer where
  now : Instant
  value : Except Failure Json

abbrev JournalDesk := Desk Journal Failure Operation

/-- Go on with what a segment came to. -/
def Next.enter : Next → Option Stage × List Note
  | ask r k => (some (.asking r k), [])
  | inspect why op step => (some (.inspecting why op step), [])
  | apply operationId op step =>
      (some (.applying op step), [.applied operationId step.id])
  | compensate operationId op step =>
      (some (.compensating op step), [.compensated operationId step.id])
  | run operationId => (some (.starting (.runNext operationId)), [])
  | done r => (none, [.finished r])

/-- The operation and the step a request names. -/
def found (journal : Journal) (operationId stepId : String) :
    Option (Operation × Step) :=
  match locate (fun op => op.operationId.text == operationId)
      journal.operations with
  | none => none
  | some (_, op) =>
      (locate (fun step => step.id.text == stepId) op.steps).map
        fun located => (op, located.2)

/-- The transition a request that is written makes. -/
def Request.transition (journal : Journal) : Request → List Note
  | beginStep operationId stepId =>
      match found journal operationId stepId with
      | some (op, step) =>
          if step.state = .pending then [.began op.operationId step.id]
          else []
      | none => []
  | beginCompensation operationId stepId =>
      match found journal operationId stepId with
      | some (op, step) => [.beganCompensation op.operationId step.id]
      | none => []
  | _ => []

/-- One segment of a call. -/
def resume (handlers : Handlers) (desk : JournalDesk) (stage : Stage)
    (answer : Answer) : JournalDesk × Option Stage × List Note :=
  match stage with
  | .starting c => (desk, (c.start handlers desk.mem).enter)
  | .asking r k =>
      match desk.ask (r.effect answer.now) with
      | (desk', .told result) => (desk', (k.resume result).enter)
      | (desk', .ticket n) =>
          (desk', some (.waiting n k), r.transition desk.mem)
  | .waiting n k =>
      match desk.collect n with
      | some (.resolved op) => (desk, (k.resume (.ok op)).enter)
      | some (.rejected e) => (desk, (k.resume (.error e)).enter)
      | _ => (desk, some stage, [])
  | .inspecting why op step =>
      (desk, (inspected why op step (answer.value.map evidence)).enter)
  | .applying op step => (desk, (applied op step answer.value).enter)
  | .compensating op step =>
      (desk, (compensated op step answer.value).enter)

/-- What a process that starts again finds. -/
def reopen (desk : JournalDesk) : JournalDesk :=
  match init desk.file.operations with
  | .ok journal => Desk.opened journal
  | .error _ => desk

def protocol (handlers : Handlers) :
    Protocol JournalDesk Call Stage Answer Bool Note where
  enter := .starting
  resume := resume handlers
  world := fun desk ok => desk.settle .store ok
  reopen := reopen

/-- What happens next: a call comes in, a call goes on, a write settles,
or the process starts again. -/
abbrev Event := Flight.Event Call Answer Bool

def machine (handlers : Handlers) :
    Machine (Flight JournalDesk Stage) Event (List (Nat × Note)) :=
  (protocol handlers).machine

/-- An empty journal, and nobody calling. -/
def initial : Flight JournalDesk Stage :=
  .fresh (Desk.opened Journal.empty)

end Yunpanel.Provisioning
