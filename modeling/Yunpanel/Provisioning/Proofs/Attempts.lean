/-
How often a handler runs.

A handler that changes the host must not run twice for one attempt at its
step. The requests that begin an attempt answer the second of two callers
as they answer the first, so a call cannot tell whether it began the
attempt it goes on to run. Where no call is answered so, each runs a
handler only for a transition it made itself (`once_per_transition`): a
call that begins an attempt owes one run of the handler until it has made
it, and nothing else owes one.
-/
import Yunpanel.Provisioning.Proofs.Transitions

namespace Yunpanel.Provisioning

open Lib

-- ====== sides

/-- The two things a handler does. -/
inductive Work where
  | apply | compensate
  deriving DecidableEq

/-- The call made the transition after which the handler may run. -/
def Work.begun (operationId stepId : Label) : Work → Note → Bool
  | apply, .began o s | compensate, .beganCompensation o s =>
      o == operationId && s == stepId
  | _, _ => false

/-- The call invoked the handler. -/
def Work.ran (operationId stepId : Label) : Work → Note → Bool
  | apply, .applied o s | compensate, .compensated o s =>
      o == operationId && s == stepId
  | _, _ => false

/-- What a call will do with the journal's answer is run the handler. -/
def Work.dueAfter (operationId stepId : Label) : Work → After → Nat
  | apply, .apply o step | compensate, .compensate o step =>
      if o = operationId ∧ step.id = stepId then 1 else 0
  | _, _ => 0

/-- A call whose transition is made and written, or about to be. -/
def Work.due (operationId stepId : Label) (work : Work) : Stage → Nat
  | .waiting _ k => work.dueAfter operationId stepId k
  | _ => 0

variable {o' o s : Label} {r : Request} {k : After} {next : Next}
  {journal : Journal} {now : Instant} {step' : Step}
  {f : Flight JournalDesk Stage} {id : Nat} {a : Answer}

/-- One note is one for the step it is about and none for another. -/
theorem countP_single {p : Note → Bool} {note : Note} {s' : Label}
    (h : p note = (o' == o && s' == s)) :
    [note].countP p = if o' = o ∧ s' = s then 1 else 0 := by
  rw [List.countP_singleton, h]
  by_cases hsame : o' = o ∧ s' = s
  · simp [hsame]
  · rw [if_neg hsame, if_neg]
    simpa using hsame

-- ====== requests

/-- A call about to begin an attempt names the step it will run. -/
def Stage.Named : Stage → Prop
  | .asking r (.apply o step) => r = .beginStep o.text step.id.text
  | .asking r (.compensate o step) =>
      r = .beginCompensation o.text step.id.text
  | _ => True

/-- What a segment comes to names the step it is about to run, and runs no
more handlers than are due. -/
structure Next.Within (due : Work → Label → Label → Nat) (next : Next) :
    Prop where
  named : ∀ stage ∈ next.enter.1, stage.Named
  ran : ∀ work o s, next.enter.2.countP (work.ran o s) ≤ due work o s

/-- It runs no handler. -/
abbrev Next.Plain (next : Next) : Prop := next.Within fun _ _ _ => 0

theorem Next.plain_done (r : Except Failure Reply) :
    (Next.done r).Plain := by
  refine ⟨fun stage hstage => (by cases hstage), fun work o s => ?_⟩
  cases work <;> exact Nat.le_refl 0

theorem Next.plain_ask (h : (Stage.asking r k).Named) :
    (Next.ask r k).Plain := by
  refine ⟨fun stage hstage => ?_, fun work o s => Nat.le_refl 0⟩
  cases hstage
  exact h

theorem Next.plain_inspect (why : Inspection) (op : Operation)
    (step : Step) : (Next.inspect why op step).Plain := by
  refine ⟨fun stage hstage => ?_, fun work o s => Nat.le_refl 0⟩
  cases hstage
  trivial

variable {due : Work → Label → Label → Nat}

theorem Next.Within.of_plain (h : next.Plain) : next.Within due :=
  ⟨h.named, fun work o s => (h.ran work o s).trans (Nat.zero_le _)⟩

theorem Inspection.plain_unresolved (why : Inspection) (op : Operation)
    (step : Step) (error : Option String) :
    (why.unresolved op step error).Plain := by
  cases why <;> exact Next.plain_done _

theorem plain_inspected (why : Inspection) (op : Operation) (step : Step)
    (outcome : Except Failure (Option Fields)) :
    (inspected why op step outcome).Plain := by
  unfold inspected
  cases outcome with
  | error e => exact why.plain_unresolved op step _
  | ok found =>
      cases found with
      | none => exact why.plain_unresolved op step _
      | some fields =>
          cases why with
          | interrupted =>
              dsimp only
              split
              · exact Next.plain_ask trivial
              · split
                · exact Next.plain_ask trivial
                · exact Inspection.plain_unresolved _ op step none
          | compensation =>
              dsimp only
              split
              · exact Next.plain_ask trivial
              · exact Inspection.plain_unresolved _ op step none
          | blocked =>
              dsimp only
              split
              · exact Next.plain_ask trivial
              · exact Next.plain_ask trivial

theorem plain_inspect (handlers : Handlers) (why : Inspection)
    (op : Operation) (step : Step) :
    (inspect handlers why op step).Plain := by
  unfold inspect
  dsimp only
  split
  · exact plain_inspected why op step _
  · exact plain_inspected why op step _
  · exact Next.plain_inspect why op step

theorem plain_runNext (handlers : Handlers) (op : Operation) :
    (runNext handlers op).Plain := by
  unfold runNext
  split
  · exact Next.plain_done _
  · split
    · exact plain_inspect handlers _ op _
    · split
      · exact plain_inspect handlers _ op _
      · split
        · exact plain_inspect handlers _ op _
        · split
          · exact Next.plain_done _
          · split
            · exact Next.plain_done _
            · split
              · exact Next.plain_done _
              · exact Next.plain_ask rfl

theorem plain_compensateStep (handlers : Handlers) (op : Operation)
    (stepId : String) : (compensateStep handlers op stepId).Plain := by
  unfold compensateStep
  split
  · exact Next.plain_done _
  · rename_i step hfind
    split
    · exact Next.plain_done _
    · split
      · exact plain_inspect handlers _ op step
      · split
        · exact Next.plain_done _
        · apply Next.plain_ask
          have hid := List.find?_some hfind
          rw [beq_iff_eq] at hid
          show Request.beginCompensation _ stepId = _
          rw [hid]

theorem plain_start (handlers : Handlers) (held : Journal) (c : Call) :
    (c.start handlers held).Plain := by
  cases c with
  | journal r => exact Next.plain_ask trivial
  | runNext operationId =>
      unfold Call.start
      dsimp only
      split
      · exact Next.plain_done _
      · exact plain_runNext handlers _
  | retryStep operationId stepId => exact Next.plain_ask trivial
  | compensateStep operationId stepId =>
      unfold Call.start
      dsimp only
      split
      · exact Next.plain_done _
      · exact plain_compensateStep handlers _ stepId

theorem plain_caught (operationId : Label) (step : Step) (e : Failure) :
    (caught operationId step e).Plain := by
  unfold caught
  split
  · exact Next.plain_done _
  · exact Next.plain_ask trivial

theorem plain_caughtCompensation (operationId : Label) (step : Step)
    (e : Failure) : (caughtCompensation operationId step e).Plain :=
  Next.plain_ask trivial

theorem plain_applied (op : Operation) (step : Step)
    (value : Except Failure Json) : (applied op step value).Plain := by
  unfold applied
  cases value with
  | error e => exact plain_caught _ step e
  | ok value =>
      dsimp only
      split
      · exact plain_caught _ step _
      · split
        · exact Next.plain_ask trivial
        · exact Next.plain_ask trivial

theorem plain_compensated (op : Operation) (step : Step)
    (value : Except Failure Json) : (compensated op step value).Plain := by
  unfold compensated
  cases value with
  | error e => exact plain_caughtCompensation _ step e
  | ok value =>
      dsimp only
      split
      · split
        · exact Next.plain_ask trivial
        · exact Next.plain_ask trivial
      · exact Next.plain_ask trivial

/-- An answer that is an error runs no handler. -/
theorem plain_after_error (k : After) (e : Failure) :
    (k.resume (.error e)).Plain := by
  cases k with
  | answer | run | result | reconciled | refresh | reconcile | apply
  | compensate => exact Next.plain_done _
  | tryBlocked operationId step => exact plain_caught operationId step e
  | tryProgressed operationId step => exact plain_caught operationId step e
  | tryFailed operationId step =>
      exact plain_caughtCompensation operationId step e
  | tryCompensated operationId step =>
      exact plain_caughtCompensation operationId step e

/-- What is due after an answer is all that an answer makes a call run. -/
theorem within_after (k : After) (op : Operation) :
    (k.resume (.ok op)).Within fun work o s => work.dueAfter o s k := by
  cases k with
  | answer | result | reconciled | tryBlocked | tryProgressed | tryFailed
  | tryCompensated => exact .of_plain (Next.plain_done _)
  | run operationId =>
      refine ⟨fun stage hstage => ?_, fun work o s => Nat.zero_le _⟩
      cases hstage
      trivial
  | refresh => exact .of_plain (Next.plain_ask trivial)
  | reconcile operationId step inspected =>
      apply Next.Within.of_plain
      rw [After.resume]
      split
      · exact Next.plain_ask trivial
      · exact Next.plain_done _
  | apply operationId step =>
      rw [After.resume]
      split
      · rename_i current hfind
        have hid : current.id = step.id := by
          have hsame := List.find?_some hfind
          rwa [beq_iff_eq] at hsame
        refine ⟨fun stage hstage => ?_, fun work o s => ?_⟩
        · cases hstage
          trivial
        · cases work with
          | apply =>
              show [Note.applied operationId current.id].countP _
                ≤ if operationId = o ∧ step.id = s then 1 else 0
              rw [countP_single rfl, hid]
          | compensate => exact Nat.le_refl 0
      · exact .of_plain (plain_caught operationId step _)
  | compensate operationId step =>
      rw [After.resume]
      split
      · rename_i current hfind
        have hid : current.id = step.id := by
          have hsame := List.find?_some hfind
          rwa [beq_iff_eq] at hsame
        refine ⟨fun stage hstage => ?_, fun work o s => ?_⟩
        · cases hstage
          trivial
        · cases work with
          | apply => exact Nat.le_refl 0
          | compensate =>
              show [Note.compensated operationId current.id].countP _
                ≤ if operationId = o ∧ step.id = s then 1 else 0
              rw [countP_single rfl, hid]
      · exact .of_plain (plain_caughtCompensation operationId step _)

-- ====== segments

/-- The call that goes on is not about to begin an attempt somebody else
has begun: it finds the step pending, or its compensation not under
way. -/
def exclusive (f : Flight JournalDesk Stage) : Event → Bool
  | .answer id _ =>
      match f.stage id with
      | some (.asking (.beginStep o s) (.apply _ _)) =>
          (found f.shared.mem o s).all
            fun located => located.2.state == .pending
      | some (.asking (.beginCompensation o s) (.compensate _ _)) =>
          (found f.shared.mem o s).all
            fun located => located.2.compensation.state != .applying
      | _ => true
  | _ => true

def Exclusive (f : Flight JournalDesk Stage) (e : Event) : Prop :=
  exclusive f e = true

instance (f : Flight JournalDesk Stage) (e : Event) :
    Decidable (Exclusive f e) :=
  inferInstanceAs (Decidable (exclusive f e = true))

/-- What a segment enters is not yet waiting for a write. -/
theorem due_enter (work : Work) (o s : Label) (next : Next) :
    next.enter.1.elim 0 (work.due o s) = 0 := by
  cases next <;> rfl

theorem Next.Within.account (h : next.Within due) (work : Work)
    (o s : Label) :
    next.enter.2.countP (work.ran o s)
        + next.enter.1.elim 0 (work.due o s)
      ≤ next.enter.2.countP (work.begun o s) + due work o s := by
  have hran := h.ran work o s
  rw [due_enter]
  omega

/-- The step a request finds is the one it names. -/
theorem labels_of_at {i j : Nat} {op : Operation} {step : Step}
    (h : At journal o.text s.text i j op step) :
    op.operationId = o ∧ step.id = s :=
  ⟨Label.ext_text h.operationId_eq, Label.ext_text h.stepId_eq⟩

/-- A call that begins a pending step earns one run of its handler, where
it has to wait for the write at all. -/
theorem earned_apply (hpending : (found journal o'.text step'.id.text).all
      (fun located => located.2.state == .pending) = true) :
    (∃ e, (Request.beginStep o'.text step'.id.text).effect now journal
        = .refused e)
      ∨ (∃ next r, (Request.beginStep o'.text step'.id.text).effect now
          journal = .written next r)
        ∧ (Request.beginStep o'.text step'.id.text).transition journal
          = [.began o' step'.id] := by
  rcases onStep_cases o'.text step'.id.text now (fun _ => beginStep)
    journal with ⟨-, e, h⟩ | ⟨i, j, op, step, hat, h⟩
  · exact .inl ⟨e, h⟩
  · right
    rw [hat.found_eq, Option.all_some, beq_iff_eq] at hpending
    have hstate : step.state = .pending := hpending
    obtain ⟨ho, hs⟩ := labels_of_at hat
    constructor
    · have hturn : beginStep step = .changed
          { step.toProgress with state := .applying, error := none } := by
        unfold beginStep
        rw [hstate]
      rw [hturn] at h
      exact ⟨_, _, h⟩
    · rw [Request.transition, hat.found_eq]
      dsimp only
      rw [if_pos hstate, ho, hs]

theorem earned_compensate (hidle : (found journal o'.text step'.id.text).all
      (fun located => located.2.compensation.state != .applying)
        = true) :
    (∃ e, (Request.beginCompensation o'.text step'.id.text).effect now
        journal = .refused e)
      ∨ (∃ next r, (Request.beginCompensation o'.text step'.id.text).effect
          now journal = .written next r)
        ∧ (Request.beginCompensation o'.text step'.id.text).transition
          journal = [.beganCompensation o' step'.id] := by
  rcases onStep_cases o'.text step'.id.text now beginCompensation
    journal with ⟨-, e, h⟩ | ⟨i, j, op, step, hat, h⟩
  · exact .inl ⟨e, h⟩
  · rw [hat.found_eq, Option.all_some, bne_iff_ne] at hidle
    have hstate : step.compensation.state ≠ .applying := hidle
    obtain ⟨ho, hs⟩ := labels_of_at hat
    unfold beginCompensation at h
    rw [if_neg hstate] at h
    split at h
    · exact .inl ⟨_, h⟩
    · split at h
      · exact .inl ⟨_, h⟩
      · refine .inr ⟨⟨_, _, h⟩, ?_⟩
        rw [Request.transition, hat.found_eq]
        dsimp only
        rw [ho, hs]

/-- What is due after an answer was earned by the request it answers. -/
theorem due_le_transition (hstage : f.stage id = some (.asking r k))
    (hok : Exclusive f (.answer id a)) (hnamed : (Stage.asking r k).Named)
    (work : Work) (o s : Label) :
    (∃ e, r.effect a.now f.shared.mem = .refused e)
      ∨ (∃ next reply, r.effect a.now f.shared.mem = .written next reply)
        ∧ work.dueAfter o s k
          ≤ (r.transition f.shared.mem).countP (work.begun o s)
      ∨ work.dueAfter o s k = 0 := by
  simp only [Exclusive, exclusive, hstage] at hok
  cases k with
  | apply o' step' =>
      obtain rfl : r = .beginStep o'.text step'.id.text := hnamed
      rcases earned_apply hok with hrefused | ⟨hwritten, ht⟩
      · exact .inl hrefused
      · refine .inr (.inl ⟨hwritten, ?_⟩)
        rw [ht]
        cases work with
        | apply =>
            show (if o' = o ∧ step'.id = s then 1 else 0)
              ≤ [Note.began o' step'.id].countP _
            rw [countP_single rfl]
        | compensate => exact Nat.zero_le _
  | compensate o' step' =>
      obtain rfl : r = .beginCompensation o'.text step'.id.text := hnamed
      rcases earned_compensate hok with
        hrefused | ⟨hwritten, ht⟩
      · exact .inl hrefused
      · refine .inr (.inl ⟨hwritten, ?_⟩)
        rw [ht]
        cases work with
        | apply => exact Nat.zero_le _
        | compensate =>
            show (if o' = o ∧ step'.id = s then 1 else 0)
              ≤ [Note.beganCompensation o' step'.id].countP _
            rw [countP_single rfl]
  | answer | run | result | reconciled | refresh | reconcile | tryBlocked
  | tryProgressed | tryFailed | tryCompensated =>
      cases work <;> exact .inr (.inr rfl)

/-- A segment accounts for the handlers it runs. -/
theorem account_resume (handlers : Handlers) {stage : Stage}
    (hstage : f.stage id = some stage) (hok : Exclusive f (.answer id a))
    (hnamed : stage.Named) (work : Work) (o s : Label) :
    (resume handlers f.shared stage a).2.2.countP (work.ran o s)
        + (resume handlers f.shared stage a).2.1.elim 0 (work.due o s)
      ≤ (resume handlers f.shared stage a).2.2.countP (work.begun o s)
        + work.due o s stage := by
  cases stage with
  | starting c =>
      exact (plain_start handlers f.shared.mem c).account work o s
  | asking r k =>
      have hdue := due_le_transition hstage hok hnamed work o s
      have hask : (f.shared.ask (r.effect a.now)).2
          = (r.effect a.now f.shared.mem).asked
            (f.shared.settled.length + f.shared.store.queue.length) := rfl
      unfold resume
      dsimp only
      split
      · rename_i desk' result hsplit
        rw [hsplit] at hask
        cases result with
        | error e => exact (plain_after_error k e).account work o s
        | ok op =>
            -- an answer without a write makes nothing due
            have hzero : work.dueAfter o s k = 0 := by
              rcases hdue with ⟨e, he⟩ | ⟨⟨next, reply, he⟩, -⟩ | hzero
              · rw [he] at hask
                cases hask
              · rw [he] at hask
                cases hask
              · exact hzero
            have haccount := (within_after k op).account work o s
            rw [hzero] at haccount
            exact haccount
      · rename_i desk' n hsplit
        rw [hsplit] at hask
        have hnone : (r.transition f.shared.mem).countP (work.ran o s)
            = 0 := by
          cases r with
          | beginStep operationId stepId =>
              rw [Request.transition]
              split
              · split
                · cases work <;> rfl
                · rfl
              · rfl
          | beginCompensation operationId stepId =>
              rw [Request.transition]
              split
              · cases work <;> rfl
              · rfl
          | create | completeStep | blockStep | failStep | retryStep
          | completeCompensation | failCompensation => rfl
        show (r.transition f.shared.mem).countP (work.ran o s)
            + work.dueAfter o s k
          ≤ (r.transition f.shared.mem).countP (work.begun o s) + 0
        rw [hnone]
        rcases hdue with ⟨e, he⟩ | ⟨-, hle⟩ | hzero
        · rw [he] at hask
          cases hask
        · omega
        · omega
  | waiting n k =>
      unfold resume
      dsimp only
      split
      · exact (within_after k _).account work o s
      · rename_i e _
        have hwithin : (k.resume (.error e)).Within
            fun work o s => work.dueAfter o s k :=
          .of_plain (plain_after_error k e)
        exact hwithin.account work o s
      · exact Nat.le_refl _
  | inspecting why op step =>
      exact (plain_inspected why op step _).account work o s
  | applying op step => exact (plain_applied op step a.value).account work o s
  | compensating op step =>
      exact (plain_compensated op step a.value).account work o s

/-- Every call names, all along, the step it is about to run. -/
theorem named_resume (handlers : Handlers) (desk : JournalDesk)
    (stage : Stage) (answer : Answer) :
    ∀ stage' ∈ (resume handlers desk stage answer).2.1, stage'.Named := by
  cases stage with
  | starting c => exact (plain_start handlers desk.mem c).named
  | asking r k =>
      unfold resume
      dsimp only
      split
      · rename_i result hsplit
        cases result with
        | error e => exact (plain_after_error k e).named
        | ok op => exact (within_after k op).named
      · intro stage' hstage'
        cases hstage'
        trivial
  | waiting n k =>
      unfold resume
      dsimp only
      split
      · exact (within_after k _).named
      · exact (plain_after_error k _).named
      · intro stage' hstage'
        cases hstage'
        trivial
  | inspecting why op step => exact (plain_inspected why op step _).named
  | applying op step => exact (plain_applied op step _).named
  | compensating op step => exact (plain_compensated op step _).named

theorem keeps_named (handlers : Handlers) :
    (protocol handlers).Keeps (fun f e => Exclusive f e) (fun _ => True)
      (fun _ stage => stage.Named) where
  start := fun _ _ _ _ => trivial
  resume := fun f _ a stage _ _ _ _ =>
    ⟨trivial, named_resume handlers f.shared stage a, fun _ h => h⟩
  world := fun _ _ _ _ => ⟨trivial, fun _ h => h⟩
  restart := fun _ _ _ => trivial

-- ====== runs

/-- The callers that ran a handler of a step, each as often as it did. -/
def runners (work : Work) (operationId stepId : Label)
    (notes : List (Nat × Note)) : List Nat :=
  Protocol.callers (work.ran operationId stepId) notes

/-- The callers that made the transition after which it may run. -/
def beginners (work : Work) (operationId stepId : Label)
    (notes : List (Nat × Note)) : List Nat :=
  Protocol.callers (work.begun operationId stepId) notes

/-- In every run in which no call begins an attempt that another one is
making, whatever the order of its calls, writes and crashes, a handler of a
step is run only by the callers that began an attempt at the step, by each
at most once for every attempt it began. -/
theorem once_per_transition (handlers : Handlers) {events : List Event}
    (h : (machine handlers).Allowed Exclusive initial events)
    (work : Work) (operationId stepId : Label) :
    let notes := ((machine handlers).answers initial events).flatten
    (runners work operationId stepId notes).Subperm
      (beginners work operationId stepId notes) := by
  have hkeep := keeps_named handlers
  have hboth : (machine handlers).Allowed
      (fun f e => Exclusive f e
        ∧ Protocol.Sound (fun _ => True) (fun _ k => k.Named) f)
      initial events :=
    Machine.allowed_and_invariant
      (fun f e hok hf => Protocol.sound_next hkeep hok hf) h
      (Protocol.sound_fresh trivial)
  refine @Protocol.callers_subperm _ _ _ _ _ _ (protocol handlers) _ _ _
    (work.due operationId stepId) _ _ (fun f c _ => rfl) ?_ hboth
  intro f id a stage hok hstage
  exact account_resume handlers hstage hok.1
    (hok.2.calls stage (Protocol.mem_calls_of_stage hstage)) work
    operationId stepId

-- ====== samples

/-- Handlers that can apply and compensate, and inspect nothing. -/
def plainHandlers : Handlers :=
  fun _ =>
    { apply := true, inspect := false, compensate := true,
      inspectCompensation := false }

def sampleStep (id : String) : StepInput :=
  { id, kind := none, required := none, state := none, intent := none,
    evidence := none, error := none
    compensation := some
      { state := some "pending", evidence := none, error := none } }

def samplePlanInput : PlanInput :=
  { operationId := "op", websiteId := "site", resources := none
    steps := [sampleStep "user", sampleStep "runtime"] }

def label (text : String) (h : Text.trim text.toList = text.toList)
    (hne : text.toList ≠ []) : Label :=
  { text, trimmed := h, ne_empty := hne }

def opLabel : Label := label "op" (by decide) (by decide)

def userLabel : Label := label "user" (by decide) (by decide)

/-- A segment that waits for nothing outside. -/
def go (id : Nat) : Event :=
  .answer id { now := ⟨0⟩, value := .error (.thrown none) }

/-- A segment whose handler returned an object. -/
def returns (id : Nat) (fields : Fields) : Event :=
  .answer id { now := ⟨0⟩, value := .ok (.obj fields) }

def satisfied : Fields := [("satisfied", .bool true)]

/-- The plan is written down, by call 0. -/
def createEvents : List Event :=
  [.start (.journal (.create samplePlanInput)), go 0, go 0, .world true,
    go 0]

/-- Two calls both read the first step pending before either begins it. -/
def overlappingEvents : List Event :=
  createEvents
    ++ [.start (.runNext "op"), .start (.runNext "op"), go 1, go 2, go 1,
      go 2, .world true, go 1]

/-- One call after the other, and the compensation of what the first
did. -/
def takingTurnsEvents : List Event :=
  createEvents
    ++ [.start (.runNext "op"), go 1, go 1, .world true, go 1,
      returns 1 satisfied, go 1, .world true, go 1,
      .start (.compensateStep "op" "user"), go 2, go 2, .world true, go 2]

theorem once_per_transition_turns :
    (machine plainHandlers).Allowed Exclusive initial takingTurnsEvents
      ∧ let notes := ((machine plainHandlers).answers initial
          takingTurnsEvents).flatten
        beginners .compensate opLabel userLabel notes = [2]
          ∧ (runners .compensate opLabel userLabel notes).Subperm
            (beginners .compensate opLabel userLabel notes) := by
  have hallowed : (machine plainHandlers).Allowed Exclusive initial
      takingTurnsEvents := by decide +kernel
  exact ⟨hallowed, by decide +kernel,
    once_per_transition plainHandlers hallowed .compensate opLabel
      userLabel⟩

/-- Both of two overlapping calls run the handler of the one attempt the
first of them began. -/
theorem overlapping_calls_apply_twice :
    ¬ ∀ (events : List Event) (work : Work) (operationId stepId : Label),
      let notes := ((machine plainHandlers).answers initial
        events).flatten
      (runners work operationId stepId notes).length
        ≤ (beginners work operationId stepId notes).length := by
  intro hclaim
  have htwice := hclaim overlappingEvents .apply opLabel userLabel
  have hrunners : (runners .apply opLabel userLabel
      ((machine plainHandlers).answers initial
        overlappingEvents).flatten) = [2, 1] := by decide +kernel
  have hbeginners : (beginners .apply opLabel userLabel
      ((machine plainHandlers).answers initial
        overlappingEvents).flatten) = [1] := by decide +kernel
  dsimp only at htwice
  rw [hrunners, hbeginners] at htwice
  cases htwice with
  | step h => cases h

end Yunpanel.Provisioning
