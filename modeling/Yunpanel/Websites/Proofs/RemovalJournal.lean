/-
The updates of the journal are changes of one step.

One lemma for each update says what it leads to: marking takes up the first
step of a copy that has not succeeded, and is refused where that step has
succeeded meanwhile; success, blocking and failure are of the step in hand.
`created` and `load_of_nodup` are the two ways operations get into the
journal.
-/
import Yunpanel.Websites.Proofs.RemovalOperations
import Yunpanel.Websites.Removal

namespace Yunpanel.Websites

open Json Lib Lib.Result
open RemovalPlan (Preview)

namespace Journal

variable {j j' : Journal} {now operationId stepId : String}

-- ====== look-ups

theorem requireInit_eq_ok {u : Unit} :
    j.requireInit = .ok u ↔ j.initialized = true := by
  simp only [requireInit, ensure_eq_ok]

variable {value : Json} {before after : List Step} {step : Step}
  {status : StepStatus} {around : OperationStatus → OperationStatus}
  {preview : Preview} {timestamp : String}

theorem identifier_eq_ok {field : String} {id : String} :
    identifier field value = .ok id
      ↔ value = .str id ∧ isSafeId id = true := by
  unfold identifier
  rw [demand_eq_ok, Option.filter_eq_some_iff]
  cases value <;> simp [Json.str?]

variable {op : Operation} {updater : Updater}

theorem get_eq_ok (h : j.get value = .ok (some op)) :
    j.initialized = true ∧ op ∈ j.operations ∧ value = .str op.id := by
  simp only [get, bind_eq_ok, exists_unit, requireInit_eq_ok,
    identifier_eq_ok, pure_eq, Except.ok.injEq] at h
  obtain ⟨hinit, id, ⟨hid, -⟩, hfind⟩ := h
  have hsame := List.find?_some hfind
  rw [hid, beq_iff_eq.mp hsame]
  exact ⟨hinit, List.mem_of_find?_eq_some hfind, rfl⟩

-- ====== updates

/-- The operation after one of its steps was rewritten. -/
def rewritten (op : Operation) (k : Nat) (step : Step) (now : String) :
    Operation :=
  let op := { op with
    steps := op.steps.set k { step with updatedAt := now }
    updatedAt := now }
  { op with status := op.settled }

theorem updateStep_eq_ok
    (h : j.updateStep now operationId stepId updater = .ok j') :
    j.initialized = true ∧ ∃ i op k step op₁ step₁,
      locate (fun op => op.id == operationId) j.operations = some (i, op)
        ∧ locate (fun step => step.id == stepId) op.steps = some (k, step)
        ∧ updater op step = .ok (op₁, step₁)
        ∧ j' = ⟨j.operations.set i (rewritten op₁ k step₁ now),
          j.initialized⟩ := by
  simp only [updateStep, bind_eq_ok, exists_unit, requireInit_eq_ok,
    identifier_eq_ok, demand_eq_ok, Prod.exists, pure_eq, Except.ok.injEq,
    Json.str.injEq] at h
  obtain ⟨hinit, _, ⟨rfl, -⟩, _, ⟨rfl, -⟩, i, op, hop, k, step, hstep, op₁,
    step₁, hupdater, hj⟩ := h
  exact ⟨hinit, i, op, k, step, op₁, step₁, hop, hstep, hupdater, hj.symm⟩

/-- What an updater makes of a step, and of the status of its operation. -/
def Makes (updater : Updater) (status : StepStatus)
    (around : OperationStatus → OperationStatus) : Prop :=
  ∀ op step op₁ step₁, updater op step = .ok (op₁, step₁) →
    op₁.id = op.id ∧ op₁.websiteId = op.websiteId ∧ op₁.steps = op.steps
      ∧ op₁.status = around op.status ∧ step₁.id = step.id
      ∧ step₁.status = status

theorem makes_running : Makes running .running fun _ => .running := by
  intro op step op₁ step₁ h
  unfold running at h
  split at h
  · cases h
  · obtain ⟨rfl, rfl⟩ := Prod.mk.inj (Except.ok.inj h)
    exact ⟨rfl, rfl, rfl, rfl, rfl, rfl⟩

theorem makes_succeeded (result : Json) :
    Makes (succeeded result) .succeeded id := by
  intro op step op₁ step₁ h
  obtain ⟨rfl, rfl⟩ := Prod.mk.inj (Except.ok.inj h)
  exact ⟨rfl, rfl, rfl, rfl, rfl, rfl⟩

theorem makes_blocked (e : StepError) :
    Makes (blocked e) .blocked fun _ => .blocked := by
  intro op step op₁ step₁ h
  obtain ⟨rfl, rfl⟩ := Prod.mk.inj (Except.ok.inj h)
  exact ⟨rfl, rfl, rfl, rfl, rfl, rfl⟩

theorem makes_failed (e : StepError) :
    Makes (failed e) .failed fun _ => .failed := by
  intro op step op₁ step₁ h
  obtain ⟨rfl, rfl⟩ := Prod.mk.inj (Except.ok.inj h)
  exact ⟨rfl, rfl, rfl, rfl, rfl, rfl⟩

/-- The operation and the step an update finds are those of their ids. -/
theorem found_of_updateStep
    (h : j.updateStep now operationId stepId updater = .ok j')
    (hops : LawfulOps j.operations) (hop : op ∈ j.operations)
    (hid : op.id = operationId)
    (hsteps : op.steps = before ++ step :: after) (hstep : step.id = stepId) :
    j.initialized = true ∧ ∃ i op₁ step₁, j.operations[i]? = some op
      ∧ updater op step = .ok (op₁, step₁)
      ∧ j' = ⟨j.operations.set i (rewritten op₁ before.length step₁ now),
        j.initialized⟩ := by
  obtain ⟨hinit, i, o, k, s, op₁, step₁, ho, hs, hupdater, rfl⟩ :=
    updateStep_eq_ok h
  have hoid : o.id = operationId := by simpa using accepted_of_locate ho
  obtain rfl : o = op :=
    hops.eq_of_id (mem_of_locate ho) hop (hoid.trans hid.symm)
  have hids := (hops.each o hop).ids
  rw [hsteps, List.map_append, List.map_cons, List.nodup_append] at hids
  have hnot : ∀ s ∈ before, (s.id == stepId) = false := by
    intro s hs
    rw [beq_eq_false_iff_ne, ← hstep]
    exact hids.2.2 s.id (List.mem_map_of_mem hs) step.id List.mem_cons_self
  have hlocated := locate_append_cons (p := fun s : Step => s.id == stepId)
    hnot (by simpa using hstep) after
  rw [hsteps, hlocated] at hs
  obtain ⟨rfl, rfl⟩ := Prod.mk.inj (Option.some.inj hs)
  exact ⟨hinit, i, op₁, step₁, getElem?_of_locate ho, hupdater, rfl⟩

/-- The status of an operation whose middle step now has this status. -/
def statusWith (status : StepStatus) (last : Bool)
    (otherwise : OperationStatus) : OperationStatus :=
  match status with
  | .failed => .failed
  | .blocked => .blocked
  | .running => .running
  | _ => if last then .removed else otherwise

/-- An update of the step in the middle is a change of that step. -/
theorem advance_of_updateStep (hmakes : Makes updater status around)
    (hbegun : status ≠ .pending)
    (haround : ∀ s, status = .succeeded → around s = s)
    (h : j.updateStep now operationId stepId updater = .ok j')
    (hops : LawfulOps j.operations) (hop : op ∈ j.operations)
    (hid : op.id = operationId) (hat : op.At before step after)
    (hstep : step.id = stepId) (hopen : step.status ≠ .succeeded) :
    j'.initialized = true ∧ ∃ op' step',
      Advance j.operations j'.operations op op' step step'
        ∧ step'.status = status
        ∧ op'.status = statusWith status after.isEmpty (around op.status) := by
  obtain ⟨hinit, i, op₁, step₁, hi, hupdater, rfl⟩ :=
    found_of_updateStep h hops hop hid hat.steps hstep
  obtain ⟨hid₁, hsite₁, hsteps₁, hstatus₁, hstepId₁, hstepStatus₁⟩ :=
    hmakes op step op₁ step₁ hupdater
  have hset : (rewritten op₁ before.length step₁ now).steps
      = before ++ { step₁ with updatedAt := now } :: after := by
    show op₁.steps.set before.length _ = _
    rw [hsteps₁, hat.steps, List.set_append_right _ _ (Nat.le_refl _),
      Nat.sub_self, List.set_cons_zero]
  have hat' : (rewritten op₁ before.length step₁ now).At before
      { step₁ with updatedAt := now } after :=
    ⟨hset, hat.before, hat.after⟩
  have hmid : ({ op₁ with
      steps := op₁.steps.set before.length { step₁ with updatedAt := now }
      updatedAt := now } : Operation).At before
        { step₁ with updatedAt := now } after :=
    ⟨hset, hat.before, hat.after⟩
  have hstatus : (rewritten op₁ before.length step₁ now).status
      = statusWith status after.isEmpty (around op.status) := by
    show Operation.settled _ = _
    rw [hmid.settled (by rw [hstepStatus₁]; exact hbegun)]
    dsimp only
    rw [hstepStatus₁, hstatus₁]
    cases status <;> cases after <;> rfl
  refine ⟨hinit, _, _, ⟨⟨i, hi, rfl⟩, ⟨before, after, hat, hat'⟩, hopen, ?_,
    hstepId₁, hid₁, hsite₁, fun hremoved => ?_, fun hrunning => ?_,
    fun hblocked => ?_⟩, hstepStatus₁, hstatus⟩
  · show step₁.status ≠ .pending
    rw [hstepStatus₁]
    exact hbegun
  · rw [hstatus] at hremoved
    cases status with
    | pending => exact absurd rfl hbegun
    | failed => cases hremoved
    | blocked => cases hremoved
    | running => cases hremoved
    | succeeded =>
        cases after with
        | nil =>
            right
            intro s hs
            rw [hset] at hs
            rcases List.mem_append.mp hs with hs | hs
            · exact hat.before s hs
            · rw [List.mem_singleton.mp hs]
              exact hstepStatus₁
        | cons a as =>
            left
            have hkept : around op.status = .removed := hremoved
            rw [haround op.status rfl] at hkept
            exact hkept
  · have hs : status = .running := hstepStatus₁.symm.trans hrunning
    rw [hstatus, hs]
    rfl
  · have hs : status = .blocked := hstepStatus₁.symm.trans hblocked
    rw [hstatus, hs]
    rfl

/-- Where a list was related to another entry by entry, the other splits
where it does. -/
theorem forall₂_append_left {α β : Type*} {R : α → β → Prop}
    {as as' : List α} {bs : List β} (h : List.Forall₂ R (as ++ as') bs) :
    ∃ cs cs', bs = cs ++ cs' ∧ List.Forall₂ R as cs
      ∧ List.Forall₂ R as' cs' := by
  induction as generalizing bs with
  | nil => exact ⟨[], bs, rfl, .nil, h⟩
  | cons a as ih =>
      obtain ⟨b, bs', hab, hrest, rfl⟩ := List.forall₂_cons_left_iff.mp h
      obtain ⟨cs, cs', rfl, hcs, hcs'⟩ := ih hrest
      exact ⟨b :: cs, cs', rfl, .cons hab hcs, hcs'⟩

/-- Marking takes up the first step of a copy that has not succeeded. Where
it did succeed meanwhile, marking is refused. -/
theorem advance_of_markStepRunning {view : Operation} {first : Step}
    (h : j.markStepRunning now view.id first.id = .ok j')
    (hops : LawfulOps j.operations) (hview : Viewed j.operations view)
    (hfirst : firstIncomplete view = some first) :
    j'.initialized = true ∧ ∃ op op' step step',
      Advance j.operations j'.operations op op' step step'
        ∧ op.id = view.id ∧ step.id = first.id
        ∧ step'.status = .running := by
  obtain ⟨op, hop, hkept⟩ := hview
  obtain ⟨-, before, after, hsteps, hbefore⟩ :=
    List.find?_eq_some_iff_append.mp hfirst
  have hall := hkept.steps
  rw [hsteps] at hall
  obtain ⟨before', rest, hsplit, hbefore', hrest⟩ := forall₂_append_left hall
  obtain ⟨step, after', ⟨hid, -⟩, -, rfl⟩ :=
    List.forall₂_cons_left_iff.mp hrest
  have hdone : ∀ s ∈ before', s.status = .succeeded := by
    intro s hs
    obtain ⟨s₀, hs₀, -, hstays⟩ := exists_of_forall₂ hbefore' hs
    refine hstays ?_
    have hnot := hbefore s₀ hs₀
    simpa using hnot
  obtain ⟨-, i, op₁, step₁, -, hupdater, -⟩ :=
    found_of_updateStep h hops hop hkept.id hsplit hid
  have hopen : step.status ≠ .succeeded := by
    intro hs
    unfold running at hupdater
    rw [if_pos hs] at hupdater
    cases hupdater
  have hat := (hops.each op hop).at_of_before hsplit hdone hopen
  obtain ⟨hinit, op', step', hadvance, hstatus, -⟩ :=
    advance_of_updateStep makes_running (by decide) (by simp) h hops hop
      hkept.id hat hid hopen
  exact ⟨hinit, op, op', step, step', hadvance, hkept.id, hid, hstatus⟩

/-- An update of a step in hand is a change of that step, in an operation
that is not finished. -/
theorem advance_of_inHand (hmakes : Makes updater status around)
    (hbegun : status ≠ .pending)
    (haround : ∀ s, status = .succeeded → around s = s)
    (h : j.updateStep now operationId stepId updater = .ok j')
    (hops : LawfulOps j.operations)
    (hin : InHand j.operations operationId stepId) :
    j'.initialized = true ∧ ∃ op op' step step',
      Advance j.operations j'.operations op op' step step'
        ∧ op.id = operationId ∧ step.id = stepId
        ∧ op.unfinished = true ∧ step'.status = status := by
  obtain ⟨op, hop, hid, step, hmem, hstep, hstatus⟩ := hin
  have hlawful := hops.each op hop
  have hnotpending : step.status ≠ .pending := by
    rcases hstatus with hs | hs <;> rw [hs] <;> decide
  have hopen : step.status ≠ .succeeded := by
    rcases hstatus with hs | hs <;> rw [hs] <;> decide
  obtain ⟨before, after, hat⟩ := hlawful.at_of_begun hmem hnotpending hopen
  obtain ⟨hinit, op', step', hadvance, hstatus', -⟩ :=
    advance_of_updateStep hmakes hbegun haround h hops hop hid hat hstep
      hopen
  exact ⟨hinit, op, op', step, step', hadvance, hid, hstep,
    hlawful.unfinished_of_mem hmem hstatus, hstatus'⟩

-- ====== new and reloaded

theorem lawful_created (hsteps : op.steps = createSteps preview timestamp)
    (hstatus : op.status = .pending) : op.Lawful := by
  have hpending : ∀ s ∈ op.steps, s.status = .pending := by
    intro s hs
    rw [hsteps, createSteps] at hs
    obtain ⟨i, hi, rfl⟩ := List.mem_mapIdx.mp hs
    rfl
  refine ⟨?_, ?_, fun s hs hrunning => ?_, fun s hs hblocked => ?_,
    fun hremoved => ?_⟩
  · rw [hsteps]
    exact nodup_createSteps preview timestamp
  · exact List.pairwise_of_forall_mem_list
      fun _ _ b hb hne => absurd (hpending b hb) hne
  · exact absurd ((hpending s hs).symm.trans hrunning) (by decide)
  · exact absurd ((hpending s hs).symm.trans hblocked) (by decide)
  · rw [hstatus] at hremoved
    cases hremoved

/-- A new operation, under an id no other has, comes after the others, and
none of its website is under way. -/
theorem created {randomUUID : Uuid}
    (h : j.create timestamp randomUUID preview = .ok (op, j'))
    (hfresh : ∀ o ∈ j.operations, o.id ≠ "ws-rem-" ++ randomUUID.text)
    (hops : LawfulOps j.operations) :
    j.initialized = true ∧ j'.initialized = true
      ∧ j'.operations = j.operations ++ [op]
      ∧ op.websiteId = preview.website.id
      ∧ LawfulOps j'.operations := by
  simp only [create, requireNone, bind_eq_ok, exists_unit,
    requireInit_eq_ok, ensure_eq_ok, pure_eq, Except.ok.injEq,
    Prod.mk.injEq] at h
  obtain ⟨hinit, -, hnone, hop, hj⟩ := h
  have hid : op.id = "ws-rem-" ++ randomUUID.text := by rw [← hop]
  have hlawful : op.Lawful :=
    lawful_created (by rw [← hop]) (by rw [← hop])
  have hsite : op.websiteId = preview.website.id := by rw [← hop]
  have happended : j'.operations = j.operations ++ [op] := by
    rw [← hj, ← hop]
    exact upsert_of_forall fun o ho => by simpa using hfresh o ho
  have hfree : ∀ o ∈ j.operations, o.websiteId = op.websiteId →
      o.unfinished = false := by
    intro o ho hsame
    have hthis := List.all_eq_true.mp hnone o ho
    rw [hsite] at hsame
    simpa [hsame] using hthis
  refine ⟨hinit, by rw [← hj]; exact hinit, happended, hsite, ?_⟩
  rw [happended]
  refine ⟨?_, forall_mem_concat hops.each hlawful, ?_⟩
  · rw [List.map_append, List.map_singleton, ← List.concat_eq_append]
    refine List.Nodup.concat (fun hmem => ?_) hops.ids
    obtain ⟨o, ho, he⟩ := List.mem_map.mp hmem
    exact hfresh o ho (he.trans hid)
  · intro a ha b hb hopena hopenb hsame
    rcases List.mem_append.mp ha with ha | ha
    · rcases List.mem_append.mp hb with hb | hb
      · exact hops.single a ha b hb hopena hopenb hsame
      · rw [List.mem_singleton.mp hb] at hsame
        rw [hfree a ha hsame] at hopena
        cases hopena
    · rcases List.mem_append.mp hb with hb | hb
      · rw [List.mem_singleton.mp ha] at hsame
        rw [hfree b hb hsame.symm] at hopenb
        cases hopenb
      · rw [List.mem_singleton.mp ha, List.mem_singleton.mp hb]

/-- What was written with distinct ids is read back as it was. -/
theorem load_of_nodup {ops : List Operation}
    (h : (ops.map Operation.id).Nodup) : load ops = ops := by
  suffices hall : ∀ done rest : List Operation,
      ((done ++ rest).map Operation.id).Nodup →
      rest.foldl (fun ops op =>
        upsert (fun o => o.id == op.id) (fun _ => op) ops) done
        = done ++ rest from hall [] ops h
  intro done rest hnodup
  induction rest generalizing done with
  | nil => exact (List.append_nil done).symm
  | cons op rest ih =>
      have hnew : ∀ o ∈ done, (o.id == op.id) = false := by
        intro o ho
        rw [List.map_append, List.map_cons, List.nodup_append] at hnodup
        rw [beq_eq_false_iff_ne]
        exact hnodup.2.2 o.id (List.mem_map_of_mem ho) op.id
          List.mem_cons_self
      rw [List.foldl_cons, upsert_of_forall hnew]
      rw [List.append_cons] at hnodup
      rw [ih (done ++ [op]) hnodup, List.append_cons done op rest]

end Journal

end Yunpanel.Websites
