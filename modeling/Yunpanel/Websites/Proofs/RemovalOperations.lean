/-
What a change of one step does to an operation, and to the journal.

# Operations

The steps of a lawful operation are those that succeeded, then at most one
that was begun, then the pending ones; the status of the operation says
which of the middle ones there is. A change is always of the step in the
middle, or begins the first pending one: `Advance` says what it leads to,
and every update of the journal is one.

# The journal

Ids are distinct and a website has at most one operation that is not
finished. `lawfulOps_of_advance` keeps this where the operation that is
changed was not finished, or no other one of its website is.
-/
import Yunpanel.Websites.RemovalOperations

namespace Yunpanel.Websites

open Json Lib Lib.Result
open RemovalPlan (Preview)

-- ====== step ids

variable {n : Nat} {x : String × String}

theorem isDigit_of_mem_padded {c : Char} (h : c ∈ padded n) :
    c.isDigit = true := by
  unfold padded at h
  rcases List.mem_append.mp h with h | h
  · rw [(List.mem_replicate.mp h).2]
    decide
  · exact Nat.isDigit_of_mem_toDigits (by decide) (by decide) h

/-- The number in front can be read back. -/
theorem padded_inj {m : Nat} (h : padded m = padded n) : m = n := by
  have hread : ∀ k, Nat.ofDigitChars 10 (padded k) 0 = k := by
    intro k
    unfold padded
    rw [Nat.ofDigitChars_append, Nat.ofDigitChars_replicate_zero,
      Nat.mul_zero, Nat.ofDigitChars_ten_toDigits]
  rw [← hread m, h, hread n]

/-- The number is what stands before the first colon. -/
theorem takeWhile_stepId (n : Nat) (kind : StepKind) (resourceId : String) :
    (stepId n kind resourceId).toList.takeWhile (fun c => c != ':')
      = padded n := by
  unfold stepId
  rw [String.toList_ofList, List.append_assoc, List.cons_append,
    List.takeWhile_append_of_pos]
  · simp
  · intro c hc
    have hdigit := isDigit_of_mem_padded hc
    rw [bne_iff_ne]
    rintro rfl
    revert hdigit
    decide

theorem nodup_createSteps (preview : Preview) (createdAt : String) :
    ((createSteps preview createdAt).map Step.id).Nodup := by
  unfold createSteps
  rw [List.Nodup, List.pairwise_map, List.pairwise_iff_getElem]
  intro i j hi hj hij he
  rw [List.getElem_mapIdx, List.getElem_mapIdx] at he
  have hnumber := congrArg
    (fun id : String => id.toList.takeWhile fun c => c != ':') he
  dsimp only at hnumber
  rw [takeWhile_stepId, takeWhile_stepId] at hnumber
  have hsame := padded_inj hnumber
  omega

-- ====== operations

namespace Operation

structure Lawful (op : Operation) : Prop where
  ids : (op.steps.map Step.id).Nodup
  ordered : op.steps.Pairwise fun a b =>
    b.status ≠ .pending → a.status = .succeeded
  running : ∀ s ∈ op.steps, s.status = .running → op.status = .running
  blocked : ∀ s ∈ op.steps, s.status = .blocked → op.status = .blocked
  removed : op.status = .removed → ∀ s ∈ op.steps, s.status = .succeeded

/-- The operation has this step and, around it, only steps that succeeded
and steps that are pending. -/
structure At (op : Operation) (before : List Step) (step : Step)
    (after : List Step) : Prop where
  steps : op.steps = before ++ step :: after
  before : ∀ s ∈ before, s.status = .succeeded
  after : ∀ s ∈ after, s.status = .pending

variable {op : Operation} {before after : List Step} {step : Step}

/-- A step that has not succeeded, after steps that all did, is the one in
the middle. -/
theorem Lawful.at_of_before (h : op.Lawful)
    (hsteps : op.steps = before ++ step :: after)
    (hbefore : ∀ s ∈ before, s.status = .succeeded)
    (hopen : step.status ≠ .succeeded) : op.At before step after := by
  refine ⟨hsteps, hbefore, fun s hs => ?_⟩
  have hpair := h.ordered
  rw [hsteps] at hpair
  have htail := (List.pairwise_append.mp hpair).2.1
  have hrel := (List.pairwise_cons.mp htail).1 s hs
  by_contra hne
  exact hopen (hrel hne)

/-- So is a step that was begun and has not succeeded. -/
theorem Lawful.at_of_begun (h : op.Lawful) (hmem : step ∈ op.steps)
    (hbegun : step.status ≠ .pending) (hopen : step.status ≠ .succeeded) :
    ∃ before after, op.At before step after := by
  obtain ⟨before, after, hsteps⟩ := List.append_of_mem hmem
  have hpair := h.ordered
  rw [hsteps] at hpair
  have hbefore : ∀ s ∈ before, s.status = .succeeded := by
    intro s hs
    exact (List.pairwise_append.mp hpair).2.2 s hs step
      List.mem_cons_self hbegun
  exact ⟨before, after, h.at_of_before hsteps hbefore hopen⟩

/-- The status that follows from a step in the middle that was begun. -/
theorem At.settled (h : op.At before step after)
    (hbegun : step.status ≠ .pending) :
    op.settled =
      match step.status with
      | .failed => .failed
      | .blocked => .blocked
      | .running => .running
      | _ => if after = [] then .removed else op.status := by
  have hany : ∀ status : StepStatus, status ≠ .succeeded →
      status ≠ .pending →
      (op.steps.any fun s => s.status == status) = (step.status == status) := by
    intro status hsucceeded hpending
    rw [h.steps, List.any_append, List.any_cons]
    have hbefore : (before.any fun s => s.status == status) = false := by
      rw [List.any_eq_false]
      intro s hs
      rw [h.before s hs]
      simp [hsucceeded.symm]
    have hafter : (after.any fun s => s.status == status) = false := by
      rw [List.any_eq_false]
      intro s hs
      rw [h.after s hs]
      simp [hpending.symm]
    rw [hbefore, hafter, Bool.false_or, Bool.or_false]
  have hall : (op.steps.all fun s => s.status == .succeeded)
      = (step.status == .succeeded && decide (after = [])) := by
    rw [h.steps, List.all_append, List.all_cons]
    have hbefore : (before.all fun s => s.status == .succeeded) = true := by
      rw [List.all_eq_true]
      intro s hs
      rw [h.before s hs]
      rfl
    have hafter : (after.all fun s => s.status == .succeeded)
        = decide (after = []) := by
      cases after with
      | nil => rfl
      | cons a as => simp [h.after a List.mem_cons_self]
    rw [hbefore, hafter, Bool.true_and]
  unfold Operation.settled
  rw [hany .failed (by decide) (by decide), hany .blocked (by decide)
    (by decide), hany .running (by decide) (by decide), hall]
  cases hstatus : step.status with
  | pending => exact absurd hstatus hbegun
  | succeeded => by_cases hafter : after = [] <;> simp [hafter]
  | running => simp
  | blocked => simp
  | failed => simp

/-- A lawful operation has no step in the middle once it is removed. -/
theorem Lawful.status_ne_removed (h : op.Lawful) (hmem : step ∈ op.steps)
    (hopen : step.status ≠ .succeeded) : op.status ≠ .removed :=
  fun he => hopen (h.removed he step hmem)

/-- While a step is running or blocked the operation is not finished. -/
theorem Lawful.unfinished_of_mem (h : op.Lawful) (hmem : step ∈ op.steps)
    (hstatus : step.status = .running ∨ step.status = .blocked) :
    op.unfinished = true := by
  unfold Operation.unfinished
  rcases hstatus with hstatus | hstatus
  · rw [h.running step hmem hstatus]
    rfl
  · rw [h.blocked step hmem hstatus]
    rfl

end Operation

-- ====== changes

/-- One operation of the journal is changed at one step, which had not
succeeded and is begun now. -/
structure Advance (ops ops' : List Operation) (op op' : Operation)
    (step step' : Step) : Prop where
  index : ∃ i, ops[i]? = some op ∧ ops' = ops.set i op'
  split : ∃ before after, op.At before step after
    ∧ op'.At before step' after
  isOpen : step.status ≠ .succeeded
  begun : step'.status ≠ .pending
  stepId : step'.id = step.id
  id : op'.id = op.id
  websiteId : op'.websiteId = op.websiteId
  status : op'.status = .removed → op.status = .removed
    ∨ ∀ s ∈ op'.steps, s.status = .succeeded
  running : step'.status = .running → op'.status = .running
  blocked : step'.status = .blocked → op'.status = .blocked

namespace Advance

variable {ops ops' : List Operation} {op op' : Operation}
  {step step' : Step}

theorem mem (h : Advance ops ops' op op' step step') : op ∈ ops := by
  obtain ⟨i, hi, -⟩ := h.index
  exact List.mem_of_getElem? hi

theorem mem' (h : Advance ops ops' op op' step step') : op' ∈ ops' := by
  obtain ⟨i, hi, rfl⟩ := h.index
  exact mem_set_self hi

theorem step_mem (h : Advance ops ops' op op' step step') :
    step ∈ op.steps := by
  obtain ⟨before, after, hat, -⟩ := h.split
  rw [hat.steps]
  exact List.mem_append_right before List.mem_cons_self

theorem step_mem' (h : Advance ops ops' op op' step step') :
    step' ∈ op'.steps := by
  obtain ⟨before, after, -, hat⟩ := h.split
  rw [hat.steps]
  exact List.mem_append_right before List.mem_cons_self

variable {o : Operation}

theorem cases (h : Advance ops ops' op op' step step') (ho : o ∈ ops') :
    o = op' ∨ o ∈ ops := by
  obtain ⟨i, -, rfl⟩ := h.index
  exact mem_set_cases ho

theorem stays (h : Advance ops ops' op op' step step') (ho : o ∈ ops)
    (hne : o ≠ op) : o ∈ ops' := by
  obtain ⟨i, hi, rfl⟩ := h.index
  exact mem_set_of_ne hi ho hne

/-- The changed operation is lawful again. -/
theorem lawful (h : Advance ops ops' op op' step step')
    (hop : op.Lawful) : op'.Lawful := by
  obtain ⟨before, after, hat, hat'⟩ := h.split
  have hother : ∀ s ∈ op'.steps, s = step' ∨ s.status = .succeeded
      ∨ s.status = .pending := by
    intro s hs
    rw [hat'.steps] at hs
    rcases List.mem_append.mp hs with hs | hs
    · exact .inr (.inl (hat'.before s hs))
    · rcases List.mem_cons.mp hs with rfl | hs
      · exact .inl rfl
      · exact .inr (.inr (hat'.after s hs))
  refine ⟨?_, ?_, fun s hs hrunning => ?_, fun s hs hblocked => ?_,
    fun hremoved => ?_⟩
  · have hids := hop.ids
    rw [hat.steps] at hids
    rw [hat'.steps]
    simpa [h.stepId] using hids
  · rw [hat'.steps, List.pairwise_append, List.pairwise_cons]
    refine ⟨?_, ⟨fun s hs hne => absurd (hat'.after s hs) hne, ?_⟩, ?_⟩
    · exact List.pairwise_of_forall_mem_list
        fun a ha _ _ _ => hat'.before a ha
    · exact List.pairwise_of_forall_mem_list
        fun _ _ b hb hne => absurd (hat'.after b hb) hne
    · exact fun a ha _ _ _ => hat'.before a ha
  · rcases hother s hs with rfl | hs | hs
    · exact h.running hrunning
    · exact absurd (hs.symm.trans hrunning) (by decide)
    · exact absurd (hs.symm.trans hrunning) (by decide)
  · rcases hother s hs with rfl | hs | hs
    · exact h.blocked hblocked
    · exact absurd (hs.symm.trans hblocked) (by decide)
    · exact absurd (hs.symm.trans hblocked) (by decide)
  · rcases h.status hremoved with hold | hall
    · exact absurd hold (hop.status_ne_removed h.step_mem h.isOpen)
    · exact hall

end Advance

-- ====== journal

structure LawfulOps (ops : List Operation) : Prop where
  ids : (ops.map Operation.id).Nodup
  each : ∀ op ∈ ops, op.Lawful
  single : ∀ a ∈ ops, ∀ b ∈ ops, a.unfinished = true →
    b.unfinished = true → a.websiteId = b.websiteId → a = b

theorem lawfulOps_nil : LawfulOps [] :=
  ⟨List.nodup_nil, by simp, by simp⟩

/-- An operation is known by its id. -/
theorem LawfulOps.eq_of_id {ops : List Operation} (h : LawfulOps ops)
    {a b : Operation} (ha : a ∈ ops) (hb : b ∈ ops) (he : a.id = b.id) :
    a = b :=
  List.inj_on_of_nodup_map h.ids ha hb he

/-- A change keeps the journal lawful where it does not take up an
operation while another of the website is under way. -/
theorem lawfulOps_of_advance {ops ops' : List Operation}
    {op op' : Operation} {step step' : Step}
    (h : Advance ops ops' op op' step step') (hops : LawfulOps ops)
    (hsingle : op'.unfinished = true → op.unfinished = false →
      ∀ o ∈ ops, o.websiteId = op.websiteId → o.unfinished = false) :
    LawfulOps ops' := by
  have hother : ∀ b ∈ ops, b ≠ op → op'.unfinished = true →
      b.unfinished = true → op.websiteId ≠ b.websiteId := by
    intro b hb hne hop' hb' hsite
    cases hopen : op.unfinished with
    | true => exact hne (hops.single b hb op h.mem hb' hopen hsite.symm)
    | false =>
        have hnone := hsingle hop' hopen b hb hsite.symm
        rw [hb'] at hnone
        cases hnone
  have hsplit : ∀ o ∈ ops', o = op' ∨ (o ∈ ops ∧ o ≠ op) := by
    obtain ⟨i, hi, rfl⟩ := h.index
    intro o ho
    rcases mem_set_cases ho with rfl | hold
    · exact .inl rfl
    · by_cases hne : o = op
      · subst hne
        left
        -- ids are distinct, so the old operation stands nowhere else
        obtain ⟨j, hj⟩ := List.mem_iff_getElem?.mp ho
        by_cases hij : i = j
        · subst hij
          obtain ⟨hlt, -⟩ := List.getElem?_eq_some_iff.mp hi
          rw [List.getElem?_set_self hlt] at hj
          exact (Option.some.inj hj).symm
        · rw [List.getElem?_set_ne hij] at hj
          have hi' : (ops.map Operation.id)[i]? = some o.id := by
            rw [List.getElem?_map, hi]
            rfl
          have hj' : (ops.map Operation.id)[j]? = some o.id := by
            rw [List.getElem?_map, hj]
            rfl
          obtain ⟨hlt, -⟩ := List.getElem?_eq_some_iff.mp hi'
          exact absurd ((List.getElem?_inj hlt hops.ids).mp
            (hi'.trans hj'.symm)) hij
      · exact .inr ⟨hold, hne⟩
  refine ⟨?_, fun o ho => ?_, fun a ha b hb ha' hb' hsite => ?_⟩
  · obtain ⟨i, hi, rfl⟩ := h.index
    have hsame : (ops.set i op').map Operation.id = ops.map Operation.id := by
      rw [List.map_set, h.id]
      apply List.ext_getElem?
      intro j
      by_cases hij : i = j
      · subst hij
        obtain ⟨hlt, -⟩ := List.getElem?_eq_some_iff.mp hi
        rw [List.getElem?_set_self (by simpa using hlt), List.getElem?_map,
          hi]
        rfl
      · rw [List.getElem?_set_ne hij]
    rw [hsame]
    exact hops.ids
  · rcases h.cases ho with rfl | ho
    · exact h.lawful (hops.each op h.mem)
    · exact hops.each o ho
  · rcases hsplit a ha with rfl | ⟨ha, hane⟩
    · rcases hsplit b hb with rfl | ⟨hb, hbne⟩
      · rfl
      · rw [h.websiteId] at hsite
        exact absurd hsite (hother b hb hbne ha' hb')
    · rcases hsplit b hb with rfl | ⟨hb, hbne⟩
      · rw [h.websiteId] at hsite
        exact absurd hsite.symm (hother a ha hane hb' ha')
      · exact hops.single a ha b hb ha' hb' hsite

-- ====== history

/-- An operation as it was and as it is later: the same steps, and what
succeeded has still succeeded. -/
structure Operation.Kept (op op' : Operation) : Prop where
  id : op'.id = op.id
  websiteId : op'.websiteId = op.websiteId
  steps : List.Forall₂ (fun s s' : Step => s'.id = s.id
    ∧ (s.status = .succeeded → s'.status = .succeeded)) op.steps op'.steps

theorem Operation.Kept.refl (op : Operation) : op.Kept op :=
  ⟨rfl, rfl, List.forall₂_same.mpr fun _ _ => ⟨rfl, fun hs => hs⟩⟩

theorem forall₂_trans {α : Type*} {R : α → α → Prop}
    (htrans : ∀ {a b c}, R a b → R b c → R a c) {as bs cs : List α}
    (h : List.Forall₂ R as bs) (h' : List.Forall₂ R bs cs) :
    List.Forall₂ R as cs := by
  induction h generalizing cs with
  | nil => exact h'
  | cons hab _ ih =>
      obtain ⟨c, cs', hbc, hrest, rfl⟩ := List.forall₂_cons_left_iff.mp h'
      exact .cons (htrans hab hbc) (ih hrest)

theorem Operation.Kept.trans {a b c : Operation} (h : a.Kept b)
    (h' : b.Kept c) : a.Kept c :=
  ⟨h'.id.trans h.id, h'.websiteId.trans h.websiteId,
    forall₂_trans (fun hab hbc =>
      ⟨hbc.1.trans hab.1, fun hs => hbc.2 (hab.2 hs)⟩) h.steps h'.steps⟩

/-- Every operation is still there. -/
def KeptOps (ops ops' : List Operation) : Prop :=
  ∀ op ∈ ops, ∃ op' ∈ ops', op.Kept op'

theorem Advance.kept {ops ops' : List Operation} {op op' : Operation}
    {step step' : Step} (h : Advance ops ops' op op' step step') :
    op.Kept op' := by
  obtain ⟨before, after, hat, hat'⟩ := h.split
  refine ⟨h.id, h.websiteId, ?_⟩
  have hsame : ∀ steps : List Step, List.Forall₂
      (fun s s' : Step => s'.id = s.id
        ∧ (s.status = .succeeded → s'.status = .succeeded)) steps steps :=
    fun steps => List.forall₂_same.mpr fun _ _ => ⟨rfl, fun hs => hs⟩
  rw [hat.steps, hat'.steps]
  exact List.rel_append (hsame before)
    (.cons ⟨h.stepId, fun hs => absurd hs h.isOpen⟩ (hsame after))

theorem keptOps_of_advance {ops ops' : List Operation} {op op' : Operation}
    {step step' : Step} (h : Advance ops ops' op op' step step') :
    KeptOps ops ops' := by
  intro o ho
  by_cases hne : o = op
  · subst hne
    exact ⟨op', h.mem', h.kept⟩
  · exact ⟨o, h.stays ho hne, .refl o⟩

/-- The steps that succeeded, by their operation. -/
def succeededSteps (ops : List Operation) : List (String × String) :=
  ops.flatMap fun op =>
    (op.steps.filter fun s => s.status == .succeeded).map fun s =>
      (op.id, s.id)

theorem mem_succeededSteps {ops : List Operation} :
    x ∈ succeededSteps ops ↔ ∃ op ∈ ops, ∃ s ∈ op.steps,
      s.status = .succeeded ∧ (op.id, s.id) = x := by
  simp only [succeededSteps, List.mem_flatMap, List.mem_map,
    List.mem_filter, beq_iff_eq, and_assoc]

theorem succeededSteps_of_keptOps {ops ops' : List Operation}
    (h : KeptOps ops ops') (hx : x ∈ succeededSteps ops) :
    x ∈ succeededSteps ops' := by
  obtain ⟨op, hop, s, hs, hstatus, rfl⟩ := mem_succeededSteps.mp hx
  obtain ⟨op', hop', hkept⟩ := h op hop
  obtain ⟨s', hs', hid, hstays⟩ := exists_of_forall₂ hkept.steps.flip hs
  exact mem_succeededSteps.mpr ⟨op', hop', s', hs', hstays hstatus,
    by rw [hkept.id, hid]⟩

-- ====== copies

/-- A copy a call was given earlier. -/
def Viewed (ops : List Operation) (view : Operation) : Prop :=
  ∃ op ∈ ops, view.Kept op

theorem Viewed.of_keptOps {ops ops' : List Operation} {view : Operation}
    (h : Viewed ops view) (hkept : KeptOps ops ops') : Viewed ops' view := by
  obtain ⟨op, hop, hview⟩ := h
  obtain ⟨op', hop', hop''⟩ := hkept op hop
  exact ⟨op', hop', hview.trans hop''⟩

/-- A step a call has in hand: it was begun and is not over. -/
def InHand (ops : List Operation) (operationId stepId : String) : Prop :=
  ∃ op ∈ ops, op.id = operationId ∧ ∃ step ∈ op.steps, step.id = stepId
    ∧ (step.status = .running ∨ step.status = .blocked)

/-- A change of another operation, or one that leaves the step running or
blocked, leaves it in hand. -/
theorem InHand.of_advance {ops ops' : List Operation} {op op' : Operation}
    {step step' : Step} (h : Advance ops ops' op op' step step')
    (hops : LawfulOps ops) {operationId stepId : String}
    (hin : InHand ops operationId stepId)
    (hother : op.id = operationId →
      step'.status = .running ∨ step'.status = .blocked) :
    InHand ops' operationId stepId := by
  obtain ⟨o, ho, hid, s, hs, hsid, hstatus⟩ := hin
  by_cases hne : o = op
  · subst hne
    have hlawful := hops.each o ho
    have hstatus' := hother hid
    obtain ⟨before, after, hat, hat'⟩ := h.split
    -- the step in hand is the one in the middle, which is the changed one
    have hsame : s = step := by
      rw [hat.steps] at hs
      rcases List.mem_append.mp hs with hs | hs
      · have hdone := hat.before s hs
        rw [hdone] at hstatus
        rcases hstatus with h | h <;> cases h
      · rcases List.mem_cons.mp hs with hs | hs
        · exact hs
        · have hpending := hat.after s hs
          rw [hpending] at hstatus
          rcases hstatus with h | h <;> cases h
    exact ⟨op', h.mem', h.id.trans hid, step', h.step_mem',
      by rw [h.stepId, ← hsame, hsid], hstatus'⟩
  · exact ⟨o, h.stays ho hne, hid, s, hs, hsid, hstatus⟩

end Yunpanel.Websites
