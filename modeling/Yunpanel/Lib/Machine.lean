/-
Deterministic machines and their runs, with nothing of any particular
program in them.

# What a machine is

A `Machine` takes one input at a time and answers it: everything the
environment decides (an operator's call, a clock reading, whether a write
succeeds) is part of the input, so an arbitrary interleaving is an
arbitrary list of inputs and "for every run" is "for every list".

# What is packaged here

- `invariant` and `invariant_of_allowed`: a property that holds at the
  start and survives one step holds along every run; the second form
  takes the step lemma only where a side condition on the input holds.
- `states`: the states a run passes through, for properties about the
  history of one component (`isChain_states` turns a step lemma into a
  statement about consecutive entries).
-/
import Mathlib.Data.List.Destutter

namespace Lib

universe u v w

/-- What one input does to the state, and what it is answered. -/
structure Machine (σ : Type u) (ι : Type v) (ο : Type w) where
  step : σ → ι → σ × ο

namespace Machine

variable {σ : Type u} {ι : Type v} {ο : Type w} (m : Machine σ ι ο)

-- ====== runs

/-- The state after one input. -/
def next (s : σ) (i : ι) : σ := (m.step s i).1

/-- What the input is answered. -/
def answer (s : σ) (i : ι) : ο := (m.step s i).2

/-- The state after a list of inputs. -/
def run : σ → List ι → σ
  | s, [] => s
  | s, i :: is => run (m.next s i) is

/-- Every state a run passes through, the first one included. -/
def states : σ → List ι → List σ
  | s, [] => [s]
  | s, i :: is => s :: states (m.next s i) is

/-- Every step of a run: the state an input met, and the input. -/
def steps : σ → List ι → List (σ × ι)
  | _, [] => []
  | s, i :: is => (s, i) :: steps (m.next s i) is

/-- The answers of a run, oldest first. -/
def answers : σ → List ι → List ο
  | _, [] => []
  | s, i :: is => m.answer s i :: answers (m.next s i) is

/-- Every input of the run comes where `ok` lets it come. -/
def Allowed (ok : σ → ι → Prop) : σ → List ι → Prop
  | _, [] => True
  | s, i :: is => ok s i ∧ Allowed ok (m.next s i) is

@[simp] theorem run_nil (s : σ) : m.run s [] = s := rfl

@[simp] theorem run_cons (s : σ) (i : ι) (is : List ι) :
    m.run s (i :: is) = m.run (m.next s i) is := rfl

@[simp] theorem answers_nil (s : σ) : m.answers s [] = [] := rfl

@[simp] theorem answers_cons (s : σ) (i : ι) (is : List ι) :
    m.answers s (i :: is) = m.answer s i :: m.answers (m.next s i) is := rfl

@[simp] theorem allowed_nil (ok : σ → ι → Prop) (s : σ) :
    m.Allowed ok s [] := trivial

@[simp] theorem allowed_cons (ok : σ → ι → Prop) (s : σ) (i : ι)
    (is : List ι) :
    m.Allowed ok s (i :: is) ↔ ok s i ∧ m.Allowed ok (m.next s i) is :=
  Iff.rfl

@[simp] theorem steps_nil (s : σ) : m.steps s [] = [] := rfl

@[simp] theorem steps_cons (s : σ) (i : ι) (is : List ι) :
    m.steps s (i :: is) = (s, i) :: m.steps (m.next s i) is := rfl

@[simp] theorem states_nil (s : σ) : m.states s [] = [s] := rfl

@[simp] theorem states_cons (s : σ) (i : ι) (is : List ι) :
    m.states s (i :: is) = s :: m.states (m.next s i) is := rfl

theorem run_append (s : σ) (is js : List ι) :
    m.run s (is ++ js) = m.run (m.run s is) js := by
  induction is generalizing s with
  | nil => rfl
  | cons i is ih => exact ih (m.next s i)

theorem allowed_append (ok : σ → ι → Prop) (s : σ) (is js : List ι) :
    m.Allowed ok s (is ++ js)
      ↔ m.Allowed ok s is ∧ m.Allowed ok (m.run s is) js := by
  induction is generalizing s with
  | nil => simp
  | cons i is ih => simp [ih, and_assoc]

theorem steps_append (s : σ) (is js : List ι) :
    m.steps s (is ++ js) = m.steps s is ++ m.steps (m.run s is) js := by
  induction is generalizing s with
  | nil => rfl
  | cons i is ih => exact congrArg ((s, i) :: ·) (ih (m.next s i))

/-- The last step of a run. -/
theorem mem_steps_concat (s : σ) (is : List ι) (i : ι) :
    (m.run s is, i) ∈ m.steps s (is ++ [i]) := by
  rw [steps_append]
  exact List.mem_append_right _ (List.mem_singleton_self _)

variable {is : List ι}

/-- What every step of a run has, its last one has. -/
theorem last_of_forall_mem_steps {A : σ → ι → Prop} {s : σ} {i : ι}
    (h : ∀ x ∈ m.steps s (is ++ [i]), A x.1 x.2) :
    A (m.run s is) i :=
  h _ (m.mem_steps_concat s is i)

/-- A side condition that can be decided can be decided of a run. -/
def decideAllowed (ok : σ → ι → Prop) [∀ s i, Decidable (ok s i)] :
    (s : σ) → (is : List ι) → Decidable (m.Allowed ok s is)
  | _, [] => .isTrue trivial
  | s, i :: is =>
      haveI := decideAllowed ok (m.next s i) is
      inferInstanceAs (Decidable (_ ∧ _))

instance (ok : σ → ι → Prop) [∀ s i, Decidable (ok s i)] (s : σ)
    (is : List ι) : Decidable (m.Allowed ok s is) :=
  m.decideAllowed ok s is

/-- A side condition that always holds restricts nothing. -/
theorem allowed_of_forall {ok : σ → ι → Prop} (h : ∀ s i, ok s i) (s : σ)
    (is : List ι) : m.Allowed ok s is := by
  induction is generalizing s with
  | nil => trivial
  | cons i is ih => exact ⟨h s i, ih _⟩

/-- A side condition on inputs alone holds of a run whose inputs meet
it. -/
theorem allowed_of_mem {ok : σ → ι → Prop} (h : ∀ i ∈ is, ∀ s, ok s i)
    (s : σ) : m.Allowed ok s is := by
  induction is generalizing s with
  | nil => trivial
  | cons i is ih =>
      rw [List.forall_mem_cons] at h
      exact ⟨h.1 s, ih h.2 _⟩

/-- A weaker side condition lets the same runs through. -/
theorem allowed_mono {ok ok' : σ → ι → Prop} (h : ∀ s i, ok s i → ok' s i)
    {s : σ} (hok : m.Allowed ok s is) : m.Allowed ok' s is := by
  induction is generalizing s with
  | nil => trivial
  | cons i is ih => exact ⟨h s i hok.1, ih hok.2⟩

-- ====== invariants

variable {m}

/-- Two side conditions of one run. -/
theorem allowed_and {ok ok' : σ → ι → Prop} {s : σ} (h : m.Allowed ok s is)
    (h' : m.Allowed ok' s is) :
    m.Allowed (fun s i => ok s i ∧ ok' s i) s is := by
  induction is generalizing s with
  | nil => trivial
  | cons i is ih => exact ⟨⟨h.1, h'.1⟩, ih h.2 h'.2⟩

/-- A property one allowed step preserves holds after every allowed
run. -/
theorem invariant_of_allowed {ok : σ → ι → Prop} {P : σ → Prop}
    (hstep : ∀ s i, ok s i → P s → P (m.next s i)) {s : σ}
    (hok : m.Allowed ok s is) (hs : P s) : P (m.run s is) := by
  induction is generalizing s with
  | nil => exact hs
  | cons i is ih => exact ih hok.2 (hstep s i hok.1 hs)

/-- A property every step preserves holds after every run. -/
theorem invariant {P : σ → Prop} (hstep : ∀ s i, P s → P (m.next s i))
    {s : σ} (hs : P s) (is : List ι) : P (m.run s is) := by
  have hall : m.Allowed (fun _ _ => True) s is :=
    m.allowed_of_forall (fun _ _ => trivial) s is
  exact invariant_of_allowed (fun s i _ => hstep s i) hall hs

/-- Along an allowed run the inputs also meet what every allowed step
preserves. -/
theorem allowed_and_invariant {ok : σ → ι → Prop} {P : σ → Prop}
    (hstep : ∀ s i, ok s i → P s → P (m.next s i)) {s : σ}
    (hok : m.Allowed ok s is) (hs : P s) :
    m.Allowed (fun s i => ok s i ∧ P s) s is := by
  induction is generalizing s with
  | nil => trivial
  | cons i is ih =>
      exact ⟨⟨hok.1, hs⟩, ih hok.2 (hstep s i hok.1 hs)⟩

/-- Every step of an allowed run is an allowed one. -/
theorem forall_mem_steps_of_allowed {ok : σ → ι → Prop} {s : σ}
    (hok : m.Allowed ok s is) :
    ∀ x ∈ m.steps s is, ok x.1 x.2 := by
  induction is generalizing s with
  | nil => simp
  | cons i is ih =>
      rw [steps_cons, List.forall_mem_cons]
      exact ⟨hok.1, ih hok.2⟩

/-- Every state of an allowed run has what every allowed step keeps. -/
theorem forall_mem_states_of_allowed {ok : σ → ι → Prop} {P : σ → Prop}
    (hstep : ∀ s i, ok s i → P s → P (m.next s i)) {s : σ}
    (hok : m.Allowed ok s is) (hs : P s) : ∀ t ∈ m.states s is, P t := by
  induction is generalizing s with
  | nil => simpa using hs
  | cons i is ih =>
      rw [states_cons, List.forall_mem_cons]
      exact ⟨hs, ih hok.2 (hstep s i hok.1 hs)⟩

/-- Where an allowed step keeps a property exactly if it meets a condition,
an allowed run has the property throughout exactly if every step does. -/
theorem forall_mem_states_iff {ok ok' : σ → ι → Prop} {P : σ → Prop}
    (hstep : ∀ s i, ok s i → P s → (P (m.next s i) ↔ ok' s i)) {s : σ}
    (hok : m.Allowed ok s is) (hs : P s) :
    (∀ t ∈ m.states s is, P t) ↔ m.Allowed ok' s is := by
  induction is generalizing s with
  | nil => simpa using hs
  | cons i is ih =>
      rw [states_cons, List.forall_mem_cons, allowed_cons]
      have hhead : m.next s i ∈ m.states (m.next s i) is := by
        cases is <;> exact List.mem_cons_self
      constructor
      · rintro ⟨-, hall⟩
        have hnext := hall _ hhead
        exact ⟨(hstep s i hok.1 hs).mp hnext, (ih hok.2 hnext).mp hall⟩
      · rintro ⟨hi, hrest⟩
        have hnext := (hstep s i hok.1 hs).mpr hi
        exact ⟨hs, (ih hok.2 hnext).mpr hrest⟩

/-- A preorder every allowed step moves along is one allowed runs move
along. -/
theorem related_run_of_allowed {ok : σ → ι → Prop} {R : σ → σ → Prop}
    (hrefl : ∀ s, R s s) (htrans : ∀ {s t u}, R s t → R t u → R s u)
    (hstep : ∀ s i, ok s i → R s (m.next s i)) {s : σ}
    (hok : m.Allowed ok s is) : R s (m.run s is) := by
  induction is generalizing s with
  | nil => exact hrefl s
  | cons i is ih => exact htrans (hstep s i hok.1) (ih hok.2)

/-- Where no allowed step answers with a key that was answered before, no
key is answered twice in an allowed run. -/
theorem nodup_keys_of_allowed {κ : Type*} (keys : ο → List κ)
    {ok : σ → ι → Prop} {P : σ → List κ → Prop}
    (hstep : ∀ s i past, ok s i → P s past →
      (keys (m.answer s i)).Nodup
        ∧ (∀ k ∈ keys (m.answer s i), k ∉ past)
        ∧ P (m.next s i) (past ++ keys (m.answer s i))) {s : σ}
    {past : List κ} (hok : m.Allowed ok s is) (hs : P s past) :
    ((m.answers s is).flatMap keys).Nodup
      ∧ ∀ k ∈ (m.answers s is).flatMap keys, k ∉ past := by
  induction is generalizing s past with
  | nil => simp
  | cons i is ih =>
      obtain ⟨hnodup, hnew, hnext⟩ := hstep s i past hok.1 hs
      obtain ⟨hrest, hlater⟩ := ih hok.2 hnext
      rw [answers_cons, List.flatMap_cons]
      refine ⟨List.nodup_append.mpr ⟨hnodup, hrest, ?_⟩, fun k hk => ?_⟩
      · intro k hk l hl he
        exact hlater l hl (List.mem_append_right past (he ▸ hk))
      · rcases List.mem_append.mp hk with hk | hk
        · exact hnew k hk
        · exact fun hpast => hlater k hk (List.mem_append_left _ hpast)

/-- Where every step answers with keys that come after those answered
before, the keys of a run come in that order. -/
theorem pairwise_keys {κ : Type*} (keys : ο → List κ) {R : κ → κ → Prop}
    {P : σ → List κ → Prop}
    (hstep : ∀ s i past, P s past →
      (keys (m.answer s i)).Pairwise R
        ∧ (∀ k ∈ past, ∀ l ∈ keys (m.answer s i), R k l)
        ∧ P (m.next s i) (past ++ keys (m.answer s i)))
    {s : σ} {past : List κ} (hs : P s past) (hpast : past.Pairwise R)
    (is : List ι) :
    (past ++ (m.answers s is).flatMap keys).Pairwise R := by
  induction is generalizing s past with
  | nil => simpa using hpast
  | cons i is ih =>
      obtain ⟨hnew, hlater, hnext⟩ := hstep s i past hs
      have hboth : (past ++ keys (m.answer s i)).Pairwise R :=
        List.pairwise_append.mpr ⟨hpast, hnew, hlater⟩
      rw [answers_cons, List.flatMap_cons, ← List.append_assoc]
      exact ih hnext hboth

/-- What every allowed step answers, every answer of an allowed run is. -/
theorem forall_mem_answers_of_allowed {ok : σ → ι → Prop} {P : σ → Prop}
    {Q : ο → Prop}
    (hstep : ∀ s i, ok s i → P s → Q (m.answer s i) ∧ P (m.next s i))
    {s : σ} (hok : m.Allowed ok s is) (hs : P s) :
    ∀ o ∈ m.answers s is, Q o := by
  induction is generalizing s with
  | nil => simp
  | cons i is ih =>
      obtain ⟨hanswer, hnext⟩ := hstep s i hok.1 hs
      rw [answers_cons, List.forall_mem_cons]
      exact ⟨hanswer, ih hok.2 hnext⟩

/-- Where a step has a property exactly if it meets a condition, in every
state an invariant reaches, all steps of a run have it exactly if the run
is allowed. -/
theorem forall_mem_steps_iff {P : σ → Prop} {A B : σ → ι → Prop}
    (hstep : ∀ s i, P s → P (m.next s i))
    (h : ∀ s i, P s → (A s i ↔ B s i)) {s : σ} (hs : P s) (is : List ι) :
    (∀ x ∈ m.steps s is, A x.1 x.2) ↔ m.Allowed B s is := by
  induction is generalizing s with
  | nil => simp
  | cons i is ih =>
      rw [steps_cons, List.forall_mem_cons, allowed_cons, h s i hs,
        ih (hstep s i hs)]

-- ====== histories

variable (m)

/-- A run ends in a state it passes through. -/
theorem run_mem_states (s : σ) (is : List ι) : m.run s is ∈ m.states s is := by
  induction is generalizing s with
  | nil => exact List.mem_singleton_self s
  | cons i is ih => exact List.mem_cons_of_mem _ (ih (m.next s i))

variable {m}

/-- Every state of a run satisfies what every step preserves. -/
theorem forall_mem_states {P : σ → Prop}
    (hstep : ∀ s i, P s → P (m.next s i)) {s : σ} (hs : P s)
    (is : List ι) : ∀ t ∈ m.states s is, P t := by
  induction is generalizing s with
  | nil => simpa [states] using hs
  | cons i is ih =>
      intro t ht
      rcases List.mem_cons.mp ht with rfl | ht
      · exact hs
      · exact ih (hstep s i hs) t ht

/-- Every step of a run starts in a state with what every step
preserves. -/
theorem forall_mem_steps {P : σ → Prop}
    (hstep : ∀ s i, P s → P (m.next s i)) {s : σ} (hs : P s)
    (is : List ι) : ∀ x ∈ m.steps s is, P x.1 := by
  induction is generalizing s with
  | nil => simp
  | cons i is ih =>
      intro x hx
      rcases List.mem_cons.mp hx with rfl | hx
      · exact hs
      · exact ih (hstep s i hs) x hx

end Machine

end Lib
