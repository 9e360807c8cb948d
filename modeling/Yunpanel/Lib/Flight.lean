/-
Calls in flight: asynchronous calls that share one state.

# The pattern

An asynchronous call runs in segments. Each segment is synchronous: it
meets the shared state as the other calls left it, and what it had waited
for (the answer of something outside, or nothing) is part of the input. A
call that is not finished is a value of `κ`, its stage; a stage is all the
call remembers. `Protocol.resume` is one segment, `Protocol.world` what the
environment does to the shared state in between, and `Protocol.reopen` what
of the shared state survives a crash, which forgets every call.

A segment leaves notes behind (what it invoked, what it changed), and the
machine answers a step with its notes under the call's number, so a
property of what calls did in a run is a property of the run's answers.

# What is packaged here

- `Keeps`: an invariant of the shared state together with one of each
  stage, one case per kind of step, and `keeps_run`.
- `KeepsApart`: the same with a relation between the stages of any two
  calls, for what only one call at a time has in hand, and `apart_run`.
- `never_both`: no call notes both of two things, where the first leaves
  its call marked and a marked call never notes the second.
- `settled_run`: what one call unsettles is settled when all are over,
  where a segment settles, takes over what is owed, or leaves it alone.
- `run_alone`: the last call of a state runs as it does on its own, where
  nothing but its segments and moves of the environment come.
- `used_le_earned`: a call uses no more than it earned, where every
  segment accounts for what it uses by what it earns or still owes.
-/
import Yunpanel.Lib.Machine
import Mathlib.Data.List.Perm.Subperm

namespace Lib

universe u

/-- Asynchronous calls `χ` over a shared state: stages `κ`, awaited answers
`α`, moves of the environment `ξ`, notes `ο`. -/
structure Protocol (σ χ κ α ξ ο : Type u) where
  enter : χ → κ
  resume : σ → κ → α → σ × Option κ × List ο
  world : σ → ξ → σ
  reopen : σ → σ

/-- The shared state, and the stage of every call there was: none for one
that is over. -/
structure Flight (σ κ : Type u) where
  shared : σ
  calls : List (Option κ)

namespace Flight

inductive Event (χ α ξ : Type u) where
  | start (c : χ)
  | answer (id : Nat) (a : α)
  | world (x : ξ)
  | restart

variable {σ χ κ α ξ ο : Type u}

/-- Nothing has been called yet. -/
def fresh (s : σ) : Flight σ κ := { shared := s, calls := [] }

/-- The stage of a call that is not over. -/
def stage (f : Flight σ κ) (id : Nat) : Option κ := f.calls[id]?.join

/-- A call that starts is the only one it is news about. -/
theorem stage_start (f : Flight σ κ) (k : κ) (id : Nat) :
    stage { f with calls := f.calls ++ [some k] } id = f.stage id
      ∨ stage { f with calls := f.calls ++ [some k] } id = some k := by
  unfold stage
  dsimp only
  rcases Nat.lt_trichotomy id f.calls.length with hlt | heq | hgt
  · rw [List.getElem?_append_left hlt]
    exact .inl rfl
  · right
    simp [heq]
  · have hlen : (f.calls ++ [some k]).length ≤ id := by
      rw [List.length_append, List.length_singleton]
      omega
    rw [List.getElem?_eq_none hlen, List.getElem?_eq_none (by omega)]
    exact .inl rfl

/-- The stages of a state in which one more call has started. -/
theorem stage_start_eq_some {f : Flight σ κ} {k k' : κ} {id : Nat}
    (h : stage { f with calls := f.calls ++ [some k] } id = some k') :
    f.stage id = some k' ∨ (id = f.calls.length ∧ k' = k) := by
  unfold stage at h ⊢
  dsimp only at h
  rcases Nat.lt_trichotomy id f.calls.length with hlt | heq | hgt
  · rw [List.getElem?_append_left hlt] at h
    exact .inl h
  · right
    rw [heq, List.getElem?_concat_length] at h
    exact ⟨heq, (Option.some.inj h).symm⟩
  · have hlen : (f.calls ++ [some k]).length ≤ id := by
      rw [List.length_append, List.length_singleton]
      omega
    rw [List.getElem?_eq_none hlen] at h
    cases h

/-- Where every call is over there is no stage. -/
theorem stage_eq_none {f : Flight σ κ}
    (h : f.calls.all Option.isNone = true) (id : Nat) :
    f.stage id = none := by
  unfold stage
  cases hid : f.calls[id]? with
  | none => rfl
  | some k =>
      have hmem := List.all_eq_true.mp h k (List.mem_of_getElem? hid)
      exact Option.isNone_iff_eq_none.mp hmem

theorem stage_set_self {f : Flight σ κ} {id : Nat} {k : κ}
    (h : f.stage id = some k) (s : σ) (k' : Option κ) :
    stage { shared := s, calls := f.calls.set id k' } id = k' := by
  have hlt : id < f.calls.length := by
    by_contra hge
    unfold stage at h
    rw [List.getElem?_eq_none (by omega)] at h
    cases h
  unfold stage
  dsimp only
  rw [List.getElem?_set_self hlt]
  rfl

theorem stage_set_ne (f : Flight σ κ) {id other : Nat} (h : other ≠ id)
    (s : σ) (k' : Option κ) :
    stage { shared := s, calls := f.calls.set other k' } id
      = f.stage id := by
  unfold stage
  dsimp only
  rw [List.getElem?_set_ne h]

/-- After a crash there are no calls. -/
theorem stage_forgotten (s : σ) (calls : List (Option κ)) (id : Nat) :
    stage { shared := s, calls := calls.map fun _ => (none : Option κ) } id
      = none := by
  unfold stage
  dsimp only
  rw [List.getElem?_map]
  cases calls[id]? <;> rfl

end Flight

namespace Protocol

open Flight

variable {σ χ κ α ξ ο : Type u} (p : Protocol σ χ κ α ξ ο)

def step (f : Flight σ κ) :
    Flight.Event χ α ξ → Flight σ κ × List (Nat × ο)
  | .start c => ({ f with calls := f.calls ++ [some (p.enter c)] }, [])
  | .answer id a =>
      match f.stage id with
      | none => (f, [])
      | some k =>
          let (s, k', notes) := p.resume f.shared k a
          ({ shared := s, calls := f.calls.set id k' },
            notes.map fun note => (id, note))
  | .world x => ({ f with shared := p.world f.shared x }, [])
  | .restart =>
      ({ shared := p.reopen f.shared, calls := f.calls.map fun _ => none },
        [])

def machine : Machine (Flight σ κ) (Flight.Event χ α ξ) (List (Nat × ο))
    where
  step := p.step

@[simp] theorem next_start (f : Flight σ κ) (c : χ) :
    p.machine.next f (.start c)
      = { f with calls := f.calls ++ [some (p.enter c)] } := rfl

@[simp] theorem next_world (f : Flight σ κ) (x : ξ) :
    p.machine.next f (.world x)
      = { f with shared := p.world f.shared x } := rfl

@[simp] theorem next_restart (f : Flight σ κ) :
    p.machine.next f .restart
      = { shared := p.reopen f.shared,
          calls := f.calls.map fun _ => none } := rfl

theorem step_answer_none {f : Flight σ κ} {id : Nat} (a : α)
    (h : f.stage id = none) : p.step f (.answer id a) = (f, []) := by
  simp only [step, h]

theorem step_answer {f : Flight σ κ} {id : Nat} {k : κ} (a : α)
    (h : f.stage id = some k) :
    p.step f (.answer id a)
      = ({ shared := (p.resume f.shared k a).1,
           calls := f.calls.set id (p.resume f.shared k a).2.1 },
          (p.resume f.shared k a).2.2.map fun note => (id, note)) := by
  simp only [step, h]

-- ====== invariants

/-- An invariant of the shared state, and one of every stage that other
steps leave alone. -/
structure Keeps (ok : Flight σ κ → Flight.Event χ α ξ → Prop)
    (P : σ → Prop) (Q : σ → κ → Prop) : Prop where
  start : ∀ f c, ok f (.start c) → P f.shared → Q f.shared (p.enter c)
  resume : ∀ f id a k, ok f (.answer id a) → f.stage id = some k →
    P f.shared → Q f.shared k →
      P (p.resume f.shared k a).1
        ∧ (∀ k' ∈ (p.resume f.shared k a).2.1,
            Q (p.resume f.shared k a).1 k')
        ∧ ∀ other, Q f.shared other → Q (p.resume f.shared k a).1 other
  world : ∀ f x, ok f (.world x) → P f.shared →
    P (p.world f.shared x)
      ∧ ∀ k, Q f.shared k → Q (p.world f.shared x) k
  restart : ∀ f, ok f .restart → P f.shared → P (p.reopen f.shared)

variable {p}

/-- What a stage invariant says of a whole state. -/
structure Sound (P : σ → Prop) (Q : σ → κ → Prop) (f : Flight σ κ) :
    Prop where
  shared : P f.shared
  calls : ∀ k, some k ∈ f.calls → Q f.shared k

theorem mem_calls_of_stage {f : Flight σ κ} {id : Nat} {k : κ}
    (h : f.stage id = some k) : some k ∈ f.calls := by
  exact List.mem_of_getElem? (Option.join_eq_some_iff.mp h)

variable {e : Flight.Event χ α ξ} {events : List (Flight.Event χ α ξ)}
  {s : σ}

theorem sound_next {ok : Flight σ κ → Flight.Event χ α ξ → Prop}
    {P : σ → Prop} {Q : σ → κ → Prop} (h : p.Keeps ok P Q) {f : Flight σ κ}
    (hok : ok f e) (hf : Sound P Q f) : Sound P Q (p.machine.next f e) := by
  cases e with
  | start c =>
      refine ⟨hf.shared, fun k' hk' => ?_⟩
      rcases List.mem_append.mp hk' with hk' | hk'
      · exact hf.calls k' hk'
      · obtain rfl := Option.some.inj (List.mem_singleton.mp hk')
        exact h.start f c hok hf.shared
  | answer id a =>
      show Sound P Q (p.step f (.answer id a)).1
      cases hstage : f.stage id with
      | none =>
          rw [p.step_answer_none a hstage]
          exact hf
      | some k =>
          rw [p.step_answer a hstage]
          obtain ⟨hshared, hself, hothers⟩ := h.resume f id a k hok hstage
            hf.shared (hf.calls k (mem_calls_of_stage hstage))
          refine ⟨hshared, fun k' hk' => ?_⟩
          rcases List.mem_or_eq_of_mem_set hk' with hk' | hk'
          · exact hothers k' (hf.calls k' hk')
          · exact hself k' hk'.symm
  | world x =>
      obtain ⟨hshared, hothers⟩ := h.world f x hok hf.shared
      exact ⟨hshared, fun k hk => hothers k (hf.calls k hk)⟩
  | restart =>
      refine ⟨h.restart f hok hf.shared, fun k hk => ?_⟩
      obtain ⟨o, -, hnone⟩ := List.mem_map.mp hk
      cases hnone

/-- The invariant holds along every allowed run. -/
theorem keeps_run {ok : Flight σ κ → Flight.Event χ α ξ → Prop}
    {P : σ → Prop} {Q : σ → κ → Prop} (h : p.Keeps ok P Q) {f : Flight σ κ}
    (hok : p.machine.Allowed ok f events) (hf : Sound P Q f) :
    Sound P Q (p.machine.run f events) :=
  Machine.invariant_of_allowed (P := Sound P Q)
    (fun _ _ hok hf => sound_next h hok hf) hok hf

theorem sound_fresh {P : σ → Prop} {Q : σ → κ → Prop} (h : P s) :
    Sound P Q (fresh s) :=
  ⟨h, fun k hk => by cases hk⟩

-- ====== rivals

/-- An invariant of the shared state and one of every stage, where a
segment of one call may use that the stages of the others are apart from
its own, and has to keep them so. -/
structure KeepsApart (p : Protocol σ χ κ α ξ ο)
    (ok : Flight σ κ → Flight.Event χ α ξ → Prop) (P : σ → Prop)
    (Q : σ → κ → Prop) (R : κ → κ → Prop) : Prop where
  start : ∀ f c, ok f (.start c) → P f.shared →
    Q f.shared (p.enter c) ∧ ∀ k, R (p.enter c) k
  resume : ∀ f id a k, ok f (.answer id a) → f.stage id = some k →
    P f.shared → Q f.shared k →
      P (p.resume f.shared k a).1
        ∧ (∀ k' ∈ (p.resume f.shared k a).2.1,
            Q (p.resume f.shared k a).1 k')
        ∧ ∀ other l, other ≠ id → f.stage other = some l →
            Q f.shared l → R k l →
              Q (p.resume f.shared k a).1 l
                ∧ ∀ k' ∈ (p.resume f.shared k a).2.1, R k' l
  world : ∀ f x, ok f (.world x) → P f.shared →
    P (p.world f.shared x)
      ∧ ∀ k, Q f.shared k → Q (p.world f.shared x) k
  restart : ∀ f, ok f .restart → P f.shared → P (p.reopen f.shared)

/-- What the invariants say of a whole state. -/
structure Apart (P : σ → Prop) (Q : σ → κ → Prop) (R : κ → κ → Prop)
    (f : Flight σ κ) : Prop where
  shared : P f.shared
  calls : ∀ id k, f.stage id = some k → Q f.shared k
  apart : ∀ id other k l, id ≠ other → f.stage id = some k →
    f.stage other = some l → R k l

theorem apart_next {ok : Flight σ κ → Flight.Event χ α ξ → Prop}
    {P : σ → Prop} {Q : σ → κ → Prop} {R : κ → κ → Prop}
    (hsymm : ∀ {k l}, R k l → R l k) (h : p.KeepsApart ok P Q R)
    {f : Flight σ κ} (hok : ok f e) (hf : Apart P Q R f) :
    Apart P Q R (p.machine.next f e) := by
  cases e with
  | start c =>
      obtain ⟨hnew, hnewapart⟩ := h.start f c hok hf.shared
      refine ⟨hf.shared, fun id k hk => ?_, fun id other k l hne hk hl => ?_⟩
      · rcases stage_start_eq_some hk with hk | ⟨-, rfl⟩
        · exact hf.calls id k hk
        · exact hnew
      · rcases stage_start_eq_some hk with hk | ⟨hid, rfl⟩
        · rcases stage_start_eq_some hl with hl | ⟨-, rfl⟩
          · exact hf.apart id other k l hne hk hl
          · exact hsymm (hnewapart k)
        · exact hnewapart l
  | answer id a =>
      show Apart P Q R (p.step f (.answer id a)).1
      cases hstage : f.stage id with
      | none =>
          rw [p.step_answer_none a hstage]
          exact hf
      | some k =>
          rw [p.step_answer a hstage]
          obtain ⟨hshared, hself, hothers⟩ := h.resume f id a k hok hstage
            hf.shared (hf.calls id k hstage)
          have hstages : ∀ j l, stage
              { shared := (p.resume f.shared k a).1,
                calls := f.calls.set id (p.resume f.shared k a).2.1 } j
                = some l →
              (j = id ∧ (p.resume f.shared k a).2.1 = some l)
                ∨ (j ≠ id ∧ f.stage j = some l) := by
            intro j l hl
            by_cases hj : j = id
            · subst hj
              rw [stage_set_self hstage] at hl
              exact .inl ⟨rfl, hl⟩
            · rw [stage_set_ne f (Ne.symm hj)] at hl
              exact .inr ⟨hj, hl⟩
          have hkept : ∀ j l, j ≠ id → f.stage j = some l →
              Q (p.resume f.shared k a).1 l
                ∧ ∀ k' ∈ (p.resume f.shared k a).2.1, R k' l :=
            fun j l hj hl => hothers j l hj hl (hf.calls j l hl)
              (hf.apart id j k l (Ne.symm hj) hstage hl)
          refine ⟨hshared, fun j l hl => ?_, fun i j k' l hne hk' hl => ?_⟩
          · rcases hstages j l hl with ⟨-, hl⟩ | ⟨hj, hl⟩
            · exact hself l hl
            · exact (hkept j l hj hl).1
          · rcases hstages i k' hk' with ⟨hi, hnext⟩ | ⟨hi, hold⟩
            · have hj : j ≠ id := fun hj => hne (hi.trans hj.symm)
              obtain ⟨hj', -⟩ | ⟨-, hl⟩ := hstages j l hl
              · exact absurd hj' hj
              · exact (hkept j l hj hl).2 k' hnext
            · rcases hstages j l hl with ⟨-, hnext⟩ | ⟨-, hl⟩
              · exact hsymm ((hkept i k' hi hold).2 l hnext)
              · exact hf.apart i j k' l hne hold hl
  | world x =>
      obtain ⟨hshared, hothers⟩ := h.world f x hok hf.shared
      exact ⟨hshared, fun id k hk => hothers k (hf.calls id k hk), hf.apart⟩
  | restart =>
      have hnone : ∀ id (k : κ), stage
          { shared := p.reopen f.shared,
            calls := f.calls.map fun _ => none } id ≠ some k := by
        intro id k hk
        rw [stage_forgotten] at hk
        cases hk
      exact ⟨h.restart f hok hf.shared,
        fun id k hk => absurd hk (hnone id k),
        fun id other k l _ hk => absurd hk (hnone id k)⟩

/-- The invariants hold along every allowed run. -/
theorem apart_run {ok : Flight σ κ → Flight.Event χ α ξ → Prop}
    {P : σ → Prop} {Q : σ → κ → Prop} {R : κ → κ → Prop}
    (hsymm : ∀ {k l}, R k l → R l k) (h : p.KeepsApart ok P Q R)
    {f : Flight σ κ} (hok : p.machine.Allowed ok f events)
    (hf : Apart P Q R f) :
    Apart P Q R (p.machine.run f events) :=
  Machine.invariant_of_allowed (P := Apart P Q R)
    (fun _ _ hok hf => apart_next hsymm h hok hf) hok hf

theorem apart_fresh {P : σ → Prop} {Q : σ → κ → Prop} {R : κ → κ → Prop}
    (h : P s) : Apart P Q R (fresh s) := by
  have hnone : ∀ id (k : κ), (fresh s : Flight σ κ).stage id ≠ some k := by
    intro id k hk
    cases hk
  exact ⟨h, fun id k hk => absurd hk (hnone id k),
    fun id other k l _ hk => absurd hk (hnone id k)⟩

-- ====== histories

/-- What the calls of a run noted, oldest first. -/
def notes (p : Protocol σ χ κ α ξ ο) (f : Flight σ κ)
    (events : List (Flight.Event χ α ξ)) : List (Nat × ο) :=
  (p.machine.answers f events).flatten

/-- The notes of a run with one step more. -/
theorem notes_concat (f : Flight σ κ) (events : List (Flight.Event χ α ξ))
    (e : Flight.Event χ α ξ) :
    p.notes f (events ++ [e])
      = p.notes f events ++ p.machine.answer (p.machine.run f events) e := by
  induction events generalizing f with
  | nil =>
      show (p.machine.answer f e :: []).flatten = _
      rw [List.flatten_cons, List.flatten_nil, List.append_nil]
      rfl
  | cons e' es ih =>
      show p.machine.answer f e' ++ p.notes (p.machine.next f e') (es ++ [e])
        = (p.machine.answer f e' ++ p.notes (p.machine.next f e') es) ++ _
      rw [ih, List.append_assoc]
      rfl

/-- Every step comes where `ok` lets it come, which may look at what was
noted so far. -/
def AllowedNoted (p : Protocol σ χ κ α ξ ο)
    (ok : Flight σ κ → List (Nat × ο) → Flight.Event χ α ξ → Prop) :
    Flight σ κ → List (Nat × ο) → List (Flight.Event χ α ξ) → Prop
  | _, _, [] => True
  | f, past, e :: es =>
      ok f past e
        ∧ AllowedNoted p ok (p.machine.next f e) (past ++ p.machine.answer f e)
            es

/-- What every allowed step keeps of the state and of the notes so far
holds after every allowed run. -/
theorem noted_run_of_allowedNoted
    {ok : Flight σ κ → List (Nat × ο) → Flight.Event χ α ξ → Prop}
    {P : Flight σ κ → List (Nat × ο) → Prop}
    (hstep : ∀ f e past, ok f past e → P f past →
      P (p.machine.next f e) (past ++ p.machine.answer f e))
    {f : Flight σ κ} {past : List (Nat × ο)}
    (hok : p.AllowedNoted ok f past events) (hf : P f past) :
    P (p.machine.run f events) (past ++ p.notes f events) := by
  induction events generalizing f past with
  | nil =>
      rw [show p.notes f [] = [] from rfl, List.append_nil]
      exact hf
  | cons e es ih =>
      have hnext := ih hok.2 (hstep f e past hok.1 hf)
      rwa [List.append_assoc] at hnext

theorem allowedNoted_of_allowed
    {ok : Flight σ κ → Flight.Event χ α ξ → Prop} {f : Flight σ κ}
    (past : List (Nat × ο)) (hok : p.machine.Allowed ok f events) :
    p.AllowedNoted (fun f _ e => ok f e) f past events := by
  induction events generalizing f past with
  | nil => trivial
  | cons e es ih => exact ⟨hok.1, ih _ hok.2⟩

/-- `noted_run_of_allowedNoted` where what is allowed is a matter of the
state alone. -/
theorem noted_run {ok : Flight σ κ → Flight.Event χ α ξ → Prop}
    {P : Flight σ κ → List (Nat × ο) → Prop}
    (hstep : ∀ f e past, ok f e → P f past →
      P (p.machine.next f e) (past ++ p.machine.answer f e))
    {f : Flight σ κ} {past : List (Nat × ο)}
    (hok : p.machine.Allowed ok f events) (hf : P f past) :
    P (p.machine.run f events) (past ++ p.notes f events) :=
  noted_run_of_allowedNoted hstep (allowedNoted_of_allowed past hok) hf

/-- A call is numbered before it notes anything. -/
theorem lt_of_stage {f : Flight σ κ} {id : Nat} {k : κ}
    (h : f.stage id = some k) : id < f.calls.length := by
  by_contra hge
  unfold Flight.stage at h
  rw [List.getElem?_eq_none (by omega)] at h
  cases h

theorem length_calls_next (f : Flight σ κ) (e : Flight.Event χ α ξ) :
    f.calls.length ≤ (p.machine.next f e).calls.length := by
  cases e with
  | start c =>
      show _ ≤ (f.calls ++ [some (p.enter c)]).length
      rw [List.length_append]
      omega
  | answer id a =>
      show _ ≤ (p.step f (.answer id a)).1.calls.length
      cases hstage : f.stage id with
      | none => rw [p.step_answer_none a hstage]
      | some k =>
          rw [p.step_answer a hstage]
          show _ ≤ (f.calls.set id _).length
          rw [List.length_set]
  | world x => exact Nat.le_refl _
  | restart =>
      show _ ≤ (f.calls.map fun _ => none).length
      rw [List.length_map]

/-- What a step says of the stage of a call that had started: the call
itself was resumed, or has the stage it had, or was forgotten. -/
theorem stage_next {f : Flight σ κ} {id : Nat}
    (hid : id < f.calls.length) (e : Flight.Event χ α ξ) {k' : κ}
    (h : (p.machine.next f e).stage id = some k') :
    f.stage id = some k'
      ∨ ∃ a k, e = .answer id a ∧ f.stage id = some k
          ∧ (p.resume f.shared k a).2.1 = some k' := by
  cases e with
  | start c =>
      rcases stage_start_eq_some h with h | ⟨heq, -⟩
      · exact .inl h
      · omega
  | answer other a =>
      have hstep : (p.step f (.answer other a)).1.stage id = some k' := h
      cases hstage : f.stage other with
      | none =>
          rw [p.step_answer_none a hstage] at hstep
          exact .inl hstep
      | some k =>
          rw [p.step_answer a hstage] at hstep
          by_cases hother : other = id
          · subst hother
            rw [stage_set_self hstage] at hstep
            exact .inr ⟨a, k, rfl, hstage, hstep⟩
          · rw [stage_set_ne f hother] at hstep
            exact .inl hstep
  | world x => exact .inl h
  | restart =>
      rw [p.next_restart, stage_forgotten] at h
      cases h

/-- A note of a step is of the call that was resumed. -/
theorem mem_answer {f : Flight σ κ} {id : Nat} {n : ο}
    (h : (id, n) ∈ p.machine.answer f e) :
    ∃ a k, e = .answer id a ∧ f.stage id = some k
      ∧ n ∈ (p.resume f.shared k a).2.2 := by
  cases e with
  | start c => cases h
  | answer other a =>
      have hmem : (id, n) ∈ (p.step f (.answer other a)).2 := h
      cases hstage : f.stage other with
      | none =>
          rw [p.step_answer_none a hstage] at hmem
          cases hmem
      | some k =>
          rw [p.step_answer a hstage] at hmem
          obtain ⟨m, hm, heq⟩ := List.mem_map.mp hmem
          obtain ⟨rfl, rfl⟩ := Prod.mk.inj heq
          exact ⟨a, k, rfl, hstage, hm⟩
  | world x => cases h
  | restart => cases h

/-- What the history of one call is, where a call that has noted `a` is
marked from then on and a marked call never notes `b`. -/
structure Marked (marked : κ → Prop) (a b : ο → Prop) (f : Flight σ κ)
    (past : List (Nat × ο)) : Prop where
  started : ∀ id n, (id, n) ∈ past → id < f.calls.length
  marked : ∀ id n k, (id, n) ∈ past → a n → f.stage id = some k → marked k
  ended : ∀ id n, (id, n) ∈ past → b n → f.stage id = none
  apart : ∀ id n m, (id, n) ∈ past → (id, m) ∈ past → a n → ¬b m

theorem marked_nil (marked : κ → Prop) (a b : ο → Prop) (f : Flight σ κ) :
    Marked marked a b f [] :=
  ⟨fun _ _ h => (nomatch h), fun _ _ _ h => (nomatch h),
    fun _ _ h => (nomatch h), fun _ _ _ h => (nomatch h)⟩

theorem marked_next {ok : Flight σ κ → Flight.Event χ α ξ → Prop}
    {marked : κ → Prop} {a b : ο → Prop}
    (hmarked : ∀ f id x k, ok f (.answer id x) → f.stage id = some k →
      marked k ∨ (∃ n ∈ (p.resume f.shared k x).2.2, a n) →
        (∀ n ∈ (p.resume f.shared k x).2.2, ¬b n)
          ∧ ∀ k' ∈ (p.resume f.shared k x).2.1, marked k')
    (hover : ∀ f id x k, ok f (.answer id x) → f.stage id = some k →
      (∃ n ∈ (p.resume f.shared k x).2.2, b n) →
        (p.resume f.shared k x).2.1 = none)
    (f : Flight σ κ) (e : Flight.Event χ α ξ) (past : List (Nat × ο))
    (hok : ok f e) (hpast : Marked marked a b f past) :
    Marked marked a b (p.machine.next f e)
      (past ++ p.machine.answer f e) := by
  have hlen := p.length_calls_next f e
  refine ⟨fun id n h => ?_, fun id n k h ha hk => ?_, fun id n h hb => ?_,
    fun id n m hn hm ha => ?_⟩
  · rcases List.mem_append.mp h with h | h
    · exact Nat.lt_of_lt_of_le (hpast.started id n h) hlen
    · obtain ⟨x, k, -, hk, -⟩ := p.mem_answer h
      exact Nat.lt_of_lt_of_le (lt_of_stage hk) hlen
  · rcases List.mem_append.mp h with hold | hnew
    · rcases p.stage_next (hpast.started id n hold) e hk with hsame
        | ⟨x, l, rfl, hl, hnext⟩
      · exact hpast.marked id n k hold ha hsame
      · exact (hmarked f id x l hok hl
          (.inl (hpast.marked id n l hold ha hl))).2 k hnext
    · -- the stage a resumed call has is the one it was left with
      obtain ⟨x, l, rfl, hl, hmem⟩ := p.mem_answer hnew
      have hself : (p.step f (.answer id x)).1.stage id = some k := hk
      rw [p.step_answer x hl, stage_set_self hl] at hself
      exact (hmarked f id x l hok hl (.inr ⟨n, hmem, ha⟩)).2 k hself
  · rcases List.mem_append.mp h with h | h
    · have hnone := hpast.ended id n h hb
      cases hk : (p.machine.next f e).stage id with
      | none => rfl
      | some k =>
          rcases p.stage_next (hpast.started id n h) e hk with hold
            | ⟨x, l, -, hl, -⟩
          · rw [hnone] at hold
            cases hold
          · rw [hnone] at hl
            cases hl
    · obtain ⟨x, l, rfl, hl, hmem⟩ := p.mem_answer h
      show (p.step f (.answer id x)).1.stage id = none
      rw [p.step_answer x hl, stage_set_self hl]
      exact hover f id x l hok hl ⟨n, hmem, hb⟩
  · rcases List.mem_append.mp hn with hold | hnew
    · rcases List.mem_append.mp hm with hold' | hnew'
      · exact hpast.apart id n m hold hold' ha
      · obtain ⟨x, l, rfl, hl, hmem⟩ := p.mem_answer hnew'
        exact (hmarked f id x l hok hl
          (.inl (hpast.marked id n l hold ha hl))).1 m hmem
    · obtain ⟨x, l, rfl, hl, hmem⟩ := p.mem_answer hnew
      rcases List.mem_append.mp hm with hold' | hnew'
      · intro hb
        have hnone := hpast.ended id m hold' hb
        rw [hnone] at hl
        cases hl
      · obtain ⟨y, l', heq, hl', hmem'⟩ := p.mem_answer hnew'
        obtain ⟨-, rfl⟩ := Flight.Event.answer.inj heq
        obtain rfl := Option.some.inj (hl.symm.trans hl')
        exact (hmarked f id x l hok hl (.inr ⟨n, hmem, ha⟩)).1 m hmem'

/-- Where a segment that notes `a` leaves its call marked, a marked call
notes no `b`, and `b` ends a call, no call of an allowed run notes both. -/
theorem never_both {ok : Flight σ κ → Flight.Event χ α ξ → Prop}
    {q : κ → Prop} {a b : ο → Prop}
    (hmarked : ∀ f id x k, ok f (.answer id x) → f.stage id = some k →
      q k ∨ (∃ n ∈ (p.resume f.shared k x).2.2, a n) →
        (∀ n ∈ (p.resume f.shared k x).2.2, ¬b n)
          ∧ ∀ k' ∈ (p.resume f.shared k x).2.1, q k')
    (hover : ∀ f id x k, ok f (.answer id x) → f.stage id = some k →
      (∃ n ∈ (p.resume f.shared k x).2.2, b n) →
        (p.resume f.shared k x).2.1 = none) {f : Flight σ κ}
    (hok : p.machine.Allowed ok f events) {id : Nat} {n m : ο}
    (hn : (id, n) ∈ p.notes f events) (hm : (id, m) ∈ p.notes f events)
    (ha : a n) : ¬b m := by
  have hend := noted_run (marked_next hmarked hover) hok
    (marked_nil q a b f)
  rw [List.nil_append] at hend
  exact hend.apart id n m hn hm ha

-- ====== obligations

/-- Either all is settled, or a call is under way that owes it, or one was
given up. -/
def Owed (settled : σ → Prop) (owes : σ → κ → Prop) (givesUp : ο → Prop)
    (f : Flight σ κ) (past : List (Nat × ο)) : Prop :=
  settled f.shared ∨ (∃ id k, f.stage id = some k ∧ owes f.shared k)
    ∨ ∃ id n, (id, n) ∈ past ∧ givesUp n

theorem owed_next {ok : Flight σ κ → Flight.Event χ α ξ → Prop}
    {settled : σ → Prop} {owes : σ → κ → Prop} {givesUp : ο → Prop}
    (hresume : ∀ f id x k, ok f (.answer id x) → f.stage id = some k →
      settled (p.resume f.shared k x).1
        ∨ (∃ k', (p.resume f.shared k x).2.1 = some k'
            ∧ owes (p.resume f.shared k x).1 k')
        ∨ (∃ n ∈ (p.resume f.shared k x).2.2, givesUp n)
        ∨ (¬owes f.shared k ∧ ¬settled f.shared
            ∧ ∀ l, owes f.shared l → owes (p.resume f.shared k x).1 l))
    (hworld : ∀ f x, ok f (.world x) →
      (settled f.shared → settled (p.world f.shared x))
        ∧ ∀ k, owes f.shared k → owes (p.world f.shared x) k)
    (hrestart : ∀ f, ¬ok f .restart)
    (f : Flight σ κ) (e : Flight.Event χ α ξ) (past : List (Nat × ο))
    (hok : ok f e) (hpast : Owed settled owes givesUp f past) :
    Owed settled owes givesUp (p.machine.next f e)
      (past ++ p.machine.answer f e) := by
  cases e with
  | start c =>
      rcases hpast with h | ⟨id, k, hk, howes⟩ | ⟨id, n, hn, hgive⟩
      · exact .inl h
      · refine .inr (.inl ⟨id, k, ?_, howes⟩)
        have hlt := lt_of_stage hk
        rw [p.next_start]
        unfold Flight.stage at hk ⊢
        dsimp only
        rwa [List.getElem?_append_left hlt]
      · exact .inr (.inr ⟨id, n, List.mem_append_left _ hn, hgive⟩)
  | answer id x =>
      cases hstage : f.stage id with
      | none =>
          have hnext : p.machine.next f (.answer id x) = f :=
            congrArg Prod.fst (p.step_answer_none x hstage)
          rw [hnext]
          rcases hpast with h | h | ⟨j, n, hn, hgive⟩
          · exact .inl h
          · exact .inr (.inl h)
          · exact .inr (.inr ⟨j, n, List.mem_append_left _ hn, hgive⟩)
      | some k =>
          have hnext : p.machine.next f (.answer id x)
              = { shared := (p.resume f.shared k x).1,
                  calls := f.calls.set id (p.resume f.shared k x).2.1 } :=
            congrArg Prod.fst (p.step_answer x hstage)
          have hanswer : p.machine.answer f (.answer id x)
              = (p.resume f.shared k x).2.2.map fun note => (id, note) :=
            congrArg Prod.snd (p.step_answer x hstage)
          rw [hnext, hanswer]
          rcases hresume f id x k hok hstage with h | ⟨k', hk', howes⟩
            | ⟨n, hn, hgive⟩ | ⟨hfree, hopen, hothers⟩
          · exact .inl h
          · refine .inr (.inl ⟨id, k', ?_, howes⟩)
            rw [stage_set_self hstage]
            exact hk'
          · exact .inr (.inr ⟨id, n, List.mem_append_right _
              (List.mem_map_of_mem hn), hgive⟩)
          · rcases hpast with h | ⟨j, l, hl, howes⟩ | ⟨j, n, hn, hgive⟩
            · exact absurd h hopen
            · refine .inr (.inl ⟨j, l, ?_, hothers l howes⟩)
              by_cases hj : id = j
              · subst hj
                obtain rfl := Option.some.inj (hstage.symm.trans hl)
                exact absurd howes hfree
              · rw [stage_set_ne f hj]
                exact hl
            · exact .inr (.inr ⟨j, n, List.mem_append_left _ hn, hgive⟩)
  | world x =>
      obtain ⟨hsettled, howed⟩ := hworld f x hok
      rcases hpast with h | ⟨id, k, hk, howes⟩ | ⟨id, n, hn, hgive⟩
      · exact .inl (hsettled h)
      · exact .inr (.inl ⟨id, k, hk, howed k howes⟩)
      · exact .inr (.inr ⟨id, n, List.mem_append_left _ hn, hgive⟩)
  | restart => exact absurd hok (hrestart f)

/-- Where a segment settles, takes over what is owed, gives up, or owed
nothing and leaves what others owe, an allowed run that no call gives up
ends settled once no call is under way. -/
theorem settled_run {ok : Flight σ κ → Flight.Event χ α ξ → Prop}
    {q : σ → Prop} {o : σ → κ → Prop} {g : ο → Prop}
    (hresume : ∀ f id x k, ok f (.answer id x) → f.stage id = some k →
      q (p.resume f.shared k x).1
        ∨ (∃ k', (p.resume f.shared k x).2.1 = some k'
            ∧ o (p.resume f.shared k x).1 k')
        ∨ (∃ n ∈ (p.resume f.shared k x).2.2, g n)
        ∨ (¬o f.shared k ∧ ¬q f.shared
            ∧ ∀ l, o f.shared l → o (p.resume f.shared k x).1 l))
    (hworld : ∀ f x, ok f (.world x) →
      (q f.shared → q (p.world f.shared x))
        ∧ ∀ k, o f.shared k → o (p.world f.shared x) k)
    (hrestart : ∀ f, ¬ok f .restart) {f : Flight σ κ}
    (hok : p.machine.Allowed ok f events) (hf : q f.shared)
    (hnone : ∀ id, (p.machine.run f events).stage id = none)
    (hkept : ∀ id n, (id, n) ∈ p.notes f events → ¬g n) :
    q (p.machine.run f events).shared := by
  have hstart : Owed q o g f [] := .inl hf
  have hend := noted_run (owed_next hresume hworld hrestart) hok hstart
  rw [List.nil_append] at hend
  rcases hend with h | ⟨id, k, hk, -⟩ | ⟨id, n, hn, hgive⟩
  · exact h
  · rw [hnone id] at hk
    cases hk
  · exact absurd hgive (hkept id n hn)

-- ====== solos

/-- One call on its own: its segments, and moves of the environment in
between. -/
def alone (p : Protocol σ χ κ α ξ ο) :
    σ → Option κ → List (α ⊕ ξ) → σ × Option κ × List ο
  | s, k, [] => (s, k, [])
  | s, k, .inr x :: es => p.alone (p.world s x) k es
  | s, none, .inl _ :: es => p.alone s none es
  | s, some k, .inl a :: es =>
      let (s', k', notes) := p.resume s k a
      let (s'', k'', more) := p.alone s' k' es
      (s'', k'', notes ++ more)

/-- The events of a call on its own. -/
def soloEvent (id : Nat) : α ⊕ ξ → Flight.Event χ α ξ
  | .inl a => .answer id a
  | .inr x => .world x

@[simp] theorem alone_nil (s : σ) (k : Option κ) :
    p.alone s k [] = (s, k, []) := by
  cases k <;> rfl

@[simp] theorem alone_world (s : σ) (k : Option κ) (x : ξ)
    (es : List (α ⊕ ξ)) :
    p.alone s k (.inr x :: es) = p.alone (p.world s x) k es := by
  cases k <;> rfl

@[simp] theorem alone_none (s : σ) (a : α) (es : List (α ⊕ ξ)) :
    p.alone s none (.inl a :: es) = p.alone s none es := rfl

/-- A segment that notes nothing. -/
theorem alone_next {s' : σ} {k : κ} {k' : Option κ} {a : α}
    (h : p.resume s k a = (s', k', [])) (es : List (α ⊕ ξ)) :
    p.alone s (some k) (.inl a :: es) = p.alone s' k' es := by
  show (let (s', k', notes) := p.resume s k a
    let (s'', k'', more) := p.alone s' k' es
    (s'', k'', notes ++ more)) = _
  rw [h]
  rfl

/-- A segment that notes something. -/
theorem alone_notes {s' : σ} {k : κ} {k' : Option κ} {a : α}
    {notes : List ο} (h : p.resume s k a = (s', k', notes))
    (es : List (α ⊕ ξ)) :
    p.alone s (some k) (.inl a :: es)
      = ((p.alone s' k' es).1, (p.alone s' k' es).2.1,
          notes ++ (p.alone s' k' es).2.2) := by
  show (let (s', k', notes) := p.resume s k a
    let (s'', k'', more) := p.alone s' k' es
    (s'', k'', notes ++ more)) = _
  rw [h]

/-- The last call of a state runs as it does on its own. -/
theorem run_alone (s : σ) (calls : List (Option κ)) (k : Option κ)
    (es : List (α ⊕ ξ)) :
    p.machine.run { shared := s, calls := calls ++ [k] }
          (es.map (soloEvent (χ := χ) calls.length))
        = { shared := (p.alone s k es).1,
            calls := calls ++ [(p.alone s k es).2.1] }
      ∧ p.notes { shared := s, calls := calls ++ [k] }
          (es.map (soloEvent calls.length))
        = (p.alone s k es).2.2.map fun note => (calls.length, note) := by
  have hstage : ∀ (t : σ) (l : Option κ),
      Flight.stage { shared := t, calls := calls ++ [l] } calls.length = l := by
    intro t l
    unfold Flight.stage
    dsimp only
    rw [List.getElem?_concat_length]
    rfl
  induction es generalizing s k with
  | nil =>
      rw [alone_nil]
      exact ⟨rfl, rfl⟩
  | cons e es ih =>
      cases e with
      | inr x =>
          rw [alone_world]
          exact ih (p.world s x) k
      | inl a =>
          cases k with
          | none =>
              have hstep := p.step_answer_none a (hstage s none)
              have hrun := ih s none
              rw [alone_none]
              refine ⟨?_, ?_⟩
              · show p.machine.run (p.step _ (.answer calls.length a)).1 _ = _
                rw [hstep]
                exact hrun.1
              · show (p.step _ (.answer calls.length a)).2
                  ++ p.notes (p.step _ (.answer calls.length a)).1 _ = _
                rw [hstep]
                exact hrun.2
          | some k =>
              have hstep := p.step_answer a (hstage s (some k))
              have hset : (calls ++ [some k]).set calls.length
                  (p.resume s k a).2.1
                  = calls ++ [(p.resume s k a).2.1] := by
                rw [List.set_append_right _ _ (Nat.le_refl _), Nat.sub_self]
                rfl
              rw [hset] at hstep
              have hrun := ih (p.resume s k a).1 (p.resume s k a).2.1
              rw [alone_notes (Eq.refl (p.resume s k a))]
              refine ⟨?_, ?_⟩
              · show p.machine.run (p.step _ (.answer calls.length a)).1 _ = _
                rw [hstep]
                exact hrun.1
              · show (p.step _ (.answer calls.length a)).2
                  ++ p.notes (p.step _ (.answer calls.length a)).1 _ = _
                rw [hstep, List.map_append]
                exact congrArg _ hrun.2

-- ====== accounting

/-- How many notes of a call some predicate accepts. -/
def tally (w : ο → Bool) (id : Nat) (notes : List (Nat × ο)) : Nat :=
  notes.countP fun note => note.1 == id && w note.2

theorem tally_append (w : ο → Bool) (id : Nat)
    (as bs : List (Nat × ο)) :
    tally w id (as ++ bs) = tally w id as + tally w id bs :=
  List.countP_append

theorem tally_own (w : ο → Bool) (id : Nat) (notes : List ο) :
    tally w id (notes.map fun note => (id, note)) = notes.countP w := by
  rw [tally, List.countP_map]
  congr 1
  funext note
  simp

theorem tally_other (w : ο → Bool) {id other : Nat} (h : other ≠ id)
    (notes : List ο) :
    tally w id (notes.map fun note => (other, note)) = 0 := by
  rw [tally, List.countP_map, List.countP_eq_zero]
  intro note _
  simp [h]

/-- What a call still owes. -/
def debt (owes : κ → Nat) (f : Flight σ κ) (id : Nat) : Nat :=
  (f.stage id).elim 0 owes

/-- One step in which a segment accounts for what it uses by what it earns
or was owed. -/
theorem used_le_earned_next {ok : Flight σ κ → Flight.Event χ α ξ → Prop}
    {owes : κ → Nat} {used earned : ο → Bool}
    (hstart : ∀ f c, ok f (.start c) → owes (p.enter c) = 0)
    (hresume : ∀ f id a k, ok f (.answer id a) → f.stage id = some k →
      ((p.resume f.shared k a).2.2.countP used
          + (p.resume f.shared k a).2.1.elim 0 owes)
        ≤ (p.resume f.shared k a).2.2.countP earned + owes k)
    {f : Flight σ κ} (hok : ok f e) (id : Nat) :
    tally used id (p.machine.answer f e)
        + debt owes (p.machine.next f e) id
      ≤ tally earned id (p.machine.answer f e) + debt owes f id := by
  have hquiet : ∀ w : ο → Bool, tally w id [] = 0 := fun w => rfl
  cases e with
  | start c =>
      show tally used id [] + debt owes
          { f with calls := f.calls ++ [some (p.enter c)] } id
        ≤ tally earned id [] + debt owes f id
      rw [hquiet, hquiet]
      unfold debt
      rcases stage_start f (p.enter c) id with hstage | hstage
      · rw [hstage]
      · rw [hstage]
        show 0 + owes (p.enter c) ≤ _
        rw [hstart f c hok]
        omega
  | answer other a =>
      show tally used id (p.step f (.answer other a)).2
          + debt owes (p.step f (.answer other a)).1 id
        ≤ tally earned id (p.step f (.answer other a)).2
          + debt owes f id
      cases hstage : f.stage other with
      | none => rw [p.step_answer_none a hstage, hquiet, hquiet]
      | some k =>
          rw [p.step_answer a hstage]
          by_cases hid : other = id
          · subst hid
            rw [tally_own, tally_own]
            unfold debt
            rw [stage_set_self hstage, hstage]
            exact hresume f other a k hok hstage
          · rw [tally_other _ hid, tally_other _ hid]
            unfold debt
            rw [stage_set_ne f hid]
  | world x => exact Nat.le_refl _
  | restart =>
      show tally used id [] + debt owes
          { shared := p.reopen f.shared,
            calls := f.calls.map fun _ => none } id
        ≤ tally earned id [] + debt owes f id
      rw [hquiet, hquiet]
      unfold debt
      rw [stage_forgotten]
      show 0 + 0 ≤ _
      omega

/-- Where every segment accounts for what it uses by what it earns or was
owed, a call has in no run used more than it earned. -/
theorem used_le_earned {ok : Flight σ κ → Flight.Event χ α ξ → Prop}
    {owes : κ → Nat} {used earned : ο → Bool}
    (hstart : ∀ f c, ok f (.start c) → owes (p.enter c) = 0)
    (hresume : ∀ f id a k, ok f (.answer id a) → f.stage id = some k →
      ((p.resume f.shared k a).2.2.countP used
          + (p.resume f.shared k a).2.1.elim 0 owes)
        ≤ (p.resume f.shared k a).2.2.countP earned + owes k)
    {f : Flight σ κ} (hok : p.machine.Allowed ok f events) (id : Nat) :
    tally used id (p.machine.answers f events).flatten
        + debt owes (p.machine.run f events) id
      ≤ tally earned id (p.machine.answers f events).flatten
        + debt owes f id := by
  induction events generalizing f with
  | nil => exact Nat.le_refl _
  | cons e es ih =>
      have hhead := used_le_earned_next hstart hresume hok.1 id
      have hrest := ih hok.2
      rw [Machine.answers_cons, List.flatten_cons, tally_append,
        tally_append, Machine.run_cons]
      omega

/-- The callers of the notes some predicate accepts, one for each. -/
def callers (w : ο → Bool) (notes : List (Nat × ο)) : List Nat :=
  (notes.filter fun note => w note.2).map Prod.fst

theorem count_callers (w : ο → Bool) (id : Nat)
    (notes : List (Nat × ο)) : (callers w notes).count id = tally w id notes := by
  rw [callers, List.count, List.countP_map, List.countP_filter, tally]
  rfl

/-- From fresh calls that account for what they use, the callers that used
something are among those that earned it, each at most as often. -/
theorem callers_subperm {ok : Flight σ κ → Flight.Event χ α ξ → Prop}
    {owes : κ → Nat} {used earned : ο → Bool}
    (hstart : ∀ f c, ok f (.start c) → owes (p.enter c) = 0)
    (hresume : ∀ f id a k, ok f (.answer id a) → f.stage id = some k →
      ((p.resume f.shared k a).2.2.countP used
          + (p.resume f.shared k a).2.1.elim 0 owes)
        ≤ (p.resume f.shared k a).2.2.countP earned + owes k)
    (hok : p.machine.Allowed ok (fresh s) events) :
    (callers used (p.machine.answers (fresh s) events).flatten).Subperm
      (callers earned (p.machine.answers (fresh s) events).flatten) := by
  rw [List.subperm_ext_iff]
  intro id _
  rw [count_callers, count_callers]
  have haccount := used_le_earned hstart hresume hok id
  have hnone : debt owes (fresh s : Flight σ κ) id = 0 := rfl
  omega

end Protocol

end Lib
