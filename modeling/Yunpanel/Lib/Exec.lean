/-
Programs that change a state and may throw, and rules for reasoning about
them.

# The programs

`Exec σ ε α` runs from a state to a result or an error, and to a state
either way: unlike a transaction, what was done before a throw stays done.
`attempt` is `try … catch`.

# The rules

`wp x Q s` says that running `x` from `s` ends in a result and a state
that satisfy `Q`. There is one rule for each way of building a program, as
a simp lemma, so the condition of a whole program unfolds into conditions
on its parts; a part that has its own specification is closed with
`wp_mono`. `Meets` says separately what holds after a result and after an
error, and its rules follow the program from the front. `Keeps I x` is the
special case of an invariant: whatever happens, `I` survives. `Returns`
says that a program does return, and as `P` says.
-/
import Yunpanel.Lib.Result

namespace Lib

universe u v w

/-- A program over a state `σ` that may throw `ε`. -/
def Exec (σ : Type u) (ε : Type v) (α : Type w) :=
  σ → Except ε α × σ

namespace Exec

variable {σ : Type u} {ε : Type v} {α β : Type w}

-- ====== programs

/-- Run from a state. -/
def run (x : Exec σ ε α) (s : σ) : Except ε α × σ := x s

protected def pure (a : α) : Exec σ ε α := fun s => (.ok a, s)

protected def bind (x : Exec σ ε α) (f : α → Exec σ ε β) : Exec σ ε β :=
  fun s =>
    match x s with
    | (.ok a, t) => f a t
    | (.error e, t) => (.error e, t)

instance : Monad (Exec σ ε) where
  pure := Exec.pure
  bind := Exec.bind

/-- `throw e` -/
def fail (e : ε) : Exec σ ε α := fun s => (.error e, s)

/-- Read something off the state. -/
def read (f : σ → α) : Exec σ ε α := fun s => (.ok (f s), s)

/-- Change the state. -/
def modify (f : σ → σ) : Exec σ ε PUnit := fun s => (.ok ⟨⟩, f s)

/-- Take a result or throw an error. -/
def ofExcept (r : Except ε α) : Exec σ ε α := fun s => (r, s)

/-- Look something up in the state, or throw what comes of it. -/
def look (f : σ → Except ε α) : Exec σ ε α := fun s => (f s, s)

/-- `try { x } catch (e) { handler(e) }` -/
def attempt (x : Exec σ ε α) (handler : ε → Exec σ ε α) : Exec σ ε α :=
  fun s =>
    match x s with
    | (.ok a, t) => (.ok a, t)
    | (.error e, t) => handler e t

/-- Run, and take what came of it, a result or an error. -/
def caught (x : Exec σ ε α) : Exec σ ε (Except ε α) :=
  fun s => (.ok (x s).1, (x s).2)

/-- Run on a part of the state. -/
def within {τ : Type*} (get : σ → τ) (set : τ → σ → σ) (x : Exec τ ε α) :
    Exec σ ε α :=
  fun s => ((x (get s)).1, set (x (get s)).2 s)

/-- `if (c) { x }` -/
def onlyIf (c : Bool) (x : Exec σ ε PUnit) : Exec σ ε PUnit :=
  if c then x else pure ⟨⟩

/-- Run for each entry of a list. -/
def forEach {γ : Type*} (f : γ → Exec σ ε PUnit) : List γ → Exec σ ε PUnit
  | [] => pure ⟨⟩
  | c :: cs => do
      f c
      forEach f cs

-- ====== running

section Running

variable {x : Exec σ ε α} {s t : σ}

theorem run_bind_ok {f : α → Exec σ ε β} {a : α}
    (h : x.run s = (.ok a, t)) : (x >>= f).run s = (f a).run t := by
  change Exec.bind x f s = f a t
  unfold Exec.bind
  rw [show x s = (.ok a, t) from h]

theorem run_bind_error {f : α → Exec σ ε β} {e : ε}
    (h : x.run s = (.error e, t)) :
    (x >>= f).run s = (.error e, t) := by
  change Exec.bind x f s = (.error e, t)
  unfold Exec.bind
  rw [show x s = (.error e, t) from h]

theorem run_read_bind (g : σ → α) (f : α → Exec σ ε β) :
    (read g >>= f).run s = (f (g s)).run s := rfl

theorem run_attempt_ok {handler : ε → Exec σ ε α} {a : α}
    (h : x.run s = (.ok a, t)) :
    (attempt x handler).run s = (.ok a, t) := by
  change attempt x handler s = (.ok a, t)
  unfold attempt
  rw [show x s = (.ok a, t) from h]

theorem run_attempt_error {handler : ε → Exec σ ε α} {e : ε}
    (h : x.run s = (.error e, t)) :
    (attempt x handler).run s = (handler e).run t := by
  change attempt x handler s = handler e t
  unfold attempt
  rw [show x s = (.error e, t) from h]

end Running

-- ====== weakest condition

/-- From `s`, the program ends in a result and a state that satisfy
`Q`. -/
def wp (x : Exec σ ε α) (Q : Except ε α → σ → Prop) (s : σ) : Prop :=
  Q (x s).1 (x s).2

@[simp] theorem wp_pure (a : α) (Q : Except ε α → σ → Prop) (s : σ) :
    wp (pure a) Q s ↔ Q (.ok a) s := Iff.rfl

theorem wp_bind (x : Exec σ ε α) (f : α → Exec σ ε β)
    (Q : Except ε β → σ → Prop) (s : σ) :
    wp (x >>= f) Q s ↔
      wp x (fun r t =>
        match r with
        | .ok a => wp (f a) Q t
        | .error e => Q (.error e) t) s := by
  change Q (Exec.bind x f s).1 (Exec.bind x f s).2 ↔ _
  unfold Exec.bind wp
  generalize x s = p
  obtain ⟨r, t⟩ := p
  cases r <;> rfl

@[simp] theorem wp_fail (e : ε) (Q : Except ε α → σ → Prop) (s : σ) :
    wp (fail e) Q s ↔ Q (.error e) s := Iff.rfl

@[simp] theorem wp_read (f : σ → α) (Q : Except ε α → σ → Prop) (s : σ) :
    wp (read f) Q s ↔ Q (.ok (f s)) s := Iff.rfl

@[simp] theorem wp_modify (f : σ → σ) (Q : Except ε PUnit → σ → Prop)
    (s : σ) : wp (modify f) Q s ↔ Q (.ok ⟨⟩) (f s) := Iff.rfl

@[simp] theorem wp_ofExcept (r : Except ε α) (Q : Except ε α → σ → Prop)
    (s : σ) : wp (ofExcept r) Q s ↔ Q r s := Iff.rfl

theorem wp_attempt (x : Exec σ ε α) (handler : ε → Exec σ ε α)
    (Q : Except ε α → σ → Prop) (s : σ) :
    wp (attempt x handler) Q s ↔
      wp x (fun r t =>
        match r with
        | .ok a => Q (.ok a) t
        | .error e => wp (handler e) Q t) s := by
  change Q (attempt x handler s).1 (attempt x handler s).2 ↔ _
  unfold attempt wp
  generalize x s = p
  obtain ⟨r, t⟩ := p
  cases r <;> rfl

/-- What a program is known to end in can be weakened. -/
theorem wp_mono {x : Exec σ ε α} {P Q : Except ε α → σ → Prop} {s : σ}
    (hx : wp x P s) (h : ∀ r t, P r t → Q r t) : wp x Q s :=
  h _ _ hx

/-- The state a program is known to end in is the one it ends in. -/
theorem wp_run {x : Exec σ ε α} {P : Except ε α → σ → Prop} {s : σ}
    (hx : wp x P s) : wp x (fun r t => P r t ∧ t = (x.run s).2) s :=
  ⟨hx, rfl⟩

/-- A conditional program meets what both branches meet. -/
theorem wp_ite {c : Prop} [Decidable c] {x y : Exec σ ε α}
    {Q : Except ε α → σ → Prop} {s : σ} :
    wp (if c then x else y) Q s ↔
      (c → wp x Q s) ∧ (¬c → wp y Q s) := by
  by_cases h : c <;> simp [h]

-- ====== two-sided conditions

/-- Run from `s`, the program returns as `P` says or throws as `E`
says. -/
def Meets (x : Exec σ ε α) (s : σ) (P : α → σ → Prop) (E : ε → σ → Prop) :
    Prop :=
  (∀ a, (x s).1 = .ok a → P a (x s).2)
    ∧ ∀ e, (x s).1 = .error e → E e (x s).2

section Meets

variable {P : α → σ → Prop} {E : ε → σ → Prop} {s : σ}

theorem meets_pure {a : α} (h : P a s) :
    Meets (pure a : Exec σ ε α) s P E :=
  ⟨fun _ ha => Except.ok.inj ha ▸ h, fun _ he => by cases he⟩

theorem meets_fail {e : ε} (h : E e s) :
    Meets (fail e : Exec σ ε α) s P E :=
  ⟨fun _ ha => (by cases ha), fun _ he => Except.error.inj he ▸ h⟩

theorem meets_modify {f : σ → σ} {P : PUnit → σ → Prop}
    (h : P ⟨⟩ (f s)) : Meets (modify f : Exec σ ε PUnit) s P E :=
  ⟨fun _ _ => h, fun _ he => by cases he⟩

theorem meets_ofExcept {r : Except ε α} (hok : ∀ a, r = .ok a → P a s)
    (hfail : ∀ e, r = .error e → E e s) : Meets (ofExcept r) s P E :=
  ⟨hok, hfail⟩

theorem Meets.mono {P' : α → σ → Prop} {E' : ε → σ → Prop}
    {x : Exec σ ε α} (h : Meets x s P E) (hP : ∀ a t, P a t → P' a t)
    (hE : ∀ e t, E e t → E' e t) : Meets x s P' E' :=
  ⟨fun a ha => hP _ _ (h.1 a ha), fun e he => hE _ _ (h.2 e he)⟩

theorem Meets.bind {x : Exec σ ε α} {f : α → Exec σ ε β}
    {R : α → σ → Prop} {P : β → σ → Prop} (hx : Meets x s R E)
    (hf : ∀ a t, R a t → Meets (f a) t P E) : Meets (x >>= f) s P E := by
  change Meets (Exec.bind x f) s P E
  unfold Meets Exec.bind
  obtain ⟨hok, hfail⟩ := hx
  generalize x s = p at hok hfail
  obtain ⟨r, t⟩ := p
  cases r with
  | ok a => exact hf a t (hok a rfl)
  | error e =>
      refine ⟨fun _ h => (by cases h), fun e' h => ?_⟩
      obtain rfl := Except.error.inj h
      exact hfail e rfl

/-- What is met where it is known how the program ends. -/
theorem meets_of_run {x : Exec σ ε α} {a : α} {t : σ}
    (hx : x.run s = (.ok a, t)) (h : P a t) : Meets x s P E := by
  have hx' : x s = (.ok a, t) := hx
  unfold Meets
  rw [hx']
  exact ⟨fun _ ha => Except.ok.inj ha ▸ h, fun _ he => by cases he⟩

/-- The state a program is known to return in is the one it returns in. -/
theorem Meets.run {x : Exec σ ε α} (h : Meets x s P E) :
    Meets x s (fun a t => P a t ∧ x.run s = (.ok a, t)) E :=
  ⟨fun a ha => ⟨h.1 a ha, Prod.ext ha rfl⟩, h.2⟩

/-- What a program is known to meet, read off a run. -/
theorem Meets.of_ok {x : Exec σ ε α} {a : α} {t : σ} (h : Meets x s P E)
    (hx : x.run s = (.ok a, t)) : P a t := by
  have hx' : x s = (.ok a, t) := hx
  have ha := h.1 a (congrArg Prod.fst hx')
  rwa [hx'] at ha

theorem Meets.of_error {x : Exec σ ε α} {e : ε} {t : σ}
    (h : Meets x s P E) (hx : x.run s = (.error e, t)) : E e t := by
  have hx' : x s = (.error e, t) := hx
  have he := h.2 e (congrArg Prod.fst hx')
  rwa [hx'] at he

theorem meets_read_bind {g : σ → α} {f : α → Exec σ ε β}
    {P : β → σ → Prop} (h : Meets (f (g s)) s P E) :
    Meets (read g >>= f) s P E := h

theorem meets_modify_bind {g : σ → σ} {f : PUnit → Exec σ ε β}
    {P : β → σ → Prop} (h : Meets (f ⟨⟩) (g s) P E) :
    Meets (modify g >>= f) s P E := h

theorem meets_ofExcept_bind {r : Except ε α} {f : α → Exec σ ε β}
    {P : β → σ → Prop} (hok : ∀ a, r = .ok a → Meets (f a) s P E)
    (hfail : ∀ e, r = .error e → E e s) :
    Meets (ofExcept r >>= f) s P E := by
  cases r with
  | ok a => exact hok a rfl
  | error e => exact meets_fail (hfail e rfl)

theorem meets_look {g : σ → Except ε α} (hok : ∀ a, g s = .ok a → P a s)
    (hfail : ∀ e, g s = .error e → E e s) : Meets (look g) s P E :=
  ⟨hok, hfail⟩

theorem meets_look_bind {g : σ → Except ε α} {f : α → Exec σ ε β}
    {P : β → σ → Prop} (hok : ∀ a, g s = .ok a → Meets (f a) s P E)
    (hfail : ∀ e, g s = .error e → E e s) : Meets (look g >>= f) s P E := by
  have hlook : Meets (look g) s (fun a t => t = s ∧ g s = .ok a) E :=
    meets_look (fun _ ha => ⟨rfl, ha⟩) hfail
  refine hlook.bind fun a t ⟨ht, ha⟩ => ?_
  rw [ht]
  exact hok a ha

theorem Meets.attempt {x : Exec σ ε α} {handler : ε → Exec σ ε α}
    {R : ε → σ → Prop} (hx : Meets x s P R)
    (hh : ∀ e t, R e t → Meets (handler e) t P E) :
    Meets (attempt x handler) s P E := by
  unfold Meets Exec.attempt
  obtain ⟨hok, hfail⟩ := hx
  generalize x s = p at hok hfail
  obtain ⟨r, t⟩ := p
  cases r with
  | ok a =>
      refine ⟨fun a' h => ?_, fun _ h => (by cases h)⟩
      obtain rfl := Except.ok.inj h
      exact hok a rfl
  | error e => exact hh e t (hfail e rfl)

/-- A program that is caught meets what it meets either way. -/
theorem meets_caught {x : Exec σ ε α} {P : Except ε α → σ → Prop}
    (hx : Meets x s (fun a t => P (.ok a) t) fun e t => P (.error e) t) :
    Meets (caught x) s P E := by
  refine ⟨fun r hr => ?_, fun _ he => by cases he⟩
  obtain rfl := Except.ok.inj hr
  change P (x s).1 (x s).2
  cases h : (x s).1 with
  | ok a => exact hx.1 a h
  | error e => exact hx.2 e h

theorem meets_onlyIf {c : Bool} {x : Exec σ ε PUnit}
    {P : PUnit → σ → Prop} (hx : c = true → Meets x s P E)
    (hskip : c = false → P ⟨⟩ s) : Meets (onlyIf c x) s P E := by
  cases c with
  | true => exact hx rfl
  | false => exact meets_pure (hskip rfl)

theorem meets_ite {c : Prop} [Decidable c] {x y : Exec σ ε α}
    (hx : c → Meets x s P E) (hy : ¬c → Meets y s P E) :
    Meets (if c then x else y) s P E := by
  by_cases h : c
  · rw [if_pos h]
    exact hx h
  · rw [if_neg h]
    exact hy h

/-- A loop that carries a result along: what holds of the entries done so
far holds at the end. -/
theorem meets_foldlM {γ : Type*} {f : α → γ → Exec σ ε α}
    {P : List γ → α → σ → Prop} {cs : List γ} {a : α} (h : P [] a s)
    (hstep : ∀ done c b t, P done b t →
      Meets (f b c) t (P (done ++ [c])) E) :
    Meets (cs.foldlM f a) s (P cs) E := by
  have hrest : ∀ rest done b t, done ++ rest = cs → P done b t →
      Meets (rest.foldlM f b) t (P cs) E := by
    intro rest
    induction rest with
    | nil =>
        intro done b t hcs hdone
        rw [List.append_nil] at hcs
        exact meets_pure (hcs ▸ hdone)
    | cons c rest ih =>
        intro done b t hcs hdone
        rw [List.foldlM_cons]
        refine (hstep done c b t hdone).bind fun b' u hu => ?_
        exact ih (done ++ [c]) b' u (by rw [← hcs]; simp) hu
  exact hrest cs [] a s rfl h

/-- A loop meets what it has met of the entries done so far. -/
theorem meets_forEach {γ : Type*} {f : γ → Exec σ ε PUnit}
    {P : List γ → σ → Prop} {cs : List γ} (h : P [] s)
    (hstep : ∀ done c rest t, done ++ c :: rest = cs → P done t →
      Meets (f c) t (fun _ u => P (done ++ [c]) u) E) :
    Meets (forEach f cs) s (fun _ t => P cs t) E := by
  have hrest : ∀ rest done t, done ++ rest = cs → P done t →
      Meets (forEach f rest) t (fun _ u => P cs u) E := by
    intro rest
    induction rest with
    | nil =>
        intro done t hcs hdone
        rw [List.append_nil] at hcs
        exact meets_pure (hcs ▸ hdone)
    | cons c rest ih =>
        intro done t hcs hdone
        refine (hstep done c rest t hcs hdone).bind fun _ u hu => ?_
        exact ih (done ++ [c]) u (by rw [← hcs]; simp) hu
  exact hrest cs [] s rfl h

end Meets

-- ====== invariants

/-- Whatever the program ends in, the invariant survives it. -/
def Keeps (I : σ → Prop) (x : Exec σ ε α) : Prop :=
  ∀ s, I s → wp x (fun _ t => I t) s

variable {I : σ → Prop}

theorem keeps_pure (a : α) : Keeps I (pure a : Exec σ ε α) :=
  fun _ h => h

theorem keeps_fail (e : ε) : Keeps I (fail e : Exec σ ε α) :=
  fun _ h => h

theorem keeps_read (f : σ → α) : Keeps I (read f : Exec σ ε α) :=
  fun _ h => h

theorem keeps_ofExcept (r : Except ε α) :
    Keeps I (ofExcept r : Exec σ ε α) :=
  fun _ h => h

theorem keeps_modify {f : σ → σ} (h : ∀ s, I s → I (f s)) :
    Keeps I (modify f : Exec σ ε PUnit) :=
  fun s hs => h s hs

theorem keeps_bind {x : Exec σ ε α} {f : α → Exec σ ε β}
    (hx : Keeps I x) (hf : ∀ a, Keeps I (f a)) : Keeps I (x >>= f) := by
  intro s hs
  rw [wp_bind]
  refine wp_mono (hx s hs) ?_
  intro r t ht
  cases r with
  | ok a => exact hf a t ht
  | error e => exact ht

theorem keeps_attempt {x : Exec σ ε α} {handler : ε → Exec σ ε α}
    (hx : Keeps I x) (hh : ∀ e, Keeps I (handler e)) :
    Keeps I (attempt x handler) := by
  intro s hs
  rw [wp_attempt]
  refine wp_mono (hx s hs) ?_
  intro r t ht
  cases r with
  | ok a => exact ht
  | error e => exact hh e t ht

theorem keeps_caught {x : Exec σ ε α} (hx : Keeps I x) :
    Keeps I (caught x) :=
  hx

theorem keeps_within {τ : Type*} {get : σ → τ} {set : τ → σ → σ}
    {x : Exec τ ε α} (h : ∀ s t, I s → I (set t s)) :
    Keeps I (within get set x) :=
  fun s hs => h s _ hs

theorem keeps_ite {c : Prop} [Decidable c] {x y : Exec σ ε α}
    (hx : Keeps I x) (hy : Keeps I y) : Keeps I (if c then x else y) := by
  by_cases h : c
  · simpa [h] using hx
  · simpa [h] using hy

/-- An invariant holds whichever way the program ends. -/
theorem Keeps.meets {x : Exec σ ε α} (hx : Keeps I x) {s : σ} (hs : I s) :
    Meets x s (fun _ t => I t) (fun _ t => I t) :=
  ⟨fun _ _ => hx s hs, fun _ _ => hx s hs⟩

-- ====== atomic

/-- From `s`, the program changes nothing if it throws. -/
def Atomic (x : Exec σ ε α) (s : σ) : Prop :=
  ∀ e t, x.run s = (.error e, t) → t = s

section Atomic

variable {s : σ}

theorem atomic_of_run_ok {x : Exec σ ε α} {a : α} {t : σ}
    (h : x.run s = (.ok a, t)) : Atomic x s := by
  intro e u hrun
  rw [h] at hrun
  cases hrun

/-- A program that is known to throw is atomic if it has changed
nothing. -/
theorem atomic_iff_of_run_error {x : Exec σ ε α} {e : ε} {t : σ}
    (h : x.run s = (.error e, t)) : Atomic x s ↔ t = s := by
  refine ⟨fun hatomic => hatomic e t h, fun ht e' u hrun => ?_⟩
  rw [h] at hrun
  rw [← (Prod.mk.inj hrun).2, ht]

theorem atomic_look (f : σ → Except ε α) : Atomic (look f) s :=
  fun _ _ h => (Prod.mk.inj h).2.symm

/-- A look in front changes nothing. -/
theorem atomic_look_bind_iff {f : σ → Except ε α} {g : α → Exec σ ε β} :
    Atomic (look f >>= g) s ↔ ∀ a, f s = .ok a → Atomic (g a) s := by
  cases hf : f s with
  | ok a =>
      have hrun : (look f >>= g).run s = (g a).run s :=
        run_bind_ok (show (look f).run s = (.ok a, s) from
          Prod.ext hf rfl)
      unfold Atomic
      rw [hrun]
      constructor
      · intro h a' ha'
        rw [← Except.ok.inj ha']
        exact h
      · intro h
        exact h a rfl
  | error e =>
      have hrun : (look f >>= g).run s = (.error e, s) :=
        run_bind_error (show (look f).run s = (.error e, s) from
          Prod.ext hf rfl)
      rw [atomic_iff_of_run_error hrun]
      exact iff_of_true rfl fun a ha => by cases ha

/-- Handing an error on under another name changes nothing. -/
theorem atomic_attempt_fail_iff {x : Exec σ ε α} {f : ε → ε} :
    Atomic (attempt x fun e => fail (f e)) s ↔ Atomic x s := by
  cases hrun : x.run s with
  | mk r t =>
      cases r with
      | ok a =>
          exact iff_of_true (atomic_of_run_ok (run_attempt_ok hrun))
            (atomic_of_run_ok hrun)
      | error e =>
          rw [atomic_iff_of_run_error hrun,
            atomic_iff_of_run_error (run_attempt_error hrun)]

/-- What comes after a program may throw only where that has changed
nothing. -/
theorem atomic_bind_iff {x : Exec σ ε α} {f : α → Exec σ ε β} :
    Atomic (x >>= f) s ↔ Atomic x s
      ∧ ∀ a t, x.run s = (.ok a, t) →
        ∀ e u, (f a).run t = (.error e, u) → u = s := by
  cases hrun : x.run s with
  | mk r t =>
      cases r with
      | ok a =>
          refine ⟨fun h => ⟨atomic_of_run_ok hrun, ?_⟩, fun h e u hf => ?_⟩
          · intro a' t' heq e u hf
            obtain ⟨ha, ht⟩ := Prod.mk.inj heq
            obtain rfl := Except.ok.inj ha
            obtain rfl := ht
            exact h e u ((run_bind_ok hrun).trans hf)
          · rw [run_bind_ok hrun] at hf
            exact h.2 a t rfl e u hf
      | error e =>
          rw [atomic_iff_of_run_error (run_bind_error hrun),
            atomic_iff_of_run_error hrun]
          refine (and_iff_left fun a t' heq => ?_).symm
          cases heq

/-- Where only a look comes after a program, it may fail only where that
has changed nothing. -/
theorem atomic_bind_look_iff {x : Exec σ ε α} {g : α → σ → Except ε β}
    {γ : Type w} {f : α → β → γ} :
    Atomic (x >>= fun a => look (g a) >>= fun b => pure (f a b)) s
      ↔ Atomic x s ∧ ∀ a t e, x.run s = (.ok a, t) → g a t = .error e →
        t = s := by
  rw [atomic_bind_iff]
  refine and_congr_right fun _ => ⟨fun h a t e hx hg => ?_,
    fun h a t hx e u hrun => ?_⟩
  · exact h a t hx e t (run_bind_error (show (look (g a)).run t
      = (.error e, t) from Prod.ext hg rfl))
  · cases hg : g a t with
    | ok b =>
        rw [run_bind_ok (show (look (g a)).run t = (.ok b, t) from
          Prod.ext hg rfl)] at hrun
        cases hrun
    | error e' =>
        rw [run_bind_error (show (look (g a)).run t = (.error e', t) from
          Prod.ext hg rfl)] at hrun
        rw [← (Prod.mk.inj hrun).2]
        exact h a t e' hx hg

theorem atomic_map_iff {x : Exec σ ε α} {f : α → β} :
    Atomic (x >>= fun a => pure (f a)) s ↔ Atomic x s := by
  rw [atomic_bind_iff]
  refine and_iff_left fun a t _ e u hrun => ?_
  cases hrun

end Atomic

-- ====== returning

/-- Run from `s`, the program returns, and as `P` says. -/
def Returns (x : Exec σ ε α) (s : σ) (P : α → σ → Prop) : Prop :=
  ∃ a, (x s).1 = .ok a ∧ P a (x s).2

section Returns

variable {s : σ} {P : α → σ → Prop}

theorem returns_pure {a : α} (h : P a s) :
    Returns (pure a : Exec σ ε α) s P :=
  ⟨a, rfl, h⟩

theorem Returns.mono {P' : α → σ → Prop} {x : Exec σ ε α}
    (h : Returns x s P) (hP : ∀ a t, P a t → P' a t) : Returns x s P' :=
  ⟨h.choose, h.choose_spec.1, hP _ _ h.choose_spec.2⟩

theorem Returns.bind {x : Exec σ ε α} {f : α → Exec σ ε β}
    {P : β → σ → Prop} {R : α → σ → Prop} (hx : Returns x s R)
    (hf : ∀ a t, R a t → Returns (f a) t P) : Returns (x >>= f) s P := by
  obtain ⟨a, ha, hR⟩ := hx
  change Returns (Exec.bind x f) s P
  unfold Returns Exec.bind
  generalize x s = p at ha hR
  obtain ⟨r, t⟩ := p
  obtain rfl : r = .ok a := ha
  exact hf a t hR

/-- A program that returns went through its first part. -/
theorem Returns.of_bind {x : Exec σ ε α} {f : α → Exec σ ε β}
    {P : β → σ → Prop} (h : Returns (x >>= f) s P) :
    Returns x s fun a t => Returns (f a) t P := by
  obtain ⟨b, hb, hP⟩ := h
  change (Exec.bind x f s).1 = .ok b at hb
  change P b (Exec.bind x f s).2 at hP
  unfold Exec.bind at hb hP
  unfold Returns
  generalize x s = p at hb hP
  obtain ⟨r, t⟩ := p
  cases r with
  | ok a => exact ⟨a, rfl, b, hb, hP⟩
  | error e => cases hb

theorem returns_read_bind {g : σ → α} {f : α → Exec σ ε β}
    {P : β → σ → Prop} (h : Returns (f (g s)) s P) :
    Returns (read g >>= f) s P := h

theorem returns_modify_bind {g : σ → σ} {f : PUnit → Exec σ ε β}
    {P : β → σ → Prop} (h : Returns (f ⟨⟩) (g s) P) :
    Returns (modify g >>= f) s P := h

theorem returns_ofExcept {r : Except ε α} {a : α} (hr : r = .ok a)
    (h : P a s) : Returns (ofExcept r) s P :=
  ⟨a, hr, h⟩

theorem Returns.attempt {x : Exec σ ε α} {handler : ε → Exec σ ε α}
    (h : Returns x s P) : Returns (attempt x handler) s P := by
  obtain ⟨a, ha, hP⟩ := h
  unfold Returns Exec.attempt
  generalize x s = p at ha hP
  obtain ⟨r, t⟩ := p
  obtain rfl : r = .ok a := ha
  exact ⟨a, rfl, hP⟩

/-- What is caught of a program that returns is its result. -/
theorem Returns.caught {x : Exec σ ε α} (h : Returns x s P) :
    Returns (caught x) s fun r t => ∃ a, r = .ok a ∧ P a t := by
  obtain ⟨a, ha, hP⟩ := h
  exact ⟨.ok a, congrArg Except.ok ha, a, rfl, hP⟩

theorem returns_within {τ : Type*} {get : σ → τ} {set : τ → σ → σ}
    {x : Exec τ ε α}
    (h : Returns x (get s) fun a t => P a (set t s)) :
    Returns (within get set x) s P := h

/-- What a program that returns also meets. -/
theorem Returns.and {x : Exec σ ε α} {P' : α → σ → Prop}
    {E : ε → σ → Prop} (h : Returns x s P) (hmeets : Meets x s P' E) :
    Returns x s fun a t => P a t ∧ P' a t :=
  ⟨h.choose, h.choose_spec.1, h.choose_spec.2,
    hmeets.1 _ h.choose_spec.1⟩

end Returns

end Exec

end Lib
