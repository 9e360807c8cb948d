/-
Taking apart computations that may fail.

A check of the source is a sequence of tests that throw; its model is an
`Except` block. These lemmas peel such a block one statement at a time,
from the front, so that no proof unfolds the monad.
-/
import Mathlib.Data.List.Forall2

namespace Lib.Result

universe u v w

variable {ε : Type u} {α : Type v} {β : Type v}

@[simp] theorem ok_bind (a : α) (f : α → Except ε β) :
    ((.ok a : Except ε α) >>= f) = f a := rfl

@[simp] theorem error_bind (e : ε) (f : α → Except ε β) :
    ((.error e : Except ε α) >>= f) = .error e := rfl

@[simp] theorem pure_eq (a : α) : (pure a : Except ε α) = .ok a := rfl

@[simp] theorem throw_eq (e : ε) :
    (throw e : Except ε α) = .error e := rfl

variable {x : Except ε α} {f : α → Except ε β} {b : β} {e : ε} {as : List α}

/-- A block returns exactly when its first statement does and the rest
then does. -/
theorem bind_eq_ok :
    x >>= f = .ok b ↔ ∃ a, x = .ok a ∧ f a = .ok b := by
  cases x with
  | error e => simp
  | ok a => simp

/-- The same where the first statement is a check. -/
theorem check_bind_eq_ok {x : Except ε PUnit} {f : PUnit → Except ε β} :
    x >>= f = .ok b ↔ x = .ok ⟨⟩ ∧ f ⟨⟩ = .ok b := by
  cases x with
  | error e => simp
  | ok a => simp

/-- What a check returns says nothing. -/
theorem exists_unit {P : PUnit → Prop} : (∃ u, P u) ↔ P ⟨⟩ :=
  ⟨fun ⟨_, h⟩ => h, fun h => ⟨⟨⟩, h⟩⟩

/-- A block throws exactly when its first statement does, or the rest
does. -/
theorem bind_eq_error :
    x >>= f = .error e ↔
      x = .error e ∨ ∃ a, x = .ok a ∧ f a = .error e := by
  cases x with
  | error e' => simp
  | ok a => simp

theorem map_eq_ok {f : α → β} :
    x.map f = .ok b ↔ ∃ a, x = .ok a ∧ f a = b := by
  cases x with
  | error e => simp [Except.map]
  | ok a => simp [Except.map]

/-- A check of every entry that returns each as it is returns the list as
it is. -/
theorem mapM_eq_ok_of_mem {f : α → Except ε α} {bs : List α}
    (h : ∀ a ∈ as, ∀ b, f a = .ok b → b = a) :
    as.mapM f = .ok bs ↔ bs = as ∧ ∀ a ∈ as, f a = .ok a := by
  induction as generalizing bs with
  | nil => simp [eq_comm]
  | cons a as ih =>
      rw [List.forall_mem_cons] at h
      rw [List.mapM_cons, bind_eq_ok, List.forall_mem_cons]
      constructor
      · rintro ⟨a', ha, hrest⟩
        obtain ⟨as', has, hcons⟩ := bind_eq_ok.mp hrest
        obtain ⟨hsame, hall⟩ := (ih h.2).mp has
        have hhead : a' = a := h.1 a' ha
        have hbs : a' :: as' = bs := Except.ok.inj hcons
        rw [hhead] at ha
        rw [← hbs, hhead, hsame]
        exact ⟨rfl, ha, hall⟩
      · rintro ⟨rfl, ha, hall⟩
        exact ⟨a, ha, bind_eq_ok.mpr ⟨as, (ih h.2).mpr ⟨rfl, hall⟩, rfl⟩⟩

theorem mapM_eq_ok {f : α → Except ε α} (h : ∀ a b, f a = .ok b → b = a)
    {bs : List α} :
    as.mapM f = .ok bs ↔ bs = as ∧ ∀ a ∈ as, f a = .ok a :=
  mapM_eq_ok_of_mem fun a _ b => h a b

/-- A list goes through where each of its entries does. -/
theorem mapM_eq_ok_iff {bs : List β} :
    as.mapM f = .ok bs ↔ List.Forall₂ (fun a b => f a = .ok b) as bs := by
  induction as generalizing bs with
  | nil => simp [eq_comm]
  | cons a as ih =>
      rw [List.mapM_cons, bind_eq_ok, List.forall₂_cons_left_iff]
      constructor
      · rintro ⟨b, hb, hrest⟩
        obtain ⟨bs', hbs, hcons⟩ := bind_eq_ok.mp hrest
        exact ⟨b, bs', hb, ih.mp hbs, (Except.ok.inj hcons).symm⟩
      · rintro ⟨b, bs', hb, hbs, rfl⟩
        exact ⟨b, hb, bind_eq_ok.mpr ⟨bs', ih.mpr hbs, rfl⟩⟩

theorem mapM_eq_some_iff {γ δ : Type u} {f : γ → Option δ} {as : List γ}
    {bs : List δ} :
    as.mapM f = some bs ↔ List.Forall₂ (fun a b => f a = some b) as bs := by
  induction as generalizing bs with
  | nil => simp [eq_comm]
  | cons a as ih =>
      rw [List.mapM_cons, Option.bind_eq_bind, Option.bind_eq_some_iff,
        List.forall₂_cons_left_iff]
      constructor
      · rintro ⟨b, hb, hrest⟩
        obtain ⟨bs', hbs, hcons⟩ := Option.bind_eq_some_iff.mp hrest
        exact ⟨b, bs', hb, ih.mp hbs, (Option.some.inj hcons).symm⟩
      · rintro ⟨b, bs', hb, hbs, rfl⟩
        exact ⟨b, hb, Option.bind_eq_some_iff.mpr ⟨bs', ih.mpr hbs, rfl⟩⟩

/-- A list whose entries are known to go through. -/
theorem mapM_map_eq_ok {γ : Type*} {g : γ → α} {h : γ → β} {cs : List γ}
    (hf : ∀ c ∈ cs, f (g c) = .ok (h c)) :
    (cs.map g).mapM f = .ok (cs.map h) := by
  rw [mapM_eq_ok_iff, List.forall₂_map_left_iff, List.forall₂_map_right_iff,
    List.forall₂_same]
  exact hf

/-- A list related entry by entry through a function is its image. -/
theorem forall₂_eq_map {γ δ : Type*} {P : γ → Prop} {f : γ → δ}
    {cs : List γ} {ds : List δ} :
    List.Forall₂ (fun c d => P c ∧ d = f c) cs ds
      ↔ (∀ c ∈ cs, P c) ∧ ds = cs.map f := by
  induction cs generalizing ds with
  | nil => simp
  | cons c cs ih =>
      rw [List.forall₂_cons_left_iff, List.forall_mem_cons, List.map_cons]
      constructor
      · rintro ⟨d, ds', ⟨hc, rfl⟩, hrest, rfl⟩
        obtain ⟨hall, rfl⟩ := ih.mp hrest
        exact ⟨⟨hc, hall⟩, rfl⟩
      · rintro ⟨⟨hc, hall⟩, rfl⟩
        exact ⟨f c, cs.map f, ⟨hc, rfl⟩, ih.mpr ⟨hall, rfl⟩, rfl⟩

/-- Each entry of the second list has one of the first. -/
theorem exists_of_forall₂ {γ δ : Type*} {R : γ → δ → Prop}
    {as : List γ} {bs : List δ} (h : List.Forall₂ R as bs) {b : δ} (hb : b ∈ bs) :
    ∃ a ∈ as, R a b := by
  induction h with
  | nil => cases hb
  | cons hhead _ ih =>
      rcases List.mem_cons.mp hb with rfl | hb
      · exact ⟨_, List.mem_cons_self, hhead⟩
      · obtain ⟨a, ha, hab⟩ := ih hb
        exact ⟨a, List.mem_cons_of_mem _ ha, hab⟩

/-- Where the first list is permuted, so can the second be. -/
theorem forall₂_of_perm {γ δ : Type*} {R : γ → δ → Prop} {as as' : List γ}
    {bs : List δ} (h : List.Forall₂ R as bs) (hperm : as.Perm as') :
    ∃ bs', List.Forall₂ R as' bs' ∧ bs.Perm bs' := by
  induction hperm generalizing bs with
  | nil =>
      cases h
      exact ⟨[], .nil, .nil⟩
  | cons a _ ih =>
      cases h with
      | cons hab h =>
          obtain ⟨bs', hbs', hp⟩ := ih h
          exact ⟨_ :: bs', .cons hab hbs', hp.cons _⟩
  | swap a b l =>
      cases h with
      | cons ha h =>
          cases h with
          | cons hb h => exact ⟨_, .cons hb (.cons ha h), .swap _ _ _⟩
  | trans _ _ ih ih' =>
      obtain ⟨bs', hbs', hp⟩ := ih h
      obtain ⟨bs'', hbs'', hp'⟩ := ih' hbs'
      exact ⟨bs'', hbs'', hp.trans hp'⟩

/-- What every turn of a loop keeps holds after the loop. -/
theorem foldlM_invariant {P : β → Prop} {f : β → α → Except ε β}
    (hstep : ∀ b a b', P b → f b a = .ok b' → P b') {b' : β} (hb : P b)
    (h : as.foldlM f b = .ok b') : P b' := by
  induction as generalizing b with
  | nil =>
      rw [List.foldlM_nil] at h
      exact Except.ok.inj h ▸ hb
  | cons a as ih =>
      rw [List.foldlM_cons, bind_eq_ok] at h
      obtain ⟨c, hc, hrest⟩ := h
      exact ih (hstep b a c hb hc) hrest

/-- `if (bad) throw e;` lets through exactly what is not bad. -/
theorem guard_eq_ok {c : Prop} [Decidable c] {a : α} :
    (if c then .error e else x) = .ok a ↔ ¬c ∧ x = .ok a := by
  by_cases h : c <;> simp [h]

/-- A loop of checks goes through where each of them does. -/
theorem forM_eq_ok {f : α → Except ε PUnit} {u : PUnit} :
    as.forM f = .ok u ↔ ∀ a ∈ as, f a = .ok ⟨⟩ := by
  induction as with
  | nil => simp [List.forM]
  | cons a as ih =>
      show (f a >>= fun _ => as.forM f) = .ok u ↔ _
      rw [check_bind_eq_ok, List.forall_mem_cons, ih]

-- ====== checks

/-- `if (!condition) throw e;` -/
def ensure (e : ε) (condition : Bool) : Except ε PUnit :=
  if condition then .ok ⟨⟩ else .error e

/-- A value that has to be there. -/
def demand (e : ε) : Option α → Except ε α
  | some a => .ok a
  | none => .error e

@[simp] theorem ensure_eq_ok {condition : Bool} {u : PUnit} :
    ensure e condition = .ok u ↔ condition = true := by
  unfold ensure
  cases condition <;> simp

@[simp] theorem demand_eq_ok {x : Option α} {a : α} :
    demand e x = .ok a ↔ x = some a := by
  cases x <;> simp [demand]

end Lib.Result
