/-
Tables of records addressed by position.

A registry holds its records in one array, looks a record up with a
predicate, and rewrites it in place through the reference the lookup
returned. The reference is the position: `locate` is a lookup that keeps
it, `List.set` the rewrite. Nothing here names a program.
-/
import Mathlib.Data.List.Nodup

namespace Lib

universe u

variable {α : Type u}

-- ====== lookup

/-- The first entry a predicate accepts, with its position. -/
def locate (p : α → Bool) : List α → Option (Nat × α)
  | [] => none
  | a :: as =>
      if p a then some (0, a)
      else (locate p as).map fun (i, b) => (i + 1, b)

@[simp] theorem locate_nil (p : α → Bool) : locate p [] = none := rfl

/-- What a lookup returns stands at the position it returns. -/
theorem getElem?_of_locate {p : α → Bool} {as : List α} {i : Nat} {a : α}
    (h : locate p as = some (i, a)) : as[i]? = some a := by
  induction as generalizing i with
  | nil => simp at h
  | cons b bs ih =>
      unfold locate at h
      split at h
      · obtain ⟨rfl, rfl⟩ := Prod.mk.inj (Option.some.inj h)
        rfl
      · obtain ⟨⟨j, c⟩, hj, he⟩ := Option.map_eq_some_iff.mp h
        obtain ⟨rfl, rfl⟩ := Prod.mk.inj he
        simpa using ih hj

/-- What a lookup returns was accepted. -/
theorem accepted_of_locate {p : α → Bool} {as : List α} {i : Nat} {a : α}
    (h : locate p as = some (i, a)) : p a = true := by
  induction as generalizing i with
  | nil => simp at h
  | cons b bs ih =>
      unfold locate at h
      split at h
      · obtain ⟨rfl, rfl⟩ := Prod.mk.inj (Option.some.inj h)
        assumption
      · obtain ⟨⟨j, c⟩, hj, he⟩ := Option.map_eq_some_iff.mp h
        obtain ⟨rfl, rfl⟩ := Prod.mk.inj he
        exact ih hj

/-- A lookup fails exactly when nothing is accepted. -/
theorem locate_eq_none {p : α → Bool} {as : List α} :
    locate p as = none ↔ ∀ a ∈ as, p a = false := by
  induction as with
  | nil => simp
  | cons b bs ih =>
      unfold locate
      by_cases hb : p b = true
      · simp [hb]
      · simp [hb, ih]

/-- A lookup passes what is not accepted. -/
theorem locate_append_cons {p : α → Bool} {as : List α} {a : α}
    (hnot : ∀ b ∈ as, p b = false) (ha : p a = true) (bs : List α) :
    locate p (as ++ a :: bs) = some (as.length, a) := by
  induction as with
  | nil =>
      rw [List.nil_append]
      unfold locate
      rw [if_pos ha]
      rfl
  | cons b as ih =>
      rw [List.forall_mem_cons] at hnot
      rw [List.cons_append]
      unfold locate
      rw [if_neg (by simp [hnot.1]), ih hnot.2]
      rfl

/-- Where something is accepted, a lookup returns something. -/
theorem exists_locate {p : α → Bool} {as : List α} {a : α} (ha : a ∈ as)
    (hp : p a = true) : ∃ i b, locate p as = some (i, b) := by
  cases h : locate p as with
  | none => simp [locate_eq_none.mp h a ha] at hp
  | some r => exact ⟨r.1, r.2, rfl⟩

/-- A lookup without its position is the library's `find?`. -/
theorem locate_map_snd (p : α → Bool) (as : List α) :
    (locate p as).map Prod.snd = as.find? p := by
  induction as with
  | nil => rfl
  | cons b bs ih =>
      unfold locate
      by_cases hb : p b = true
      · simp [hb]
      · simp [hb, ← ih, Option.map_map, Function.comp_def]

theorem mem_of_locate {p : α → Bool} {as : List α} {i : Nat} {a : α}
    (h : locate p as = some (i, a)) : a ∈ as :=
  List.mem_of_getElem? (getElem?_of_locate h)

/-- A lookup finds the same position in a table that grew from another
entry by entry, each keeping whether it is looked for. -/
theorem locate_of_pointwise {p : α → Bool} {as bs : List α}
    (h : ∀ (j : Nat) (a : α), as[j]? = some a →
      ∃ b, bs[j]? = some b ∧ p b = p a)
    {i : Nat} {a : α} (ha : locate p as = some (i, a)) :
    ∃ b, locate p bs = some (i, b) := by
  induction as generalizing bs i a with
  | nil => cases ha
  | cons c cs ih =>
      obtain ⟨d, hd, hpd⟩ := h 0 c rfl
      cases bs with
      | nil => cases hd
      | cons e es =>
          obtain rfl : e = d := Option.some.inj hd
          by_cases hc : p c = true
          · rw [locate, if_pos hc] at ha
            obtain ⟨rfl, -⟩ := Prod.mk.inj (Option.some.inj ha)
            refine ⟨e, ?_⟩
            rw [locate, if_pos (hpd.trans hc)]
          · rw [locate, if_neg hc] at ha
            obtain ⟨⟨j, b⟩, hj, he⟩ := Option.map_eq_some_iff.mp ha
            obtain ⟨rfl, -⟩ := Prod.mk.inj he
            obtain ⟨b', hb'⟩ := @ih es (fun k a hk => h (k + 1) a hk) j b hj
            refine ⟨b', ?_⟩
            rw [locate, if_neg (hpd ▸ hc), hb']
            rfl

-- ====== rewrite

/-- Changing an entry in a way that keeps its key keeps every key. -/
theorem map_modify {β : Type*} {f : α → β} {g : α → α}
    (h : ∀ a, f (g a) = f a) (as : List α) (i : Nat) :
    (as.modify i g).map f = as.map f := by
  apply List.ext_getElem?
  intro j
  rw [List.getElem?_map, List.getElem?_map, List.getElem?_modify]
  cases as[j]? with
  | none => rfl
  | some a =>
      show some (f (if i = j then g a else a)) = some (f a)
      split
      · rw [h]
      · rfl

/-- Rewriting an entry to itself changes nothing. -/
theorem set_of_getElem? {as : List α} {i : Nat} {a : α}
    (h : as[i]? = some a) : as.set i a = as := by
  induction as generalizing i with
  | nil => cases h
  | cons b bs ih =>
      cases i with
      | zero =>
          obtain rfl : b = a := by simpa using h
          rfl
      | succ i => rw [List.set_cons_succ, ih (by simpa using h)]

/-- An entry of a rewritten table is the new one or an old one. -/
theorem mem_set_cases {as : List α} {i : Nat} {a b : α}
    (h : b ∈ as.set i a) : b = a ∨ b ∈ as := by
  rcases List.mem_or_eq_of_mem_set h with h | h
  · exact .inr h
  · exact .inl h

/-- Entries other than the one that is rewritten stay. -/
theorem mem_set_of_ne {as : List α} {i : Nat} {a b c : α}
    (hi : as[i]? = some a) (hb : b ∈ as) (hne : b ≠ a) : b ∈ as.set i c := by
  obtain ⟨j, hj⟩ := List.mem_iff_getElem?.mp hb
  have hij : i ≠ j := by
    intro he
    rw [he, hj] at hi
    exact hne (Option.some.inj hi)
  refine List.mem_iff_getElem?.mpr ⟨j, ?_⟩
  rw [List.getElem?_set_ne hij, hj]

/-- What a rewrite puts in its place is there. -/
theorem mem_set_self {as : List α} {i : Nat} {a b : α}
    (hi : as[i]? = some a) : b ∈ as.set i b := by
  obtain ⟨hlt, -⟩ := List.getElem?_eq_some_iff.mp hi
  exact List.mem_iff_getElem?.mpr ⟨i, List.getElem?_set_self hlt⟩

/-- A property of every entry survives a rewrite to an entry that has
it. -/
theorem forall_mem_set {P : α → Prop} {as : List α} {i : Nat} {a : α}
    (h : ∀ b ∈ as, P b) (ha : P a) : ∀ b ∈ as.set i a, P b := by
  intro b hb
  rcases mem_set_cases hb with rfl | hb
  · exact ha
  · exact h b hb

theorem forall_mem_concat {P : α → Prop} {as : List α} {a : α}
    (h : ∀ b ∈ as, P b) (ha : P a) : ∀ b ∈ as ++ [a], P b := by
  intro b hb
  rcases List.mem_append.mp hb with hb | hb
  · exact h b hb
  · rw [List.mem_singleton] at hb
    exact hb ▸ ha

/-- Where keys are distinct, changing every entry of one key is rewriting
the one position it stands at. -/
theorem map_ite_key {κ : Type*} [DecidableEq κ] {key : α → κ}
    {as : List α} (h : (as.map key).Nodup) {i : Nat} {a : α}
    (hi : as[i]? = some a) (g : α → α) :
    as.map (fun b => if key b = key a then g b else b)
      = as.set i (g a) := by
  induction as generalizing i with
  | nil => cases hi
  | cons b bs ih =>
      obtain ⟨hb, hbs⟩ := List.nodup_cons.mp h
      cases i with
      | zero =>
          obtain rfl : b = a := by simpa using hi
          have hrest : bs.map (fun c => if key c = key b then g c else c)
              = bs := by
            refine (List.map_congr_left fun c hc => ?_).trans
              (List.map_id bs)
            have hne : key c ≠ key b :=
              fun he => hb (he ▸ List.mem_map_of_mem hc)
            rw [if_neg hne]
            rfl
          rw [List.map_cons, if_pos rfl, hrest, List.set_cons_zero]
      | succ i =>
          have hi' : bs[i]? = some a := by simpa using hi
          have hne : key b ≠ key a := by
            intro he
            exact hb (he ▸ List.mem_map_of_mem (List.mem_of_getElem? hi'))
          rw [List.map_cons, if_neg hne, ih hbs hi', List.set_cons_succ]

/-- Where keys are distinct, a lookup by the key of an entry finds it. -/
theorem find?_key {κ : Type*} [DecidableEq κ] {key : α → κ} {as : List α}
    (h : (as.map key).Nodup) {a : α} (ha : a ∈ as) {k : κ}
    (hk : key a = k) : (as.find? fun b => key b == k) = some a := by
  induction as with
  | nil => cases ha
  | cons b bs ih =>
      obtain ⟨hb, hbs⟩ := List.nodup_cons.mp h
      rcases List.mem_cons.mp ha with rfl | ha
      · rw [List.find?_cons_of_pos (by simp [hk])]
      · have hne : key b ≠ k := by
          intro he
          apply hb
          rw [he, ← hk]
          exact List.mem_map_of_mem ha
        rw [List.find?_cons_of_neg (by simp [hne])]
        exact ih hbs ha

/-- Where keys are distinct, a position is where its key is located. -/
theorem locate_key {κ : Type*} [DecidableEq κ] {key : α → κ} {as : List α}
    (h : (as.map key).Nodup) {i : Nat} {a : α} (hi : as[i]? = some a) {k : κ}
    (hk : key a = k) : locate (fun b => key b == k) as = some (i, a) := by
  induction as generalizing i with
  | nil => cases hi
  | cons b bs ih =>
      obtain ⟨hb, hbs⟩ := List.nodup_cons.mp h
      unfold locate
      cases i with
      | zero =>
          obtain rfl := Option.some.inj hi
          rw [if_pos (by simpa using hk)]
      | succ j =>
          have hj : bs[j]? = some a := hi
          have hne : key b ≠ k := by
            intro he
            apply hb
            rw [he, ← hk]
            exact List.mem_map_of_mem (List.mem_of_getElem? hj)
          rw [if_neg (by simpa using hne), ih hbs hj]
          rfl

/-- A lookup by key after the entry it found was rewritten to another of
its key. -/
theorem find?_set_located {κ : Type*} [DecidableEq κ] {key : α → κ}
    {as : List α} {i : Nat} {a b : α} {k : κ}
    (h : locate (fun c => key c == k) as = some (i, a)) (hb : key b = k)
    (k' : κ) :
    (as.set i b).find? (fun c => key c == k')
      = if k = k' then some b else as.find? fun c => key c == k' := by
  induction as generalizing i with
  | nil => cases h
  | cons c cs ih =>
      unfold locate at h
      by_cases hc : key c = k
      · rw [if_pos (by simpa using hc)] at h
        obtain ⟨rfl, rfl⟩ := Prod.mk.inj (Option.some.inj h)
        rw [List.set_cons_zero]
        by_cases hk : k = k'
        · rw [if_pos hk, List.find?_cons_of_pos (by simp [hb, hk])]
        · rw [if_neg hk, List.find?_cons_of_neg (by simp [hb, hk]),
            List.find?_cons_of_neg (by simp [hc, hk])]
      · rw [if_neg (by simpa using hc)] at h
        obtain ⟨⟨j, d⟩, hj, he⟩ := Option.map_eq_some_iff.mp h
        obtain ⟨rfl, rfl⟩ := Prod.mk.inj he
        rw [List.set_cons_succ]
        by_cases hk : key c = k'
        · have hne : k ≠ k' := fun heq => hc (hk.trans heq.symm)
          rw [if_neg hne, List.find?_cons_of_pos (by simp [hk]),
            List.find?_cons_of_pos (by simp [hk])]
        · rw [List.find?_cons_of_neg (by simp [hk]),
            List.find?_cons_of_neg (by simp [hk]), ih hj]

/-- Where keys are distinct, leaving out the entry at a position leaves out
the one entry of its key. -/
theorem eraseIdx_eq_filter_key {κ : Type*} [DecidableEq κ] {key : α → κ}
    {as : List α} (h : (as.map key).Nodup) {i : Nat} {a : α}
    (hi : as[i]? = some a) {k : κ} (hk : key a = k) :
    as.eraseIdx i = as.filter fun b => key b != k := by
  induction as generalizing i with
  | nil => cases hi
  | cons b bs ih =>
      obtain ⟨hb, hbs⟩ := List.nodup_cons.mp h
      cases i with
      | zero =>
          obtain rfl : b = a := by simpa using hi
          have hrest : bs.filter (fun c => key c != k) = bs := by
            rw [List.filter_eq_self]
            intro c hc
            have hne : key c ≠ k := by
              intro he
              exact hb (hk ▸ he ▸ List.mem_map_of_mem hc)
            simp [hne]
          rw [List.eraseIdx_cons_zero, List.filter_cons_of_neg (by simp [hk]),
            hrest]
      | succ i =>
          have hi' : bs[i]? = some a := by simpa using hi
          have hne : key b ≠ k := by
            intro he
            apply hb
            rw [he, ← hk]
            exact List.mem_map_of_mem (List.mem_of_getElem? hi')
          rw [List.eraseIdx_cons_succ, List.filter_cons_of_pos (by simp [hne]),
            ih hbs hi']

/-- A symmetric relation between any two entries survives a rewrite to an
entry that is related to whatever the old one was related to. -/
theorem pairwise_set {R : α → α → Prop} (hsymm : ∀ {a b}, R a b → R b a)
    {as : List α} (h : as.Pairwise R) {i : Nat} {a b : α}
    (hi : as[i]? = some a) (hb : ∀ c ∈ as, R a c → R b c) :
    (as.set i b).Pairwise R := by
  rw [List.pairwise_iff_getElem] at h ⊢
  obtain ⟨hlt, hia⟩ := List.getElem?_eq_some_iff.mp hi
  intro j k hj hk hjk
  rw [List.length_set] at hj hk
  rw [List.getElem_set, List.getElem_set]
  by_cases hij : i = j
  · subst hij
    have hik : i ≠ k := by omega
    rw [if_pos rfl, if_neg hik]
    exact hb _ (List.getElem_mem hk) (hia ▸ h i k hlt hk hjk)
  · rw [if_neg hij]
    by_cases hik : i = k
    · subst hik
      rw [if_pos rfl]
      exact hsymm (hb _ (List.getElem_mem hj) (hsymm (hia ▸ h j i hj hlt hjk)))
    · rw [if_neg hik]
      exact h j k hj hk hjk

/-- A symmetric relation between any two entries survives appending an
entry that is related to every old one. -/
theorem pairwise_concat {R : α → α → Prop} (hsymm : ∀ {a b}, R a b → R b a)
    {as : List α} (h : as.Pairwise R) {b : α} (hb : ∀ c ∈ as, R b c) :
    (as ++ [b]).Pairwise R := by
  refine List.pairwise_append.mpr ⟨h, List.pairwise_singleton R b, ?_⟩
  intro a ha c hc
  rw [List.mem_singleton] at hc
  exact hc ▸ hsymm (hb a ha)

/-- Two entries at different positions are related. -/
theorem related_of_pairwise {R : α → α → Prop}
    (hsymm : ∀ {a b}, R a b → R b a) {as : List α} (h : as.Pairwise R)
    {i j : Nat} {a b : α} (hij : i ≠ j) (hi : as[i]? = some a)
    (hj : as[j]? = some b) : R a b := by
  rw [List.pairwise_iff_getElem] at h
  obtain ⟨hin, rfl⟩ := List.getElem?_eq_some_iff.mp hi
  obtain ⟨hjn, rfl⟩ := List.getElem?_eq_some_iff.mp hj
  rcases Nat.lt_or_gt_of_ne hij with hlt | hgt
  · exact h i j hin hjn hlt
  · exact hsymm (h j i hjn hin hgt)

-- ====== upserts

/-- Rewrite the first entry a predicate accepts, or add one at the end. -/
def upsert (p : α → Bool) (f : Option α → α) : List α → List α
  | [] => [f none]
  | a :: as => if p a then f (some a) :: as else a :: upsert p f as

section Upsert

variable {p q : α → Bool} {f : Option α → α}

@[simp] theorem upsert_nil : upsert p f [] = [f none] := rfl

theorem upsert_cons_pos {a : α} (h : p a = true) (as : List α) :
    upsert p f (a :: as) = f (some a) :: as := if_pos h

theorem upsert_cons_neg {a : α} (h : p a = false) (as : List α) :
    upsert p f (a :: as) = a :: upsert p f as :=
  if_neg (by simp [h])

/-- Where nothing is accepted an entry is added. -/
theorem upsert_of_forall {as : List α} (h : ∀ a ∈ as, p a = false) :
    upsert p f as = as ++ [f none] := by
  induction as with
  | nil => rfl
  | cons a as ih =>
      rw [List.forall_mem_cons] at h
      rw [upsert_cons_neg h.1, ih h.2]
      rfl

/-- An entry afterwards is the written one, or was there. -/
theorem mem_upsert {as : List α} {b : α} (h : b ∈ upsert p f as) :
    b ∈ as ∨ b = f (as.find? p) := by
  induction as with
  | nil => exact .inr (List.mem_singleton.mp h)
  | cons a as ih =>
      by_cases ha : p a = true
      · rw [upsert_cons_pos ha] at h
        rw [List.find?_cons_of_pos ha]
        rcases List.mem_cons.mp h with rfl | h
        · exact .inr rfl
        · exact .inl (List.mem_cons_of_mem a h)
      · rw [Bool.not_eq_true] at ha
        rw [upsert_cons_neg ha] at h
        rw [List.find?_cons_of_neg (by simp [ha])]
        rcases List.mem_cons.mp h with rfl | h
        · exact .inl List.mem_cons_self
        · exact (ih h).imp_left (List.mem_cons_of_mem a)

/-- What was written is what a lookup then finds. -/
theorem find?_upsert_self (hf : ∀ x : Option α, x.all p → p (f x) = true) (as : List α) :
    (upsert p f as).find? p = some (f (as.find? p)) := by
  induction as with
  | nil => simp [hf none]
  | cons a as ih =>
      by_cases ha : p a = true
      · rw [upsert_cons_pos ha, List.find?_cons_of_pos (hf (some a) ha),
          List.find?_cons_of_pos ha]
      · have hneg : ¬p a = true := ha
        rw [Bool.not_eq_true] at ha
        rw [upsert_cons_neg ha, List.find?_cons_of_neg hneg,
          List.find?_cons_of_neg hneg, ih]

/-- Entries of another kind are as they were. -/
theorem filter_upsert_other (hf : ∀ x : Option α, x.all p → q (f x) = false)
    (hp : ∀ a, p a = true → q a = false) (as : List α) :
    (upsert p f as).filter q = as.filter q := by
  induction as with
  | nil => simp [hf none]
  | cons a as ih =>
      by_cases ha : p a = true
      · have hwritten : q (f (some a)) = false := hf (some a) ha
        rw [upsert_cons_pos ha, List.filter_cons_of_neg (by simp [hwritten]),
          List.filter_cons_of_neg (by simp [hp a ha])]
      · rw [Bool.not_eq_true] at ha
        rw [upsert_cons_neg ha, List.filter_cons, List.filter_cons, ih]

theorem find?_upsert_other (hf : ∀ x : Option α, x.all p → q (f x) = false)
    (hp : ∀ a, p a = true → q a = false) (as : List α) :
    (upsert p f as).find? q = as.find? q := by
  rw [← List.head?_filter, ← List.head?_filter, filter_upsert_other hf hp]

/-- Entries of the same kind are written among themselves. -/
theorem filter_upsert_same (hf : ∀ x : Option α, x.all p → q (f x) = true)
    (hp : ∀ a, p a = true → q a = true) (as : List α) :
    (upsert p f as).filter q = upsert p f (as.filter q) := by
  induction as with
  | nil => simp [hf none]
  | cons a as ih =>
      by_cases ha : p a = true
      · rw [upsert_cons_pos ha, List.filter_cons_of_pos (hf (some a) ha),
          List.filter_cons_of_pos (hp a ha), upsert_cons_pos ha]
      · rw [Bool.not_eq_true] at ha
        rw [upsert_cons_neg ha, List.filter_cons, List.filter_cons, ih]
        split
        · rw [upsert_cons_neg ha]
        · rfl

/-- A table grows by one entry where nothing is accepted, and not at all
otherwise. -/
theorem length_upsert (as : List α) :
    (upsert p f as).length
      = if as.any p then as.length else as.length + 1 := by
  induction as with
  | nil => rfl
  | cons a as ih =>
      by_cases ha : p a = true
      · simp [upsert_cons_pos ha, ha]
      · rw [Bool.not_eq_true] at ha
        rw [upsert_cons_neg ha, List.length_cons, ih, List.any_cons, ha,
          Bool.false_or]
        split <;> rfl

/-- The keys of a table whose entries are written by key. -/
theorem map_upsert {κ : Type*} [DecidableEq κ] {key : α → κ} {k : κ}
    (hf : ∀ x : Option α, x.all p → key (f x) = k) (hp : ∀ a, p a = true ↔ key a = k)
    (as : List α) :
    (upsert p f as).map key
      = if k ∈ as.map key then as.map key else as.map key ++ [k] := by
  induction as with
  | nil => simp [hf none]
  | cons a as ih =>
      by_cases ha : key a = k
      · have hpa : p a = true := (hp a).mpr ha
        rw [upsert_cons_pos hpa, List.map_cons, List.map_cons,
          hf (some a) hpa, ha, if_pos List.mem_cons_self]
      · have hneg : p a = false := by
          rw [← Bool.not_eq_true, hp]
          exact ha
        rw [upsert_cons_neg hneg, List.map_cons, List.map_cons, ih]
        have hmem : k ∈ key a :: as.map key ↔ k ∈ as.map key := by
          rw [List.mem_cons]
          exact or_iff_right (Ne.symm ha)
        by_cases hk : k ∈ as.map key
        · rw [if_pos hk, if_pos (hmem.mpr hk)]
        · rw [if_neg hk, if_neg (fun h => hk (hmem.mp h))]
          rfl

/-- Keys that are distinct stay distinct. -/
theorem nodup_upsert {κ : Type*} [DecidableEq κ] {key : α → κ} {k : κ}
    (hf : ∀ x : Option α, x.all p → key (f x) = k) (hp : ∀ a, p a = true ↔ key a = k)
    {as : List α} (h : (as.map key).Nodup) :
    ((upsert p f as).map key).Nodup := by
  rw [map_upsert hf hp]
  split
  · exact h
  · rename_i hk
    refine List.nodup_append.mpr ⟨h, List.nodup_singleton k, ?_⟩
    intro a ha b hb
    rw [List.mem_singleton] at hb
    rintro rfl
    exact hk (hb ▸ ha)

/-- Leaving out an entry of another kind. -/
theorem filter_eraseP_other (h : ∀ a, p a = true → q a = false)
    (as : List α) : (as.eraseP p).filter q = as.filter q := by
  induction as with
  | nil => rfl
  | cons a as ih =>
      by_cases ha : p a = true
      · rw [List.eraseP_cons_of_pos ha,
          List.filter_cons_of_neg (by simp [h a ha])]
      · rw [List.eraseP_cons_of_neg ha, List.filter_cons, List.filter_cons,
          ih]

end Upsert

end Lib
