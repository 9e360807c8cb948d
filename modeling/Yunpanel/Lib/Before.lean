/-
Which of two entries comes first in a list, and lists that keep to a
relation.

`Before l x y` compares the places where the two are found first. A list
put in order by a comparison has the lesser before the greater, and a list
that has every entry before those it is related to has it before everything
a chain of the relation leads to (`before_of_transGen`).
-/
import Mathlib.Data.List.Nodup
import Mathlib.Logic.Relation

namespace Lib

universe u

variable {α : Type u} [DecidableEq α] {l l' : List α} {x y z : α}

/-- `x` is found earlier than `y`. -/
def Before (l : List α) (x y : α) : Prop := l.idxOf x < l.idxOf y

instance : Decidable (Before l x y) :=
  inferInstanceAs (Decidable (l.idxOf x < l.idxOf y))

theorem Before.trans (hxy : Before l x y) (hyz : Before l y z) :
    Before l x z := Nat.lt_trans hxy hyz

theorem not_before_self : ¬Before l x x := Nat.lt_irrefl _

-- ====== appending

theorem before_append_of_notMem (hx : x ∈ l) (hy : y ∉ l) :
    Before (l ++ l') x y := by
  unfold Before
  rw [List.idxOf_append_of_mem hx, List.idxOf_append_of_notMem hy]
  have hlt : l.idxOf x < l.length := List.idxOf_lt_length_iff.mpr hx
  omega

theorem before_append_iff (hx : x ∈ l) (hy : y ∈ l) :
    Before (l ++ l') x y ↔ Before l x y := by
  unfold Before
  rw [List.idxOf_append_of_mem hx, List.idxOf_append_of_mem hy]

-- ====== orders

variable {r : α → α → Prop}

/-- In a list whose entries stand in a relation, so do two of them that
come one before the other. -/
theorem rel_of_before (h : l.Pairwise r) (hy : y ∈ l)
    (hb : Before l x y) : r x y := by
  have hylt : l.idxOf y < l.length := List.idxOf_lt_length_iff.mpr hy
  have hxlt : l.idxOf x < l.length := Nat.lt_trans hb hylt
  have hrel := List.pairwise_iff_getElem.mp h _ _ hxlt hylt hb
  rwa [List.getElem_idxOf, List.getElem_idxOf] at hrel

/-- Of two entries of which one may not come first, the other does. -/
theorem before_of_not_rel (h : l.Pairwise r) (hx : x ∈ l) (hne : x ≠ y)
    (hnot : ¬r y x) : Before l x y := by
  rcases Nat.lt_trichotomy (l.idxOf x) (l.idxOf y) with hlt | heq | hgt
  · exact hlt
  · exact absurd ((List.idxOf_inj hx).mp heq) hne
  · exact absurd (rel_of_before h hx hgt) hnot

/-- What holds of every single step of a relation holds of a chain. -/
theorem before_of_transGen (h : ∀ x y, r x y → Before l x y)
    (hchain : Relation.TransGen r x y) : Before l x y := by
  induction hchain with
  | single hstep => exact h _ _ hstep
  | tail _ hstep ih => exact ih.trans (h _ _ hstep)

end Lib
