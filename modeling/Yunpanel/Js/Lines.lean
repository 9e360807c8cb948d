/-
Texts that are split and joined, and lists put in order by a text.

Where the templates sort, they go by UTF-16 units or by the collation of a
text each entry carries; a list in such an order does not depend on the
order it came in, as long as the texts are told apart (`collateOn_congr`).
-/
import Yunpanel.Js.Collation
import Yunpanel.Lib.Canonical

namespace Yunpanel.Text

open Lib.Canonical

-- ====== parts

/-- `s.includes(part)` -/
def includes (cs part : List Char) : Bool :=
  cs.tails.any part.isPrefixOf

/-- What is joined is made of the separator and the parts. -/
theorem mem_intercalate {sep : List Char} {ls : List (List Char)} {c : Char}
    (h : c ∈ sep.intercalate ls) : c ∈ sep ∨ ∃ l ∈ ls, c ∈ l := by
  induction ls with
  | nil => cases h
  | cons l ls ih =>
      by_cases hnil : ls = []
      · subst hnil
        rw [List.intercalate_singleton] at h
        exact .inr ⟨l, List.mem_cons_self, h⟩
      · rw [List.intercalate_cons_of_ne_nil hnil, List.mem_append,
          List.mem_append] at h
        rcases h with (h | h) | h
        · exact .inr ⟨l, List.mem_cons_self, h⟩
        · exact .inl h
        · refine (ih h).imp_right ?_
          exact fun ⟨k, hk, hc⟩ => ⟨k, List.mem_cons_of_mem l hk, hc⟩

/-- What is split is made of the separator and the parts. -/
theorem mem_of_splitOn {sep c : Char} {cs : List Char}
    {parts : List (List Char)} (h : cs.splitOn sep = parts) (hc : c ∈ cs) :
    c = sep ∨ ∃ part ∈ parts, c ∈ part := by
  have hwhole : [sep].intercalate (cs.splitOn sep) = cs :=
    List.intercalate_splitOn sep
  rw [← hwhole, h] at hc
  exact (mem_intercalate hc).imp_left List.mem_singleton.mp

/-- The parts of a text have none of what it is split at. -/
theorem of_mem_splitOnP {p : Char → Bool} {cs part : List Char}
    (hpart : part ∈ cs.splitOnP p) : ∀ c ∈ part, p c = false := by
  induction cs generalizing part with
  | nil =>
      rw [List.splitOnP_nil, List.mem_singleton] at hpart
      subst hpart
      exact fun c hc => nomatch hc
  | cons d cs ih =>
      rw [List.splitOnP_cons_eq_if_modifyHead] at hpart
      obtain ⟨first, rest, hsplit⟩ :=
        List.exists_cons_of_ne_nil (List.splitOnP_ne_nil p cs)
      rw [hsplit] at hpart ih
      by_cases hd : p d = true
      · rw [if_pos hd] at hpart
        rcases List.mem_cons.mp hpart with rfl | hpart
        · exact fun c hc => nomatch hc
        · exact ih hpart
      · rw [if_neg hd, List.modifyHead_cons] at hpart
        rcases List.mem_cons.mp hpart with rfl | hpart
        · intro c hc
          rcases List.mem_cons.mp hc with rfl | hc
          · exact Bool.not_eq_true _ ▸ hd
          · exact ih (by simp) c hc
        · exact ih (List.mem_cons_of_mem _ hpart)

-- ====== orders

/-- Put in the order of the units of a text each entry carries:
`left.key < right.key ? -1 : left.key > right.key ? 1 : 0`. -/
def sortOn {α : Type} (key : α → String) (as : List α) : List α :=
  as.insertionSort fun a b => utf16 (key a) ≤ utf16 (key b)

/-- Put in the order of the collation of a text each entry carries:
`left.key.localeCompare(right.key)`. -/
def collateOn {α : Type} (key : α → String) (as : List α) : List α :=
  as.insertionSort fun a b => localeCompare (key a) (key b) ≠ .gt

variable {α : Type} {key : α → String} {as bs : List α}

theorem sortOn_perm (key : α → String) (as : List α) :
    (sortOn key as).Perm as := List.perm_insertionSort _ as

theorem collateOn_perm (key : α → String) (as : List α) :
    (collateOn key as).Perm as := List.perm_insertionSort _ as

theorem collation_total (a b : α) :
    localeCompare (key a) (key b) ≠ .gt
      ∨ localeCompare (key b) (key a) ≠ .gt := by
  rw [localeCompare_ne_gt_iff, localeCompare_ne_gt_iff]
  exact le_total _ _

theorem collation_trans (a b c : α)
    (hab : localeCompare (key a) (key b) ≠ .gt)
    (hbc : localeCompare (key b) (key c) ≠ .gt) :
    localeCompare (key a) (key c) ≠ .gt := by
  rw [localeCompare_ne_gt_iff] at hab hbc ⊢
  exact le_trans hab hbc

theorem pairwise_collateOn (as : List α) :
    (collateOn key as).Pairwise fun a b =>
      localeCompare (key a) (key b) ≠ .gt :=
  haveI : Std.Total fun a b : α => localeCompare (key a) (key b) ≠ .gt :=
    ⟨collation_total⟩
  haveI : IsTrans α fun a b => localeCompare (key a) (key b) ≠ .gt :=
    ⟨collation_trans⟩
  List.pairwise_insertionSort _ as

/-- What is in order stays as it is. -/
theorem collateOn_collateOn (as : List α) :
    collateOn key (collateOn key as) = collateOn key as :=
  (pairwise_collateOn as).insertionSort_eq

/-- Where no two entries carry the same text, the order does not depend on
the order they came in. -/
theorem collateOn_congr (h : as.Perm bs) (hnodup : (as.map key).Nodup) :
    collateOn key as = collateOn key bs := by
  refine insertionSort_congr h collation_total collation_trans
    fun a ha b hb hab hba => ?_
  rw [localeCompare_ne_gt_iff] at hab hba
  exact List.inj_on_of_nodup_map hnodup ha hb
    (collationKey_injective (le_antisymm hab hba))

end Yunpanel.Text
