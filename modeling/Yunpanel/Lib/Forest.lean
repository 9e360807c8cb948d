/-
Records that name a parent among themselves.

`Links` is what a parent pointer that is accepted has to satisfy: it names
a key that is there, and the two records are related. Where a rank drops
along the relation no record is its own ancestor (`Links.acyclic`). The
second half bounds walks that keep a list of what they visited.
-/
import Mathlib.Data.List.Nodup
import Mathlib.Data.List.Perm.Subperm
import Mathlib.Logic.Relation

namespace Lib

universe u v

variable {α : Type u} {κ : Type v}

-- ====== parents

/-- Every parent named is there, and related to the one naming it. -/
def Links (key : α → κ) (parent : α → Option κ) (R : α → α → Prop)
    (as : List α) : Prop :=
  ∀ a ∈ as, ∀ k, parent a = some k → ∃ b ∈ as, key b = k ∧ R a b

/-- `b` is the parent of `a`. -/
def ParentOf (key : α → κ) (parent : α → Option κ) (as : List α)
    (a b : α) : Prop :=
  a ∈ as ∧ b ∈ as ∧ parent a = some (key b)

variable {key : α → κ} {parent : α → Option κ} {R : α → α → Prop}

variable {as : List α} {a : α}

/-- Where keys are distinct, the parent a link leads to is the one the
relation holds of. -/
theorem Links.related (h : Links key parent R as)
    (hkeys : (as.map key).Nodup) {b : α} (hab : ParentOf key parent as a b) :
    R a b := by
  obtain ⟨ha, hb, hp⟩ := hab
  obtain ⟨c, hc, hkey, hR⟩ := h a ha _ hp
  obtain rfl := List.inj_on_of_nodup_map hkeys hc hb hkey
  exact hR

/-- A rank that drops along the relation rules cycles out. -/
theorem Links.acyclic (h : Links key parent R as)
    (hkeys : (as.map key).Nodup) (rank : α → Nat)
    (hrank : ∀ a b, R a b → rank b < rank a) (a : α) :
    ¬ Relation.TransGen (ParentOf key parent as) a a := by
  have hdrop : ∀ x y, Relation.TransGen (ParentOf key parent as) x y →
      rank y < rank x := by
    intro x y hxy
    induction hxy with
    | single hxy => exact hrank _ _ (h.related hkeys hxy)
    | tail _ hyz ih => exact Nat.lt_trans (hrank _ _ (h.related hkeys hyz)) ih
  exact fun ha => Nat.lt_irrefl _ (hdrop a a ha)

theorem links_nil : Links key parent R [] := by
  intro a ha
  cases ha

/-- Links between the images of records are links between the records. -/
theorem links_map {β : Type*} {f : β → α} {bs : List β} :
    Links key parent R (bs.map f) ↔
      Links (fun b => key (f b)) (fun b => parent (f b))
        (fun b c => R (f b) (f c)) bs := by
  constructor
  · intro h b hb k hk
    obtain ⟨a, ha, hkey, hR⟩ := h (f b) (List.mem_map_of_mem hb) k hk
    obtain ⟨c, hc, rfl⟩ := List.mem_map.mp ha
    exact ⟨c, hc, hkey, hR⟩
  · intro h a ha k hk
    obtain ⟨b, hb, rfl⟩ := List.mem_map.mp ha
    obtain ⟨c, hc, hkey, hR⟩ := h b hb k hk
    exact ⟨f c, List.mem_map_of_mem hc, hkey, hR⟩

/-- A new record may link to an old one; the old ones link on as before. -/
theorem Links.concat (h : Links key parent R as)
    (ha : ∀ k, parent a = some k → ∃ b ∈ as, key b = k ∧ R a b) :
    Links key parent R (as ++ [a]) := by
  intro x hx k hk
  rcases List.mem_append.mp hx with hx | hx
  · obtain ⟨b, hb, hkey, hR⟩ := h x hx k hk
    exact ⟨b, List.mem_append_left _ hb, hkey, hR⟩
  · obtain rfl := List.mem_singleton.mp hx
    obtain ⟨b, hb, hkey, hR⟩ := ha k hk
    exact ⟨b, List.mem_append_left _ hb, hkey, hR⟩

/-- A record may be given another parent, where everything else the
relation sees stays. -/
theorem Links.set (h : Links key parent R as) {i : Nat} {a' : α}
    (hi : as[i]? = some a) (hkey : key a' = key a)
    (hR : ∀ x, R x a → R x a')
    (ha : ∀ k, parent a' = some k → ∃ b ∈ as, key b = k ∧ R a' b)
    (hself : R a' a → R a' a') :
    Links key parent R (as.set i a') := by
  obtain ⟨hlt, hia⟩ := List.getElem?_eq_some_iff.mp hi
  have hmem : a' ∈ as.set i a' := List.mem_set hlt a'
  -- the new list holds, for each old entry, one a link can lead to
  have hmove : ∀ x b, b ∈ as → R x b → (R x a → R x a') →
      ∃ c ∈ as.set i a', key c = key b ∧ R x c := by
    intro x b hb hxb hxa
    obtain ⟨j, hj, rfl⟩ := List.getElem_of_mem hb
    by_cases hij : i = j
    · subst hij
      rw [hia] at hxb ⊢
      exact ⟨a', hmem, hkey, hxa hxb⟩
    · refine ⟨as[j], ?_, rfl, hxb⟩
      have hget : (as.set i a')[j]? = some as[j] := by
        rw [List.getElem?_set_ne hij, List.getElem?_eq_getElem hj]
      exact List.mem_of_getElem? hget
  intro x hx k hk
  rcases List.mem_or_eq_of_mem_set hx with hx | rfl
  · obtain ⟨b, hb, rfl, hxb⟩ := h x hx k hk
    exact hmove x b hb hxb (hR x)
  · obtain ⟨b, hb, rfl, hxb⟩ := ha k hk
    exact hmove x b hb hxb hself

/-- A record no other names may go. -/
theorem Links.filter (h : Links key parent R as) {p : α → Bool}
    (hp : ∀ a ∈ as, p a = true → ∀ b ∈ as, parent a = some (key b) →
      p b = true) : Links key parent R (as.filter p) := by
  intro a ha k hk
  obtain ⟨ha, hpa⟩ := List.mem_filter.mp ha
  obtain ⟨b, hb, rfl, hR⟩ := h a ha k hk
  exact ⟨b, List.mem_filter.mpr ⟨hb, hp a ha hpa b hb hk⟩, rfl, hR⟩

-- ====== walks

/-- A walk that visits each key once visits no more keys than there are. -/
theorem length_visited_le {visited keys : List κ} (hnodup : visited.Nodup)
    (hsub : ∀ k ∈ visited, k ∈ keys) : visited.length ≤ keys.length :=
  (List.Nodup.subperm hnodup hsub).length_le

end Lib
