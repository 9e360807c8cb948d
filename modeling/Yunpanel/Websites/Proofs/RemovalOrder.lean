/-
The order in which a website's domains are removed.

`orderDomains` puts the domains with a parent before those without one, and
each of the two groups in the order of their ids. That is children before
parents where a domain is at most one level below a root; below a child the
ids decide.
-/
import Yunpanel.Lib.Before
import Yunpanel.Websites.RemovalPlan

namespace Yunpanel.Websites.RemovalPlan

open Lib

-- ====== sorting

theorem sortDomains_perm (domains : List PlannedDomain) :
    (sortDomains domains).Perm domains :=
  List.perm_insertionSort _ domains

/-- The sort leaves the ids in the order of the collation. -/
theorem pairwise_sortDomains (domains : List PlannedDomain) :
    (sortDomains domains).Pairwise fun a b =>
      Text.localeCompare a.id b.id ≠ .gt := by
  haveI : Std.Total fun a b : PlannedDomain =>
      Text.localeCompare a.id b.id ≠ .gt :=
    ⟨fun a b => by
      rw [Text.localeCompare_ne_gt_iff, Text.localeCompare_ne_gt_iff]
      exact le_total _ _⟩
  haveI : IsTrans PlannedDomain fun a b =>
      Text.localeCompare a.id b.id ≠ .gt :=
    ⟨fun a b c hab hbc => by
      rw [Text.localeCompare_ne_gt_iff] at hab hbc ⊢
      exact hab.trans hbc⟩
  exact List.pairwise_insertionSort _ domains

/-- Every domain is planned, and as often as it was given. -/
theorem orderDomains_perm (domains : List PlannedDomain) :
    (orderDomains domains).Perm domains := by
  have hsplit := List.filter_append_perm
    (fun d : PlannedDomain => d.parentDomainId.isSome) domains
  have hnone : (fun d : PlannedDomain => d.parentDomainId.isNone)
      = fun d => !d.parentDomainId.isSome := by
    funext d
    cases d.parentDomainId <;> rfl
  unfold orderDomains
  rw [hnone]
  exact ((sortDomains_perm _).append (sortDomains_perm _)).trans hsplit

-- ====== hierarchy

/-- `d` is a child of `p` among the domains. -/
def ChildOf (domains : List PlannedDomain) (d p : PlannedDomain) : Prop :=
  d ∈ domains ∧ p ∈ domains ∧ d.parentDomainId = some p.id

/-- `d` is below `a`, at any depth. -/
def DescendsFrom (domains : List PlannedDomain) :
    PlannedDomain → PlannedDomain → Prop :=
  Relation.TransGen (ChildOf domains)

/-- Below a domain that has a parent itself, the id of a child comes before
the id of its parent. -/
def NestedInOrder (domains : List PlannedDomain) : Prop :=
  ∀ d ∈ domains, ∀ p ∈ domains, d.parentDomainId = some p.id →
    p.parentDomainId.isSome = true → Text.localeCompare d.id p.id = .lt

section Hierarchy

variable {domains : List PlannedDomain} {d p : PlannedDomain}

theorem mem_sorted_children (hd : d ∈ domains)
    (hparent : d.parentDomainId.isSome = true) :
    d ∈ sortDomains (domains.filter fun d => d.parentDomainId.isSome) :=
  (sortDomains_perm _).mem_iff.mpr (List.mem_filter.mpr ⟨hd, hparent⟩)

/-- A child of a root comes before it. -/
theorem before_of_root (hchild : ChildOf domains d p)
    (hroot : p.parentDomainId.isSome = false) :
    Before (orderDomains domains) d p := by
  obtain ⟨hd, -, hlink⟩ := hchild
  refine before_append_of_notMem
    (mem_sorted_children hd (by rw [hlink]; rfl)) fun hp => ?_
  have hsome := (List.mem_filter.mp ((sortDomains_perm _).mem_iff.mp hp)).2
  rw [hroot] at hsome
  cases hsome

/-- A child of a child comes before it exactly where its id does. -/
theorem before_iff_of_nested (hids : (domains.map PlannedDomain.id).Nodup)
    (hchild : ChildOf domains d p) (hnested : p.parentDomainId.isSome = true) :
    Before (orderDomains domains) d p
      ↔ Text.localeCompare d.id p.id = .lt := by
  obtain ⟨hd, hp, hlink⟩ := hchild
  have hd' := mem_sorted_children hd
    (show d.parentDomainId.isSome = true by rw [hlink]; rfl)
  have hp' := mem_sorted_children hp hnested
  have hpairwise := pairwise_sortDomains
    (domains.filter fun d => d.parentDomainId.isSome)
  unfold orderDomains
  rw [before_append_iff hd' hp']
  constructor
  · intro hbefore
    have hle := rel_of_before hpairwise hp' hbefore
    refine Text.localeCompare_eq_lt_of_ne hle fun hid => ?_
    have hsame : d = p := List.inj_on_of_nodup_map hids hd hp hid
    rw [hsame] at hbefore
    exact not_before_self hbefore
  · intro hlt
    have hne : d ≠ p := by
      intro he
      rw [he, Text.localeCompare_self] at hlt
      cases hlt
    refine before_of_not_rel hpairwise hd' hne fun hle => ?_
    rw [Text.localeCompare_ne_gt_iff] at hle
    rw [Text.localeCompare_eq_lt_iff] at hlt
    exact absurd hlt (not_lt_of_ge hle)

/-- The order is right at every link of the hierarchy exactly where the
ids of the nested domains happen to be in it. -/
theorem before_children_iff (hids : (domains.map PlannedDomain.id).Nodup) :
    (∀ d p, ChildOf domains d p → Before (orderDomains domains) d p)
      ↔ NestedInOrder domains := by
  constructor
  · intro h d hd p hp hlink hnested
    exact (before_iff_of_nested hids ⟨hd, hp, hlink⟩ hnested).mp
      (h d p ⟨hd, hp, hlink⟩)
  · intro h d p hchild
    by_cases hnested : p.parentDomainId.isSome = true
    · apply (before_iff_of_nested hids hchild hnested).mpr
      exact h d hchild.1 p hchild.2.1 hchild.2.2 hnested
    · exact before_of_root hchild (by simpa using hnested)

end Hierarchy

/-- Every domain is planned once and only after all the domains below it,
exactly where each domain below a domain with a parent has the lesser id. -/
theorem orderDomains_bottom_up_iff (domains : List PlannedDomain)
    (hids : (domains.map PlannedDomain.id).Nodup) :
    ((orderDomains domains).Perm domains ∧ (orderDomains domains).Nodup
        ∧ ∀ d a, DescendsFrom domains d a →
          Before (orderDomains domains) d a)
      ↔ NestedInOrder domains := by
  rw [← before_children_iff hids]
  constructor
  · rintro ⟨-, -, h⟩ d p hchild
    exact h d p (.single hchild)
  · intro h
    refine ⟨orderDomains_perm domains, ?_, fun d a => before_of_transGen h⟩
    exact (orderDomains_perm domains).nodup_iff.mpr (hids.of_map _)

/-- A root, its child, and a child of that, with ids that go down. -/
def descending : List PlannedDomain :=
  [⟨"c", "example.org", none⟩, ⟨"b", "a.example.org", some "c"⟩,
    ⟨"a", "a.a.example.org", some "b"⟩]

theorem orderDomains_bottom_up_descending :
    (orderDomains descending).Perm descending
      ∧ (orderDomains descending).Nodup
      ∧ ∀ d a, DescendsFrom descending d a →
        Before (orderDomains descending) d a :=
  (orderDomains_bottom_up_iff descending (by decide)).mpr
    (by unfold NestedInOrder; decide +kernel)

/-- With ids that go up, the child is planned before the domain below
it. -/
theorem orderDomains_child_first :
    let root : PlannedDomain := ⟨"a", "example.org", none⟩
    let child : PlannedDomain := ⟨"b", "a.example.org", some "a"⟩
    let below : PlannedDomain := ⟨"c", "a.a.example.org", some "b"⟩
    orderDomains [root, child, below] = [child, below, root]
      ∧ DescendsFrom [root, child, below] below child
      ∧ ¬Before (orderDomains [root, child, below]) below child := by
  intro root child below
  refine ⟨by decide +kernel, .single ⟨by simp, by simp, rfl⟩, ?_⟩
  decide +kernel

end Yunpanel.Websites.RemovalPlan
