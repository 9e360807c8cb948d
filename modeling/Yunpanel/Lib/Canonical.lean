/-
Lists that come out the same whatever order they came in.

# Sorting

A stable sort forgets the order a list came in exactly where no two of its
entries tie (`sortBy_perm_iff`): entries that tie keep the order they
came in, so swapping two of them shows, and entries that do not tie have
only one order.

# Collecting

A loop that reads the entries one by one, skips what has nothing to say and
refuses a key it has seen is a reading of every entry and a look at the keys
(`foldlM_collect_iff`); neither depends on the order.
-/
import Yunpanel.Lib.Result
import Mathlib.Data.List.Sort
import Mathlib.Data.List.Nodup
import Mathlib.Data.List.Pairwise

namespace Lib.Canonical

-- ====== sorting

section Sorting

variable {α : Type*} {le : α → α → Prop}

variable [DecidableRel le] {as bs : List α}

/-- Whatever order a list came in, it is sorted into one, where what is
sorted is told apart by the order. -/
theorem insertionSort_congr (h : as.Perm bs)
    (htotal : ∀ a b, le a b ∨ le b a)
    (htrans : ∀ a b c, le a b → le b c → le a c)
    (hanti : ∀ a ∈ as, ∀ b ∈ as, le a b → le b a → a = b) :
    as.insertionSort le = bs.insertionSort le := by
  have : Std.Total le := ⟨htotal⟩
  have : IsTrans α le := ⟨htrans⟩
  have hperm : (as.insertionSort le).Perm (bs.insertionSort le) :=
    ((List.perm_insertionSort le as).trans h).trans
      (List.perm_insertionSort le bs).symm
  refine hperm.eq_of_pairwise ?_ (List.pairwise_insertionSort le as)
    (List.pairwise_insertionSort le bs)
  intro a b ha hb hab hba
  refine hanti a ?_ b ?_ hab hba
  · exact (List.perm_insertionSort le as).mem_iff.mp ha
  · exact h.mem_iff.mpr ((List.perm_insertionSort le bs).mem_iff.mp hb)

/-- Two entries of a list without repetitions come in one order only. -/
theorem not_both_sublist (hnodup : as.Nodup) {a b : α}
    (hab : [a, b].Sublist as) (hba : [b, a].Sublist as) : False := by
  obtain ⟨r, r', rfl, har, hbr⟩ := List.cons_sublist_iff.mp hab
  obtain ⟨s, s', hs, hbs, has⟩ := List.cons_sublist_iff.mp hba
  rw [List.singleton_sublist] at hbr has
  have hdisjoint := List.disjoint_of_nodup_append hnodup
  rcases List.append_eq_append_iff.mp hs with ⟨c, rfl, rfl⟩ | ⟨c, rfl, rfl⟩
  · exact hdisjoint har (List.mem_append_right c has)
  · exact hdisjoint (List.mem_append_left c hbs) hbr

end Sorting

section Comparing

open Std

variable {α : Type*} {cmp : α → α → Ordering}

/-- `as.sort(cmp)`, which is stable. -/
def sortBy (cmp : α → α → Ordering) (as : List α) : List α :=
  as.insertionSort fun a b => (cmp a b).isLE = true

theorem sortBy_perm (cmp : α → α → Ordering) (as : List α) :
    (sortBy cmp as).Perm as :=
  List.perm_insertionSort _ as

/-- A comparison both ways round, and whether it ties. -/
theorem isLE_both_iff [TransCmp cmp] {a b : α} :
    (cmp a b).isLE = true ∧ (cmp b a).isLE = true ↔ cmp a b = .eq := by
  rw [@OrientedCmp.eq_swap _ cmp _ b a]
  cases cmp a b <;> simp

theorem isLE_total [TransCmp cmp] (a b : α) :
    (cmp a b).isLE = true ∨ (cmp b a).isLE = true := by
  rw [@OrientedCmp.eq_swap _ cmp _ b a]
  cases cmp a b <;> simp

variable [TransCmp cmp] {as bs : List α}

/-- Where only equal entries tie, the order a list came in is forgotten. -/
theorem sortBy_congr (h : as.Perm bs)
    (heq : ∀ a ∈ as, ∀ b ∈ as, cmp a b = .eq → a = b) :
    sortBy cmp as = sortBy cmp bs :=
  insertionSort_congr h isLE_total (fun _ _ _ => TransCmp.isLE_trans)
    fun a ha b hb hab hba => heq a ha b hb (isLE_both_iff.mp ⟨hab, hba⟩)

/-- A list without repetitions is sorted into the same list from every
order exactly where no two of its entries tie. -/
theorem sortBy_perm_iff (hnodup : as.Nodup) :
    (∀ bs, as.Perm bs → sortBy cmp bs = sortBy cmp as)
      ↔ as.Pairwise fun a b => cmp a b ≠ .eq := by
  have : Std.Total fun a b => (cmp a b).isLE = true := ⟨isLE_total⟩
  have : IsTrans α fun a b => (cmp a b).isLE = true :=
    ⟨fun _ _ _ => TransCmp.isLE_trans⟩
  have : Std.Symm fun a b => cmp a b ≠ .eq :=
    ⟨fun a b hne heq => hne (OrientedCmp.eq_comm.mp heq)⟩
  constructor
  · intro h
    rw [List.pairwise_iff_forall_sublist]
    intro a b hsub htie
    obtain ⟨hle, hge⟩ := isLE_both_iff.mpr htie
    -- the two in front, in the one order and in the other
    obtain ⟨rest, hperm⟩ := hsub.exists_perm_append
    have hone : [a, b].Sublist (sortBy cmp as) := by
      rw [← h _ hperm]
      exact List.pair_sublist_insertionSort hle
        (List.sublist_append_left [a, b] rest)
    have hother : [b, a].Sublist (sortBy cmp as) := by
      rw [← h _ (hperm.trans (List.Perm.swap b a rest))]
      exact List.pair_sublist_insertionSort hge
        (List.sublist_append_left [b, a] rest)
    exact not_both_sublist ((sortBy_perm cmp as).nodup_iff.mpr hnodup)
      hone hother
  · intro h bs hperm
    refine (sortBy_congr hperm fun a ha b hb heq => ?_).symm
    by_contra hne
    exact h.forall ha hb hne heq

end Comparing

-- ====== collecting

section Collecting

open Lib.Result

variable {ε α β κ : Type} {key : β → κ} {read : α → Except ε (Option β)}
  {step : List κ × List β → α → Except ε (List κ × List β)}

/-- What one turn of a collecting loop does: an entry that reads as nothing
is skipped, one that reads as something is put behind what there is, and
its key is new. -/
def Collects (key : β → κ) (read : α → Except ε (Option β))
    (step : List κ × List β → α → Except ε (List κ × List β)) : Prop :=
  ∀ out a r, step (out.map key, out) a = .ok r
    ↔ (read a = .ok none ∧ r = (out.map key, out))
      ∨ ∃ b, read a = .ok (some b) ∧ key b ∉ out.map key
        ∧ r = ((out ++ [b]).map key, out ++ [b])

/-- A collecting loop reads every entry, and finds every key once. -/
theorem foldlM_collect_iff (hstep : Collects key read step) {as : List α}
    {out : List β} {r : List κ × List β} (hnodup : (out.map key).Nodup) :
    as.foldlM step (out.map key, out) = .ok r
      ↔ ∃ bs, as.mapM read = .ok bs
        ∧ r = ((out ++ bs.filterMap id).map key, out ++ bs.filterMap id)
        ∧ ((out ++ bs.filterMap id).map key).Nodup := by
  induction as generalizing out with
  | nil =>
      rw [List.foldlM_nil, List.mapM_nil]
      constructor
      · intro h
        obtain rfl := Except.ok.inj h
        exact ⟨[], rfl, by simp, by simpa using hnodup⟩
      · rintro ⟨bs, hbs, rfl, -⟩
        obtain rfl := Except.ok.inj hbs
        simp [pure, Except.pure]
  | cons a as ih =>
      rw [List.foldlM_cons, bind_eq_ok]
      constructor
      · rintro ⟨s, hs, hrest⟩
        rcases (hstep out a s).mp hs with ⟨hnone, rfl⟩ | ⟨b, hb, hnew, rfl⟩
        · obtain ⟨bs, hbs, rfl, hall⟩ := (ih hnodup).mp hrest
          refine ⟨none :: bs, ?_, by simp, by simpa using hall⟩
          rw [List.mapM_cons, hnone, hbs]
          rfl
        · have hsnoc : ((out ++ [b]).map key).Nodup := by
            rw [List.map_append, List.map_singleton]
            exact List.nodup_append_comm.mp (List.nodup_cons.mpr
              ⟨hnew, hnodup⟩)
          obtain ⟨bs, hbs, rfl, hall⟩ := (ih hsnoc).mp hrest
          refine ⟨some b :: bs, ?_, by simp, by simpa using hall⟩
          rw [List.mapM_cons, hb, hbs]
          rfl
      · rintro ⟨bs, hbs, rfl, hall⟩
        rw [mapM_eq_ok_iff] at hbs
        obtain ⟨x, bs, hx, hrest, rfl⟩ := List.forall₂_cons_left_iff.mp hbs
        cases x with
        | none =>
            refine ⟨(out.map key, out), (hstep out a _).mpr
              (.inl ⟨hx, rfl⟩), (ih hnodup).mpr ⟨bs, ?_, by simp, ?_⟩⟩
            · exact mapM_eq_ok_iff.mpr hrest
            · simpa using hall
        | some b =>
            have hall' : ((out ++ [b] ++ bs.filterMap id).map key).Nodup := by
              simpa using hall
            have hsnoc : ((out ++ [b]).map key).Nodup := by
              rw [List.map_append] at hall'
              exact hall'.of_append_left
            have hnew : key b ∉ out.map key := by
              rw [List.map_append, List.map_singleton] at hsnoc
              exact (List.nodup_cons.mp (List.nodup_append_comm.mp hsnoc)).1
            refine ⟨_, (hstep out a _).mpr (.inr ⟨b, hx, hnew, rfl⟩),
              (ih hsnoc).mpr ⟨bs, ?_, by simp, hall'⟩⟩
            exact mapM_eq_ok_iff.mpr hrest

/-- A loop from nothing. -/
theorem foldlM_collect_nil_iff (hstep : Collects key read step)
    {as : List α} {r : List κ × List β} :
    as.foldlM step ([], []) = .ok r
      ↔ ∃ bs, as.mapM read = .ok bs
        ∧ r = ((bs.filterMap id).map key, bs.filterMap id)
        ∧ ((bs.filterMap id).map key).Nodup :=
  @foldlM_collect_iff _ _ _ _ _ _ _ hstep as [] r List.nodup_nil

/-- A loop that skips nothing. -/
theorem foldlM_collect_all_iff {read : α → Except ε β}
    (hstep : Collects key (fun a => (read a).map some) step)
    {as : List α} {r : List κ × List β} :
    as.foldlM step ([], []) = .ok r
      ↔ ∃ bs, as.mapM read = .ok bs ∧ r = (bs.map key, bs)
        ∧ (bs.map key).Nodup := by
  have hread : ∀ cs, as.mapM (fun a => (read a).map some) = .ok cs
      ↔ ∃ bs, as.mapM read = .ok bs ∧ cs = bs.map some := by
    intro cs
    simp only [mapM_eq_ok_iff, map_eq_ok]
    constructor
    · intro h
      induction h with
      | nil => exact ⟨[], .nil, rfl⟩
      | cons hhead _ ih =>
          obtain ⟨b, hb, rfl⟩ := hhead
          obtain ⟨bs, hbs, rfl⟩ := ih
          exact ⟨b :: bs, .cons hb hbs, rfl⟩
    · rintro ⟨bs, hbs, rfl⟩
      rw [List.forall₂_map_right_iff]
      exact hbs.imp fun a b hab => ⟨b, hab, rfl⟩
  rw [foldlM_collect_nil_iff hstep]
  constructor
  · rintro ⟨cs, hcs, rfl, hnodup⟩
    obtain ⟨bs, hbs, rfl⟩ := (hread cs).mp hcs
    have hall : (bs.map some).filterMap id = bs := by
      rw [List.filterMap_map]
      exact List.filterMap_some
    rw [hall] at hnodup ⊢
    exact ⟨bs, hbs, rfl, hnodup⟩
  · rintro ⟨bs, hbs, rfl, hnodup⟩
    have hall : (bs.map some).filterMap id = bs := by
      rw [List.filterMap_map]
      exact List.filterMap_some
    refine ⟨bs.map some, (hread _).mpr ⟨bs, hbs, rfl⟩, ?_⟩
    rw [hall]
    exact ⟨rfl, hnodup⟩

/-- A list that was put in another order reads as what it read as, in
another order. -/
theorem mapM_perm {read : α → Except ε β} {as as' : List α} {bs : List β}
    (h : as.mapM read = .ok bs) (hperm : as.Perm as') :
    ∃ bs', as'.mapM read = .ok bs' ∧ bs.Perm bs' := by
  obtain ⟨bs', hbs, hp⟩ := forall₂_of_perm (mapM_eq_ok_iff.mp h) hperm
  exact ⟨bs', mapM_eq_ok_iff.mpr hbs, hp⟩

/-- Every order of what a list reads as is what an order of the list reads
as. -/
theorem exists_mapM_of_perm {read : α → Except ε β} {as : List α}
    {bs bs' : List β} (h : as.mapM read = .ok bs) (hperm : bs.Perm bs') : ∃ as', as'.mapM read = .ok bs' ∧ as.Perm as' := by
  obtain ⟨as', hflip, hp⟩ := forall₂_of_perm
    (List.Forall₂.flip (mapM_eq_ok_iff.mp h)) hperm
  exact ⟨as', mapM_eq_ok_iff.mpr hflip.flip, hp⟩

/-- What holds of every two things a list reads as. -/
theorem pairwise_mapM_iff {read : α → Except ε β} {R : β → β → Prop}
    {as : List α} {bs : List β} (h : as.mapM read = .ok bs) :
    bs.Pairwise R ↔ as.Pairwise fun x y => ∀ a b, read x = .ok a →
      read y = .ok b → R a b := by
  have hsome : ∀ x a, (read x).toOption = some a ↔ read x = .ok a := by
    intro x a
    cases read x <;> simp [Except.toOption]
  have hall : bs = as.filterMap fun x => (read x).toOption := by
    induction mapM_eq_ok_iff.mp h with
    | nil => rfl
    | @cons x b as bs hhead hrest ih =>
        rw [List.filterMap_cons, (hsome x b).mpr hhead,
          ← ih (mapM_eq_ok_iff.mpr hrest)]
  rw [hall, List.pairwise_filterMap]
  simp only [hsome]
  exact ⟨fun hp => hp.imp fun hxy a b ha hb => hxy a ha b hb,
    fun hp => hp.imp fun hxy a ha b hb => hxy a b ha hb⟩

end Collecting

end Lib.Canonical
