/-
Collections with one entry for each key.

A collection is a list whose entries have distinct keys; what it says of a
key is the entry with that key, if there is one (`get`). Entries are put in
(`put`), taken out (`drop`), or changed by a list of changes (`patch`), each
of which speaks of one key. Two collections that say the same of every key
are one up to the order of their entries (`perm_of_get`), so sorted by their
keys they are the same list (`sort_eq_of_get`). Nothing here names a program.
-/
import Mathlib.Data.List.Nodup
import Mathlib.Data.List.Sort

namespace Lib.Keyed

universe u v

variable {α : Type u} {κ : Type v} [DecidableEq κ]

-- ====== operations

/-- What a collection says of a key. -/
def get (key : α → κ) (as : List α) (k : κ) : Option α :=
  as.find? fun a => key a = k

/-- An entry takes the place of the one with its key, or comes last. -/
def put (key : α → κ) (as : List α) (a : α) : List α :=
  if as.any fun b => key b = key a then
    as.map fun b => if key b = key a then a else b
  else as ++ [a]

def drop (key : α → κ) (as : List α) (k : κ) : List α :=
  as.filter fun a => key a ≠ k

/-- What becomes of one key. -/
inductive Change (α : Type u) (κ : Type v) where
  | replace (a : α)
  | delete (k : κ)
  deriving DecidableEq, Repr

namespace Change

def key (f : α → κ) : Change α κ → κ
  | replace a => f a
  | delete k => k

/-- The entry there is afterwards. -/
def result : Change α κ → Option α
  | replace a => some a
  | delete _ => none

end Change

def change (key : α → κ) (as : List α) : Change α κ → List α
  | .replace a => put key as a
  | .delete k => drop key as k

def patch (key : α → κ) (as : List α) (cs : List (Change α κ)) : List α :=
  cs.foldl (change key) as

-- ====== what is said

variable {key : α → κ}

theorem get_nil (k : κ) : get key [] k = none := rfl

theorem get_cons (a : α) (as : List α) (k : κ) :
    get key (a :: as) k = if key a = k then some a else get key as k := by
  unfold get
  by_cases h : key a = k
  · rw [List.find?_cons_of_pos (by simpa using h), if_pos h]
  · rw [List.find?_cons_of_neg (by simpa using h), if_neg h]

variable {as bs : List α} {k : κ} {a : α}

theorem key_of_get (h : get key as k = some a) :
    key a = k := by
  simpa using List.find?_some h

theorem mem_of_get (h : get key as k = some a) :
    a ∈ as :=
  List.mem_of_find?_eq_some h

theorem get_eq_none :
    get key as k = none ↔ ∀ a ∈ as, key a ≠ k := by
  simp [get, List.find?_eq_none]

/-- With distinct keys, an entry is what is said of its key. -/
theorem get_of_mem (hnodup : (as.map key).Nodup) (ha : a ∈ as) :
    get key as (key a) = some a := by
  induction as with
  | nil => cases ha
  | cons b bs ih =>
      rw [List.map_cons, List.nodup_cons] at hnodup
      rw [get_cons]
      rcases List.mem_cons.mp ha with rfl | ha
      · rw [if_pos rfl]
      · have hne : key b ≠ key a :=
          fun h => hnodup.1 (h ▸ List.mem_map_of_mem ha)
        rw [if_neg hne, ih hnodup.2 ha]

theorem get_eq_some_iff (hnodup : (as.map key).Nodup) :
    get key as k = some a ↔ a ∈ as ∧ key a = k := by
  constructor
  · exact fun h => ⟨mem_of_get h, key_of_get h⟩
  · rintro ⟨ha, rfl⟩
    exact get_of_mem hnodup ha

theorem get_append (as bs : List α) (k : κ) :
    get key (as ++ bs) k = (get key as k).or (get key bs k) :=
  List.find?_append

/-- Entries are rewritten under the keys they have. -/
theorem get_map {f : α → α} (hf : ∀ a, key (f a) = key a) (as : List α)
    (k : κ) : get key (as.map f) k = (get key as k).map f := by
  induction as with
  | nil => rfl
  | cons a as ih =>
      rw [List.map_cons, get_cons, get_cons, hf, ih]
      by_cases h : key a = k
      · rw [if_pos h, if_pos h, Option.map_some]
      · rw [if_neg h, if_neg h]

theorem get_put (as : List α) (a : α) (k : κ) :
    get key (put key as a) k = if key a = k then some a else get key as k := by
  unfold put
  by_cases hany : as.any (fun b => key b = key a) = true
  · rw [if_pos hany]
    have hmap : ∀ bs : List α,
        get key (bs.map fun b => if key b = key a then a else b) k
          = (get key bs k).map fun b => if key b = key a then a else b :=
      fun bs => get_map (fun b => by split <;> simp_all) bs k
    rw [hmap]
    by_cases hk : key a = k
    · rw [if_pos hk]
      obtain ⟨b, hb, hkey⟩ := List.any_eq_true.mp hany
      have hsome : get key as k ≠ none := by
        intro hnone
        exact get_eq_none.mp hnone b hb
          ((of_decide_eq_true hkey).trans hk)
      obtain ⟨c, hc⟩ := Option.ne_none_iff_exists'.mp hsome
      rw [hc, Option.map_some, if_pos ((key_of_get hc).trans hk.symm)]
    · rw [if_neg hk]
      cases hget : get key as k with
      | none => rfl
      | some c =>
          rw [Option.map_some,
            if_neg fun h => hk (h.symm.trans (key_of_get hget))]
  · rw [if_neg hany, get_append, get_cons, get_nil]
    by_cases hk : key a = k
    · have hnone : get key as k = none := get_eq_none.mpr fun b hb h =>
        hany (List.any_eq_true.mpr ⟨b, hb, decide_eq_true (h.trans hk.symm)⟩)
      rw [if_pos hk, if_pos hk, hnone, Option.none_or]
    · rw [if_neg hk, if_neg hk, Option.or_none]

theorem get_drop (as : List α) (j k : κ) :
    get key (drop key as j) k = if j = k then none else get key as k := by
  induction as with
  | nil => simp [drop, get]
  | cons a as ih =>
      unfold drop at ih ⊢
      by_cases hj : key a = j
      · rw [List.filter_cons_of_neg (by simpa using hj), ih, get_cons]
        by_cases hk : j = k
        · rw [if_pos hk, if_pos hk]
        · rw [if_neg hk, if_neg hk, if_neg fun h => hk (hj.symm.trans h)]
      · rw [List.filter_cons_of_pos (by simpa using hj), get_cons, get_cons, ih]
        by_cases hk : j = k
        · rw [if_pos hk, if_pos hk, if_neg fun h => hj (h.trans hk.symm)]
        · rw [if_neg hk, if_neg hk]

theorem get_change (as : List α) (c : Change α κ) (k : κ) :
    get key (change key as c) k
      = if c.key key = k then c.result else get key as k := by
  cases c with
  | replace a => exact get_put as a k
  | delete j => exact get_drop as j k

/-- A patch that speaks of each key once leaves what it says. -/
theorem get_patch {cs : List (Change α κ)}
    (hnodup : (cs.map (Change.key key)).Nodup) (as : List α) (k : κ) :
    get key (patch key as cs) k
      = ((get (Change.key key) cs k).map Change.result).getD
          (get key as k) := by
  unfold patch
  induction cs generalizing as with
  | nil => rfl
  | cons c cs ih =>
      rw [List.map_cons, List.nodup_cons] at hnodup
      rw [List.foldl_cons, ih hnodup.2, get_change, get_cons]
      by_cases hk : c.key key = k
      · have hnone : get (Change.key key) cs k = none :=
          get_eq_none.mpr fun d hd h =>
            hnodup.1 (List.mem_map.mpr ⟨d, hd, h.trans hk.symm⟩)
        rw [hnone, if_pos hk, if_pos hk]
        rfl
      · rw [if_neg hk, if_neg hk]

-- ====== selections

omit [DecidableEq κ] in
theorem nodup_filterMap {β : Type*} {key' : β → κ} {f : α → Option β}
    (hf : ∀ a ∈ as, ∀ b, f a = some b → key' b = key a)
    (h : (as.map key).Nodup) : ((as.filterMap f).map key').Nodup := by
  induction as with
  | nil => exact List.nodup_nil
  | cons a as ih =>
      rw [List.map_cons, List.nodup_cons] at h
      rw [List.forall_mem_cons] at hf
      cases ha : f a with
      | none =>
          rw [List.filterMap_cons_none ha]
          exact ih hf.2 h.2
      | some b =>
          rw [List.filterMap_cons_some ha, List.map_cons, List.nodup_cons]
          refine ⟨fun hmem => ?_, ih hf.2 h.2⟩
          obtain ⟨c, hc, hkey⟩ := List.mem_map.mp hmem
          obtain ⟨d, hd, hdc⟩ := List.mem_filterMap.mp hc
          apply h.1
          rw [← hf.1 b ha, ← hkey, hf.2 d hd c hdc]
          exact List.mem_map_of_mem hd

/-- What is selected of each key on its own. -/
theorem get_filterMap {β : Type*} {key' : β → κ} {f : α → Option β}
    (hf : ∀ a ∈ as, ∀ b, f a = some b → key' b = key a)
    (h : (as.map key).Nodup) (k : κ) :
    get key' (as.filterMap f) k = (get key as k).bind f := by
  induction as with
  | nil => rfl
  | cons a as ih =>
      rw [List.map_cons, List.nodup_cons] at h
      rw [List.forall_mem_cons] at hf
      have hrest := ih hf.2 h.2
      rw [get_cons]
      by_cases hk : key a = k
      · have hnone : get key as k = none := get_eq_none.mpr fun d hd hdk =>
          h.1 (List.mem_map.mpr ⟨d, hd, hdk.trans hk.symm⟩)
        rw [if_pos hk, Option.bind_some]
        cases ha : f a with
        | none => rw [List.filterMap_cons_none ha, hrest, hnone, Option.bind_none]
        | some b =>
            rw [List.filterMap_cons_some ha, get_cons,
              if_pos ((hf.1 b ha).trans hk)]
      · rw [if_neg hk]
        cases ha : f a with
        | none => rw [List.filterMap_cons_none ha, hrest]
        | some b =>
            rw [List.filterMap_cons_some ha, get_cons,
              if_neg fun hb => hk ((hf.1 b ha).symm.trans hb), hrest]

theorem get_filter {p : α → Bool} (h : (as.map key).Nodup) (k : κ) :
    get key (as.filter p) k = (get key as k).filter p := by
  have hguard : as.filter p = as.filterMap (Option.guard p) :=
    (congrFun List.filterMap_eq_filter as).symm
  have hsame : ∀ a ∈ as, ∀ b, Option.guard p a = some b → key b = key a := by
    intro a _ b hab
    rw [(Option.guard_eq_some_iff.mp hab).1]
  rw [hguard, get_filterMap hsame h, Option.bind_guard]

/-- Entries put in one after the other, where their keys are distinct. -/
theorem get_foldl_put (h : (bs.map key).Nodup) (as : List α) (k : κ) :
    get key (bs.foldl (put key) as) k = (get key bs k).or (get key as k) := by
  induction bs generalizing as with
  | nil => rfl
  | cons b bs ih =>
      rw [List.map_cons, List.nodup_cons] at h
      rw [List.foldl_cons, ih h.2, get_put, get_cons]
      by_cases hk : key b = k
      · have hnone : get key bs k = none := get_eq_none.mpr fun d hd hdk =>
          h.1 (List.mem_map.mpr ⟨d, hd, hdk.trans hk.symm⟩)
        rw [hnone, if_pos hk, if_pos hk, Option.none_or, Option.some_or]
      · rw [if_neg hk, if_neg hk]

-- ====== distinct keys

theorem nodup_put (h : (as.map key).Nodup) (a : α) :
    ((put key as a).map key).Nodup := by
  unfold put
  by_cases hany : as.any (fun b => key b = key a) = true
  · rw [if_pos hany, List.map_map]
    have hsame : (key ∘ fun b => if key b = key a then a else b) = key := by
      funext b
      by_cases hb : key b = key a
      · rw [Function.comp_apply, if_pos hb, hb]
      · rw [Function.comp_apply, if_neg hb]
    rwa [hsame]
  · rw [if_neg hany, List.map_append, List.map_singleton]
    refine List.Nodup.append h (List.nodup_singleton _) ?_
    intro k hk hone
    obtain ⟨b, hb, rfl⟩ := List.mem_map.mp hk
    exact hany (List.any_eq_true.mpr
      ⟨b, hb, decide_eq_true (List.mem_singleton.mp hone)⟩)

theorem nodup_drop (h : (as.map key).Nodup) (k : κ) :
    ((drop key as k).map key).Nodup :=
  h.sublist (List.Sublist.map key List.filter_sublist)

theorem nodup_patch (h : (as.map key).Nodup) (cs : List (Change α κ)) :
    ((patch key as cs).map key).Nodup := by
  unfold patch
  induction cs generalizing as with
  | nil => exact h
  | cons c cs ih =>
      cases c with
      | replace a => exact ih (nodup_put h a)
      | delete k => exact ih (nodup_drop h k)

theorem nodup_foldl_put (h : (as.map key).Nodup) (bs : List α) :
    ((bs.foldl (put key) as).map key).Nodup := by
  induction bs generalizing as with
  | nil => exact h
  | cons b bs ih => exact ih (nodup_put h b)

theorem mem_put {b : α} (h : b ∈ put key as a) :
    b ∈ as ∨ b = a := by
  unfold put at h
  split at h
  · obtain ⟨d, hd, he⟩ := List.mem_map.mp h
    by_cases hk : key d = key a
    · rw [if_pos hk] at he
      exact .inr he.symm
    · rw [if_neg hk] at he
      exact .inl (he ▸ hd)
  · rcases List.mem_append.mp h with h | h
    · exact .inl h
    · exact .inr (List.mem_singleton.mp h)

/-- Every entry of a patched collection was there or came with the patch. -/
theorem mem_patch {cs : List (Change α κ)} (h : a ∈ patch key as cs) :
    a ∈ as ∨ .replace a ∈ cs := by
  unfold patch at h
  induction cs generalizing as with
  | nil => exact .inl h
  | cons c cs ih =>
      rcases ih h with h | h
      · cases c with
        | replace b =>
            rcases mem_put h with h | rfl
            · exact .inl h
            · exact .inr List.mem_cons_self
        | delete k => exact .inl (List.mem_of_mem_filter h)
      · exact .inr (List.mem_cons_of_mem c h)

-- ====== order

/-- The order of the entries says nothing. -/
theorem get_perm (hnodup : (as.map key).Nodup) (h : as.Perm bs) (k : κ) :
    get key as k = get key bs k := by
  have hnodup' : (bs.map key).Nodup := (h.map key).nodup hnodup
  cases hget : get key bs k with
  | none =>
      exact get_eq_none.mpr fun a ha =>
        get_eq_none.mp hget a (h.mem_iff.mp ha)
  | some a =>
      obtain ⟨ha, hk⟩ := (get_eq_some_iff hnodup').mp hget
      exact (get_eq_some_iff hnodup).mpr ⟨h.mem_iff.mpr ha, hk⟩

theorem perm_of_get (ha : (as.map key).Nodup) (hb : (bs.map key).Nodup)
    (h : ∀ k, get key as k = get key bs k) :
    as.Perm bs := by
  refine (List.perm_ext_iff_of_nodup ha.of_map hb.of_map).mpr fun a => ?_
  constructor
  · intro hmem
    exact mem_of_get ((h (key a)).symm.trans (get_of_mem ha hmem))
  · intro hmem
    exact mem_of_get ((h (key a)).trans (get_of_mem hb hmem))

/-- Collections that say the same are the same list once they are sorted by
their keys, where the order tells the keys there are apart. -/
theorem sort_eq_of_perm {r : κ → κ → Prop} [DecidableRel r]
    (htotal : ∀ a b, r a b ∨ r b a)
    (htrans : ∀ a b c, r a b → r b c → r a c) (hnodup : (as.map key).Nodup)
    (hapart : ∀ a ∈ as, ∀ b ∈ as, r (key a) (key b) → r (key b) (key a) →
      key a = key b) (h : as.Perm bs) :
    as.insertionSort (fun a b => r (key a) (key b))
      = bs.insertionSort (fun a b => r (key a) (key b)) := by
  have : Std.Total fun a b : α => r (key a) (key b) :=
    ⟨fun a b => htotal (key a) (key b)⟩
  have : IsTrans α fun a b => r (key a) (key b) :=
    ⟨fun a b c => htrans (key a) (key b) (key c)⟩
  have hmem : ∀ a ∈ as.insertionSort (fun a b => r (key a) (key b)),
      a ∈ as := fun a ha => (List.perm_insertionSort _ as).mem_iff.mp ha
  refine List.Perm.eq_of_pairwise ?_ (List.pairwise_insertionSort _ as)
    (List.pairwise_insertionSort _ bs)
    (((List.perm_insertionSort _ as).trans h).trans
      (List.perm_insertionSort _ bs).symm)
  intro a b ha hb hab hba
  have hb' : b ∈ as := h.mem_iff.mpr ((List.perm_insertionSort _ bs).mem_iff.mp hb)
  have hkey := hapart a (hmem a ha) b hb' hab hba
  have hga := get_of_mem hnodup (hmem a ha)
  rw [hkey, get_of_mem hnodup hb'] at hga
  exact (Option.some.inj hga).symm

end Lib.Keyed
