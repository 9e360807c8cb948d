/-
Depth-first search for a cycle.

# The search

`visit` goes from a key to the keys it leads to, first to last, with the
keys it is inside of and those it is done with. A key it is inside of
already closes a cycle and ends the search; one it is done with is passed
over. More fuel than there are keys is never used up, as the search is
inside of each key at most once.

# What it finds

Every key the search is done with is accessible (`Acc`) along the edges:
all that it leads to was done before. So a search that ends well shows that
no key leads back to itself, and one that does not has closed a cycle
(`search_ok_iff`).
-/
import Mathlib.Data.List.Perm.Subperm
import Mathlib.Logic.Relation
import Yunpanel.Lib.Result

namespace Lib.DepthFirst

universe u v

variable {κ : Type u} [DecidableEq κ] {ε : Type v} (next : κ → List κ)

-- ====== search

/-- The keys that are done once `k` is. -/
def visit (e : ε) : Nat → List κ → List κ → κ → Except ε (List κ)
  | 0, _, _, _ => .error e
  | fuel + 1, visiting, done, k =>
      if k ∈ visiting then .error e
      else if k ∈ done then .ok done
      else do
        let done ← (next k).foldlM (visit e fuel (k :: visiting)) done
        return k :: done

def search (e : ε) (fuel : Nat) (keys : List κ) : Except ε (List κ) :=
  keys.foldlM (visit next e fuel []) []

/-- An edge from `a` to `b`. -/
def Edge (a b : κ) : Prop := b ∈ next a

/-- `k` leads back to itself. -/
def OnCycle (k : κ) : Prop := Relation.TransGen (Edge next) k k

variable {next}

-- ====== accessing

variable {k : κ} {e : ε} {keys : List κ} {fuel : Nat}

omit [DecidableEq κ] in
/-- From an accessible key there is no way back to it. -/
theorem not_onCycle_of_acc (h : Acc (fun b a => Edge next a b) k) :
    ¬OnCycle next k := by
  have htrans : Acc (Relation.TransGen fun b a => Edge next a b) k :=
    h.transGen
  clear h
  induction htrans with
  | intro k _ ih =>
      intro hcycle
      have hback : Relation.TransGen (fun b a => Edge next a b) k k :=
        Relation.transGen_swap.mpr hcycle
      exact ih k hback hcycle

/-- What the search may assume of the keys it is inside of. -/
structure Inside (next : κ → List κ) (keys visiting : List κ) (k : κ) :
    Prop where
  distinct : visiting.Nodup
  known : ∀ a ∈ visiting, a ∈ keys
  leads : ∀ a ∈ visiting, Relation.TransGen (Edge next) a k

/-- What is true of the keys the search is done with. -/
def Settled (next : κ → List κ) (done : List κ) : Prop :=
  ∀ a ∈ done, Acc (fun b a => Edge next a b) a

omit [DecidableEq κ] in
/-- A search from a list of keys, one after the other. -/
theorem foldlM_visit (visitOne : List κ → κ → Except ε (List κ))
    {done : List κ} (hone : ∀ k ∈ keys, ∀ done, Settled next done →
      (∀ done', visitOne done k = .ok done' →
        Settled next done' ∧ done ⊆ done' ∧ k ∈ done')
      ∧ ∀ e', visitOne done k = .error e' →
        e' = e ∧ ∃ a, OnCycle next a) (hdone : Settled next done) :
    (∀ done', keys.foldlM visitOne done = .ok done' →
      Settled next done' ∧ done ⊆ done' ∧ ∀ k ∈ keys, k ∈ done')
    ∧ ∀ e', keys.foldlM visitOne done = .error e' →
      e' = e ∧ ∃ a, OnCycle next a := by
  induction keys generalizing done with
  | nil =>
      refine ⟨fun done' hok => ?_, fun e' hfail => by cases hfail⟩
      obtain rfl := Except.ok.inj hok
      exact ⟨hdone, List.Subset.refl _, by simp⟩
  | cons k keys ih =>
      obtain ⟨hok, hfail⟩ := hone k (by simp) done hdone
      rw [List.foldlM_cons]
      cases hvisit : visitOne done k with
      | error e' =>
          obtain ⟨rfl, hcycle⟩ := hfail e' hvisit
          refine ⟨fun done' h => (by cases h), fun e' h => ?_⟩
          cases h
          exact ⟨rfl, hcycle⟩
      | ok middle =>
          obtain ⟨hmiddle, hsub, hk⟩ := hok middle hvisit
          obtain ⟨hrest, hrest'⟩ := ih
            (fun a ha => hone a (List.mem_cons_of_mem k ha)) hmiddle
          refine ⟨fun done' h => ?_, hrest'⟩
          obtain ⟨hsettled, hsub', hkeys⟩ := hrest done' h
          refine ⟨hsettled, List.Subset.trans hsub hsub', ?_⟩
          rw [List.forall_mem_cons]
          exact ⟨hsub' hk, hkeys⟩

/-- A search that is inside of some keys settles one more, or closes a
cycle. -/
theorem visit_spec (hclosed : ∀ a ∈ keys, ∀ b ∈ next a, b ∈ keys) :
    ∀ (fuel : Nat) (visiting done : List κ) (k : κ), k ∈ keys →
      Inside next keys visiting k → keys.length < fuel + visiting.length →
      Settled next done →
      (∀ done', visit next e fuel visiting done k = .ok done' →
        Settled next done' ∧ done ⊆ done' ∧ k ∈ done')
      ∧ ∀ e', visit next e fuel visiting done k = .error e' →
        e' = e ∧ ∃ a, OnCycle next a := by
  intro fuel
  induction fuel with
  | zero =>
      intro visiting done k _ hinside hfuel _
      -- there is no room for more keys than there are
      have hle : visiting.length ≤ keys.length :=
        (List.subperm_of_subset hinside.distinct hinside.known).length_le
      omega
  | succ fuel ih =>
      intro visiting done k hk hinside hfuel hdone
      unfold visit
      by_cases hcircle : k ∈ visiting
      · rw [if_pos hcircle]
        refine ⟨fun done' h => (by cases h), fun e' h => ?_⟩
        cases h
        exact ⟨rfl, k, hinside.leads k hcircle⟩
      · rw [if_neg hcircle]
        by_cases hseen : k ∈ done
        · rw [if_pos hseen]
          refine ⟨fun done' h => ?_, fun e' h => (by cases h)⟩
          obtain rfl := Except.ok.inj h
          exact ⟨hdone, List.Subset.refl _, hseen⟩
        · rw [if_neg hseen]
          have hnext : ∀ b ∈ next k, Inside next keys (k :: visiting) b := by
            intro b hb
            refine ⟨List.nodup_cons.mpr ⟨hcircle, hinside.distinct⟩, ?_, ?_⟩
            · rw [List.forall_mem_cons]
              exact ⟨hk, hinside.known⟩
            · rw [List.forall_mem_cons]
              exact ⟨.single hb, fun a ha => (hinside.leads a ha).tail hb⟩
          have hroom : keys.length < fuel + (k :: visiting).length := by
            rw [List.length_cons]
            omega
          obtain ⟨hok, hfail⟩ := foldlM_visit
            (visit next e fuel (k :: visiting)) (e := e)
            (fun b hb done hdone => ih (k :: visiting) done b
              (hclosed k hk b hb) (hnext b hb) hroom hdone) hdone
          cases hfold : (next k).foldlM (visit next e fuel (k :: visiting))
              done with
          | error e' =>
              obtain ⟨rfl, hcycle⟩ := hfail e' hfold
              refine ⟨fun done' h => (by cases h), fun e' h => ?_⟩
              cases h
              exact ⟨rfl, hcycle⟩
          | ok middle =>
              obtain ⟨hsettled, hsub, hall⟩ := hok middle hfold
              refine ⟨fun done' h => ?_, fun e' h => (by cases h)⟩
              obtain rfl := Except.ok.inj h
              refine ⟨?_, fun a ha => List.mem_cons_of_mem k (hsub ha),
                by simp⟩
              unfold Settled
              rw [List.forall_mem_cons]
              exact ⟨.intro k fun b hb => hsettled b (hall b hb), hsettled⟩

/-- The search settles every key, or there is a cycle. -/
theorem search_spec (hclosed : ∀ a ∈ keys, ∀ b ∈ next a, b ∈ keys)
    (hfuel : keys.length < fuel) :
    (∀ done, search next e fuel keys = .ok done →
      ∀ k ∈ keys, Acc (fun b a => Edge next a b) k)
    ∧ ∀ e', search next e fuel keys = .error e' →
      e' = e ∧ ∃ a, OnCycle next a := by
  have hinside : ∀ k, Inside next keys [] k := fun k =>
    ⟨List.nodup_nil, by simp, by simp⟩
  have hempty : Settled next [] := by
    unfold Settled
    simp
  obtain ⟨hok, hfail⟩ := foldlM_visit (visit next e fuel [])
    (e := e) (fun k hk done hdone => visit_spec hclosed fuel [] done k hk
      (hinside k) (by simpa using hfuel) hdone) hempty
  refine ⟨fun done h k hk => ?_, hfail⟩
  obtain ⟨hsettled, -, hall⟩ := hok done h
  exact hsettled k (hall k hk)

omit [DecidableEq κ] in
/-- A key on a cycle is one that leads somewhere. -/
theorem next_ne_nil_of_onCycle (h : OnCycle next k) :
    next k ≠ [] := by
  obtain ⟨b, hb, -⟩ := Relation.TransGen.head'_iff.mp h
  exact List.ne_nil_of_mem hb

/-- The search is refused exactly where there is a cycle. -/
theorem search_error_iff (hclosed : ∀ a ∈ keys, ∀ b ∈ next a, b ∈ keys)
    (hkeys : ∀ a, next a ≠ [] → a ∈ keys) (hfuel : keys.length < fuel) :
    search next e fuel keys = .error e ↔ ∃ a, OnCycle next a := by
  obtain ⟨hok, hfail⟩ := search_spec (e := e) hclosed hfuel
  constructor
  · exact fun h => (hfail e h).2
  · rintro ⟨a, hcycle⟩
    cases hsearch : search next e fuel keys with
    | error e' => rw [(hfail e' hsearch).1]
    | ok done =>
        have hacc := hok done hsearch a
          (hkeys a (next_ne_nil_of_onCycle hcycle))
        exact absurd hcycle (not_onCycle_of_acc hacc)

end Lib.DepthFirst
