/-
Versions that tell what they are versions of.

# The pattern

A machine publishes something in each of its states, and part of what it
publishes is a version. A reader that only looks at versions keeps up with
the machine where no version is used for two things and no version comes
after a later one. Each step is enough for that: it publishes what was
published already, or it raises the version above the last one
(`Raises`). That it is above every version there ever was follows, since
the last version is the greatest of all (`le_run`).

# What is packaged here

- `Followed`: what such a reader relies on, of a whole run.
- `above`: a later state is not below an earlier one, and where it is not
  above it either, it publishes the same.
- `followed_of_allowed`: a run of steps that keep or raise is followed.
-/
import Yunpanel.Lib.Machine

namespace Lib.Machine

variable {σ ι ο β : Type*} (m : Machine σ ι ο)

section versions

variable (content : σ → β) (version : β → Option Nat)

/-- A state has a version, and a later one than another state had. -/
def Raises (s t : σ) : Prop :=
  ∃ n, version (content t) = some n
    ∧ ∀ k, version (content s) = some k → k < n

/-- What a reader that follows the versions of a run relies on. -/
structure Followed (s : σ) (is : List ι) : Prop where
  monotone : ∀ x ∈ m.steps s is, ∀ n, version (content x.1) = some n →
    ∃ k, version (content (m.next x.1 x.2)) = some k ∧ n ≤ k
  raised : ∀ before i after, is = before ++ i :: after →
    content (m.next (m.run s before) i) ≠ content (m.run s before) →
    ∃ n, version (content (m.next (m.run s before) i)) = some n
      ∧ ∀ t ∈ m.states s before, ∀ k, version (content t) = some k → k < n
  single : ∀ t ∈ m.states s is, ∀ t' ∈ m.states s is, ∀ n,
    version (content t) = some n → version (content t') = some n →
    content t = content t'

end versions

section steps

variable {m} {content : σ → β} {version : β → Option Nat}
  {ok : σ → ι → Prop}

variable {s : σ} {is : List ι}

/-- What comes later is above, or is the same. -/
theorem above (hstep : ∀ s i, ok s i → content (m.next s i) = content s
      ∨ Raises content version s (m.next s i)) (hok : m.Allowed ok s is)
    {n : Nat} (hn : version (content s) = some n) :
    ∀ t ∈ m.states s is, ∃ k, version (content t) = some k ∧ n ≤ k
      ∧ (k = n → content t = content s) := by
  induction is generalizing s n with
  | nil =>
      intro t ht
      rw [List.mem_singleton.mp ht]
      exact ⟨n, hn, Nat.le_refl n, fun _ => rfl⟩
  | cons i is ih =>
      intro t ht
      rcases List.mem_cons.mp ht with rfl | ht
      · exact ⟨n, hn, Nat.le_refl n, fun _ => rfl⟩
      · rcases hstep s i hok.1 with hsame | ⟨k, hk, hlt⟩
        · rw [← hsame] at hn ⊢
          exact ih hok.2 hn t ht
        · have hnk := hlt n hn
          obtain ⟨l, hl, hle, -⟩ := ih hok.2 hk t ht
          exact ⟨l, hl, by omega, fun heq => by omega⟩

/-- The last version is the greatest. -/
theorem le_run (hstep : ∀ s i, ok s i → content (m.next s i) = content s
      ∨ Raises content version s (m.next s i)) (hok : m.Allowed ok s is) :
    ∀ t ∈ m.states s is, ∀ k, version (content t) = some k →
      ∃ n, version (content (m.run s is)) = some n ∧ k ≤ n := by
  induction is generalizing s with
  | nil =>
      intro t ht k hk
      rw [List.mem_singleton.mp ht] at hk
      exact ⟨k, hk, Nat.le_refl k⟩
  | cons i is ih =>
      intro t ht k hk
      rcases List.mem_cons.mp ht with rfl | ht
      · obtain ⟨n, hn, hle, -⟩ :=
          above hstep hok hk _ (m.run_mem_states t (i :: is))
        exact ⟨n, hn, hle⟩
      · exact ih hok.2 t ht k hk

/-- Where two states of a run have one version they publish the same. -/
theorem content_eq_of_version_eq
    (hstep : ∀ s i, ok s i → content (m.next s i) = content s
      ∨ Raises content version s (m.next s i)) (hok : m.Allowed ok s is) :
    ∀ t ∈ m.states s is, ∀ t' ∈ m.states s is, ∀ n,
      version (content t) = some n → version (content t') = some n →
      content t = content t' := by
  -- The first state against any other one.
  have hfirst : ∀ {s : σ} {is : List ι}, m.Allowed ok s is →
      ∀ t ∈ m.states s is, ∀ n, version (content s) = some n →
        version (content t) = some n → content t = content s := by
    intro s is hok t ht n hs hn
    obtain ⟨k, hk, -, hsame⟩ := above hstep hok hs t ht
    rw [hn] at hk
    exact hsame (Option.some.inj hk).symm
  induction is generalizing s with
  | nil =>
      intro t ht t' ht' n _ _
      rw [List.mem_singleton.mp ht, List.mem_singleton.mp ht']
  | cons i is ih =>
      intro t ht t' ht' n hn hn'
      rcases List.mem_cons.mp ht with rfl | hlater
      · exact (hfirst hok t' ht' n hn hn').symm
      · rcases List.mem_cons.mp ht' with rfl | hlater'
        · exact hfirst hok t ht n hn' hn
        · exact ih hok.2 t hlater t' hlater' n hn hn'

/-- A run whose steps keep what is published or raise the version is
followed. -/
theorem followed_of_allowed
    (hstep : ∀ s i, ok s i → content (m.next s i) = content s
      ∨ Raises content version s (m.next s i)) (hok : m.Allowed ok s is) :
    m.Followed content version s is where
  monotone := by
    intro x hx n hn
    rcases hstep x.1 x.2 (forall_mem_steps_of_allowed hok x hx)
      with hsame | ⟨k, hk, hlt⟩
    · rw [hsame]
      exact ⟨n, hn, Nat.le_refl n⟩
    · exact ⟨k, hk, Nat.le_of_lt (hlt n hn)⟩
  raised := by
    rintro before i after rfl hchanged
    rw [m.allowed_append] at hok
    rcases hstep _ i hok.2.1 with hsame | ⟨n, hn, hlt⟩
    · exact absurd hsame hchanged
    · refine ⟨n, hn, fun t ht k hk => ?_⟩
      obtain ⟨l, hl, hle⟩ := le_run hstep hok.1 t ht k hk
      have hlast := hlt l hl
      omega
  single := content_eq_of_version_eq hstep hok

end steps

end Lib.Machine
