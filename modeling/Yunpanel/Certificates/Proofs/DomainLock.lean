/-
One body for a domain at a time, in the order of the calls, whatever the
bodies come to, and nothing left in the map.

# The chain

The promise a call waits for is that of the last call of its domain before
it; where it found none, every call of the domain before it was settled
(`Chained`). So what has started has only settled calls before it
(`ordered`), and a call whose predecessors are settled can start.

# The map

What stands under a domain is its last call, and that one is not settled;
where nothing stands, every call of the domain is (`Held`). The `finally`
of a call that is not the last leaves the entry to the one that is.
-/
import Yunpanel.Certificates.DomainLock

namespace Yunpanel.Certificates

open Lib

-- ====== map

namespace Locks

theorem lookup_delete_self (m : List (String × Nat)) (domainId : String) :
    (delete m domainId).lookup domainId = none := by
  rw [List.lookup_eq_none_iff]
  intro entry hentry
  obtain ⟨-, hne⟩ := List.mem_filter.mp hentry
  rw [bne_iff_ne] at hne
  simpa using Ne.symm hne

variable {domainId other : String}

theorem lookup_delete_of_ne (m : List (String × Nat)) (h : other ≠ domainId) :
    (delete m domainId).lookup other = m.lookup other := by
  induction m with
  | nil => rfl
  | cons entry m ih =>
      obtain ⟨d, n⟩ := entry
      unfold delete at ih ⊢
      by_cases hd : d = domainId
      · subst hd
        have hother : (other == d) = false := beq_eq_false_iff_ne.mpr h
        rw [List.filter_cons_of_neg (by simp), ih, List.lookup_cons, hother]
      · rw [List.filter_cons_of_pos (by simpa using hd), List.lookup_cons,
          List.lookup_cons, ih]

theorem lookup_set_self (m : List (String × Nat)) (domainId : String)
    (n : Nat) : (set m domainId n).lookup domainId = some n := by
  simp [set]

theorem lookup_set_of_ne (m : List (String × Nat)) (h : other ≠ domainId)
    (n : Nat) :
    (set m domainId n).lookup other = m.lookup other := by
  have hother : (other == domainId) = false := beq_eq_false_iff_ne.mpr h
  unfold set
  rw [List.lookup_cons, hother]
  exact lookup_delete_of_ne m h

-- ====== invariant

/-- A call has settled. -/
def Over (c : LockCall) : Prop := ∃ ok, c.stage = .settled ok

/-- Every call of a domain before the `n`-th is over. -/
def OverBefore (s : Locks) (domainId : String) (n : Nat) : Prop :=
  ∀ (i : Nat) (c : LockCall), i < n → s.calls[i]? = some c →
    c.domainId = domainId → Over c

/-- What a call waits for. -/
def Chained (s : Locks) (n : Nat) (c : LockCall) : Prop :=
  match c.previous with
  | none => s.OverBefore c.domainId n
  | some m => m < n
    ∧ (∃ p, s.calls[m]? = some p ∧ p.domainId = c.domainId)
    ∧ ∀ (i : Nat) (d : LockCall), m < i → i < n → s.calls[i]? = some d →
      d.domainId ≠ c.domainId

/-- What stands in the map under a domain. -/
def Held (s : Locks) (domainId : String) : Prop :=
  match s.domainLocks.lookup domainId with
  | none => ∀ (i : Nat) (c : LockCall), s.calls[i]? = some c →
      c.domainId = domainId → Over c
  | some n => (∃ c, s.calls[n]? = some c ∧ c.domainId = domainId ∧ ¬Over c)
    ∧ ∀ (i : Nat) (c : LockCall), n < i → s.calls[i]? = some c →
      c.domainId ≠ domainId

structure Inv (s : Locks) : Prop where
  released : ∀ (n : Nat) (c : LockCall), s.calls[n]? = some c →
    (c.released = true ↔ Over c)
  chained : ∀ (n : Nat) (c : LockCall), s.calls[n]? = some c →
    s.Chained n c
  ordered : ∀ (n : Nat) (c : LockCall), s.calls[n]? = some c →
    c.stage ≠ .waiting → s.OverBefore c.domainId n
  held : ∀ domainId, s.Held domainId

theorem inv_fresh : Inv fresh where
  released _ _ h := by cases h
  chained _ _ h := by cases h
  ordered _ _ h := by cases h
  held _ := fun _ _ h => by cases h

theorem not_over_waiting {c : LockCall} (h : c.stage = .waiting) : ¬Over c := by
  rintro ⟨ok, hok⟩
  rw [h] at hok
  cases hok

theorem not_over_running {c : LockCall} (h : c.stage = .running) : ¬Over c := by
  rintro ⟨ok, hok⟩
  rw [h] at hok
  cases hok

/-- What a call waits for is over exactly where everything of its domain
before it is. -/
theorem Inv.overBefore_iff {s : Locks} (h : Inv s) {n : Nat} {c : LockCall}
    (hc : s.calls[n]? = some c) :
    c.previous.all s.isReleased = true ↔ s.OverBefore c.domainId n := by
  have hchained := h.chained n c hc
  unfold Chained at hchained
  cases hprevious : c.previous with
  | none =>
      rw [hprevious] at hchained
      exact iff_of_true rfl hchained
  | some m =>
      rw [hprevious] at hchained
      obtain ⟨hlt, ⟨p, hp, hdomain⟩, hbetween⟩ := hchained
      have hreleased : s.isReleased m = true ↔ Over p := by
        rw [isReleased, hp]
        exact h.released m p hp
      show s.isReleased m = true ↔ _
      rw [hreleased]
      constructor
      · intro hover i d hi hd hsame
        rcases Nat.lt_trichotomy i m with him | rfl | him
        · -- the one waited for has started, so it has only settled ones before
          refine h.ordered m p hp ?_ i d him hd (hsame.trans hdomain.symm)
          obtain ⟨ok, hok⟩ := hover
          rw [hok]
          intro hwait
          cases hwait
        · rw [hp] at hd
          exact Option.some.inj hd ▸ hover
        · exact absurd hsame (hbetween i d him hi hd)
      · exact fun hbefore => hbefore m p hlt hp hdomain

-- ====== steps

/-- Making a call. -/
theorem Inv.withDomainLock {s : Locks} (h : Inv s) (domainId : String) :
    Inv (s.withDomainLock domainId) := by
  let made : LockCall := ⟨domainId, s.domainLocks.lookup domainId, false, .waiting⟩
  have hcases : ∀ (i : Nat) (c : LockCall),
      (s.withDomainLock domainId).calls[i]? = some c →
        s.calls[i]? = some c ∧ i < s.calls.length
          ∨ i = s.calls.length ∧ c = made := by
    intro i c hi
    rcases Nat.lt_trichotomy i s.calls.length with hlt | rfl | hgt
    · refine .inl ⟨?_, hlt⟩
      rwa [Locks.withDomainLock, List.getElem?_append_left hlt] at hi
    · refine .inr ⟨rfl, ?_⟩
      rw [Locks.withDomainLock,
        List.getElem?_append_right (Nat.le_refl _), Nat.sub_self] at hi
      exact (Option.some.inj hi).symm
    · rw [Locks.withDomainLock, List.getElem?_eq_none (by
        rw [List.length_append, List.length_singleton]
        omega)] at hi
      cases hi
  have hkept : ∀ (i : Nat) (c : LockCall), s.calls[i]? = some c →
      (s.withDomainLock domainId).calls[i]? = some c := by
    intro i c hi
    obtain ⟨hlt, -⟩ := List.getElem?_eq_some_iff.mp hi
    rwa [Locks.withDomainLock, List.getElem?_append_left hlt]
  have hbefore : ∀ d n, n ≤ s.calls.length → s.OverBefore d n →
      (s.withDomainLock domainId).OverBefore d n := by
    intro d n hn hover i c hi hc hsame
    rcases hcases i c hc with ⟨hc, -⟩ | ⟨rfl, -⟩
    · exact hover i c hi hc hsame
    · omega
  have hwaits : ¬Over made := not_over_waiting rfl
  constructor
  · intro n c hn
    rcases hcases n c hn with ⟨hn, -⟩ | ⟨-, rfl⟩
    · exact h.released n c hn
    · exact iff_of_false (by simp [made]) hwaits
  · intro n c hn
    rcases hcases n c hn with ⟨hn, hlt⟩ | ⟨rfl, rfl⟩
    · have hchained := h.chained n c hn
      unfold Chained at hchained ⊢
      cases hprevious : c.previous with
      | none =>
          rw [hprevious] at hchained
          exact hbefore _ n hlt.le hchained
      | some m =>
          rw [hprevious] at hchained
          obtain ⟨hm, ⟨p, hp, hdomain⟩, hbetween⟩ := hchained
          refine ⟨hm, ⟨p, hkept m p hp, hdomain⟩, fun i d hi hin hd => ?_⟩
          rcases hcases i d hd with ⟨hd, -⟩ | ⟨rfl, -⟩
          · exact hbetween i d hi hin hd
          · omega
    · -- the new one waits for what stands in the map
      have hheld := h.held domainId
      unfold Held at hheld
      unfold Chained
      show match s.domainLocks.lookup domainId with
        | none => _
        | some m => _
      cases hfound : s.domainLocks.lookup domainId with
      | none =>
          rw [hfound] at hheld
          exact hbefore _ _ (Nat.le_refl _) fun i c _ hc => hheld i c hc
      | some m =>
          rw [hfound] at hheld
          obtain ⟨⟨p, hp, hdomain, -⟩, hlast⟩ := hheld
          obtain ⟨hlt, -⟩ := List.getElem?_eq_some_iff.mp hp
          refine ⟨hlt, ⟨p, hkept m p hp, hdomain⟩, fun i d hi hin hd => ?_⟩
          rcases hcases i d hd with ⟨hd, -⟩ | ⟨rfl, -⟩
          · exact hlast i d hi hd
          · omega
  · intro n c hn hstage
    rcases hcases n c hn with ⟨hn, hlt⟩ | ⟨rfl, rfl⟩
    · exact hbefore _ n hlt.le (h.ordered n c hn hstage)
    · exact absurd rfl hstage
  · intro d
    unfold Held
    by_cases hd : d = domainId
    · subst hd
      have hlookup : (s.withDomainLock d).domainLocks.lookup d
          = some s.calls.length := lookup_set_self _ _ _
      rw [hlookup]
      refine ⟨⟨made, ?_, rfl, hwaits⟩, fun i c hi hc => ?_⟩
      · rw [Locks.withDomainLock,
          List.getElem?_append_right (Nat.le_refl _), Nat.sub_self]
        rfl
      · rcases hcases i c hc with ⟨-, hlt⟩ | ⟨rfl, -⟩ <;> omega
    · have hlookup : (s.withDomainLock domainId).domainLocks.lookup d
          = s.domainLocks.lookup d := lookup_set_of_ne _ hd _
      have hheld := h.held d
      unfold Held at hheld
      rw [hlookup]
      cases hfound : s.domainLocks.lookup d with
      | none =>
          rw [hfound] at hheld
          intro i c hi hsame
          rcases hcases i c hi with ⟨hi, -⟩ | ⟨-, rfl⟩
          · exact hheld i c hi hsame
          · exact absurd hsame.symm hd
      | some n =>
          rw [hfound] at hheld
          obtain ⟨⟨c, hc, hsame, hnot⟩, hlast⟩ := hheld
          refine ⟨⟨c, hkept n c hc, hsame, hnot⟩, fun i c' hi hc' => ?_⟩
          rcases hcases i c' hc' with ⟨hc', -⟩ | ⟨-, rfl⟩
          · exact hlast i c' hi hc'
          · exact Ne.symm hd

/-- A call moves on: its domain and what it waits for stay, and what was
over stays over. -/
structure Moves (s : Locks) (n : Nat) (c c' : LockCall) (s' : Locks) :
    Prop where
  found : s.calls[n]? = some c
  calls : s'.calls = s.calls.set n c'
  domainId : c'.domainId = c.domainId
  previous : c'.previous = c.previous
  stays : Over c → Over c'

namespace Moves

variable {s s' : Locks} {n : Nat} {c c' : LockCall}

theorem get (h : Moves s n c c' s') (i : Nat) :
    s'.calls[i]? = if n = i then some c' else s.calls[i]? := by
  obtain ⟨hlt, -⟩ := List.getElem?_eq_some_iff.mp h.found
  rw [h.calls, List.getElem?_set]
  by_cases hi : n = i
  · rw [if_pos hi, if_pos hi, if_pos (hi ▸ hlt)]
  · rw [if_neg hi, if_neg hi]

theorem get_self (h : Moves s n c c' s') : s'.calls[n]? = some c' := by
  rw [h.get, if_pos rfl]

/-- What a call was before. -/
theorem back (h : Moves s n c c' s') {i : Nat} {d' : LockCall}
    (hi : s'.calls[i]? = some d') :
    ∃ d, s.calls[i]? = some d ∧ d'.domainId = d.domainId
      ∧ d'.previous = d.previous ∧ (Over d → Over d')
      ∧ (i = n ∧ d = c ∧ d' = c' ∨ i ≠ n ∧ d' = d) := by
  rw [h.get] at hi
  by_cases hni : n = i
  · subst hni
    rw [if_pos rfl] at hi
    obtain rfl := Option.some.inj hi
    exact ⟨c, h.found, h.domainId, h.previous, h.stays, .inl ⟨rfl, rfl, rfl⟩⟩
  · rw [if_neg hni] at hi
    exact ⟨d', hi, rfl, rfl, id, .inr ⟨Ne.symm hni, rfl⟩⟩

/-- What becomes of a call. -/
theorem forth (h : Moves s n c c' s') {i : Nat} {d : LockCall}
    (hi : s.calls[i]? = some d) :
    ∃ d', s'.calls[i]? = some d' ∧ d'.domainId = d.domainId
      ∧ (i ≠ n → d' = d) := by
  rw [h.get]
  by_cases hni : n = i
  · subst hni
    rw [if_pos rfl]
    rw [h.found] at hi
    exact ⟨c', rfl, Option.some.inj hi ▸ h.domainId, fun hne => absurd rfl hne⟩
  · rw [if_neg hni]
    exact ⟨d, hi, rfl, fun _ => rfl⟩

theorem overBefore (h : Moves s n c c' s') {k : Nat}
    (hover : s.OverBefore domainId k) : s'.OverBefore domainId k := by
  intro i d' hi hd' hsame
  obtain ⟨d, hd, hdomain, -, hmono, -⟩ := h.back hd'
  exact hmono (hover i d hi hd (hdomain ▸ hsame))

theorem chained (h : Moves s n c c' s') (hinv : Inv s) (i : Nat)
    (d' : LockCall) (hi : s'.calls[i]? = some d') : s'.Chained i d' := by
  obtain ⟨d, hd, hdomain, hprevious, -⟩ := h.back hi
  have hchained := hinv.chained i d hd
  unfold Chained at hchained ⊢
  rw [hprevious, hdomain]
  cases hp : d.previous with
  | none =>
      rw [hp] at hchained
      exact h.overBefore hchained
  | some m =>
      rw [hp] at hchained
      obtain ⟨hlt, ⟨p, hfound, hsame⟩, hbetween⟩ := hchained
      obtain ⟨p', hfound', hsame', -⟩ := h.forth hfound
      refine ⟨hlt, ⟨p', hfound', hsame'.trans hsame⟩, fun j e' hj hji he' => ?_⟩
      obtain ⟨e, he, hedomain, -⟩ := h.back he'
      exact hedomain ▸ hbetween j e hj hji he

/-- A domain of other calls: what stands in the map stays. -/
theorem held (h : Moves s n c c' s') (hinv : Inv s)
    (hlookup : s'.domainLocks.lookup domainId
      = s.domainLocks.lookup domainId)
    (hother : s.domainLocks.lookup domainId = some n → ¬Over c') :
    s'.Held domainId := by
  have hheld := hinv.held domainId
  unfold Held at hheld ⊢
  rw [hlookup]
  cases hfound : s.domainLocks.lookup domainId with
  | none =>
      rw [hfound] at hheld
      intro i d' hi hsame
      obtain ⟨d, hd, hdomain, -, hmono, -⟩ := h.back hi
      exact hmono (hheld i d hd (hdomain ▸ hsame))
  | some k =>
      rw [hfound] at hheld hother
      obtain ⟨⟨d, hd, hsame, hnot⟩, hlast⟩ := hheld
      obtain ⟨d', hd', hdomain', hkept⟩ := h.forth hd
      refine ⟨⟨d', hd', hdomain'.trans hsame, ?_⟩, fun i e' hi he' => ?_⟩
      · by_cases hk : k = n
        · subst hk
          rw [h.get_self] at hd'
          exact Option.some.inj hd' ▸ hother rfl
        · exact hkept hk ▸ hnot
      · obtain ⟨e, he, hedomain, -⟩ := h.back he'
        exact hedomain ▸ hlast i e hi he

end Moves

/-- A body starts only where everything of its domain before is over. -/
theorem Inv.startBody {s : Locks} (h : Inv s) (n : Nat) :
    Inv (s.startBody n).1 := by
  unfold Locks.startBody
  cases hc : s.calls[n]? with
  | none => exact h
  | some c =>
      by_cases hready : c.stage = .waiting
          ∧ c.previous.all s.isReleased = true
      · obtain ⟨hwaiting, hreleased⟩ := hready
        dsimp only
        rw [if_pos ⟨hwaiting, hreleased⟩]
        have hbefore := (h.overBefore_iff hc).mp hreleased
        have hnot := not_over_waiting hwaiting
        have hmoves : Moves s n c { c with stage := .running }
            { s with calls := s.calls.set n { c with stage := .running } } :=
          ⟨hc, rfl, rfl, rfl, fun hover => absurd hover hnot⟩
        have hrunning : ¬Over { c with stage := .running } :=
          not_over_running rfl
        refine ⟨fun i d' hi => ?_, hmoves.chained h, fun i d' hi hstage => ?_,
          fun domainId => hmoves.held h rfl fun _ => hrunning⟩
        · obtain ⟨d, hd, -, -, -, ⟨rfl, rfl, rfl⟩ | ⟨-, rfl⟩⟩ := hmoves.back hi
          · exact iff_of_false (fun htrue => hnot ((h.released _ _ hc).mp htrue))
              hrunning
          · exact h.released i _ hd
        · obtain ⟨d, hd, -, -, -, ⟨rfl, rfl, rfl⟩ | ⟨-, rfl⟩⟩ := hmoves.back hi
          · exact hmoves.overBefore hbefore
          · exact hmoves.overBefore (h.ordered i _ hd hstage)
      · dsimp only
        rw [if_neg hready]
        exact h

/-- A body settles, and its entry goes where it is still its own. -/
theorem Inv.settleBody {s : Locks} (h : Inv s) (n : Nat) (ok : Bool) :
    Inv (s.settleBody n ok) := by
  unfold Locks.settleBody
  cases hc : s.calls[n]? with
  | none => exact h
  | some c =>
      by_cases hrunning : c.stage = .running
      · dsimp only
        rw [if_pos hrunning]
        let done : LockCall := { c with released := true, stage := .settled ok }
        have hover : Over done := ⟨ok, rfl⟩
        have hbefore : s.OverBefore c.domainId n :=
          h.ordered n c hc (by rw [hrunning]; decide)
        generalize hlocks : (if s.domainLocks.lookup c.domainId = some n then
          delete s.domainLocks c.domainId else s.domainLocks) = locks
        have hmoves : Moves s n c done
            { calls := s.calls.set n done, domainLocks := locks } :=
          ⟨hc, rfl, rfl, rfl, fun _ => hover⟩
        refine ⟨fun i d' hi => ?_, hmoves.chained h, fun i d' hi hstage => ?_,
          fun domainId => ?_⟩
        · obtain ⟨d, hd, -, -, -, ⟨rfl, rfl, rfl⟩ | ⟨-, rfl⟩⟩ := hmoves.back hi
          · exact iff_of_true rfl hover
          · exact h.released i _ hd
        · obtain ⟨d, hd, -, -, -, ⟨rfl, rfl, rfl⟩ | ⟨-, rfl⟩⟩ := hmoves.back hi
          · exact hmoves.overBefore hbefore
          · exact hmoves.overBefore (h.ordered i _ hd hstage)
        · by_cases hown : s.domainLocks.lookup c.domainId = some n
          · rw [if_pos hown] at hlocks
            subst hlocks
            by_cases hd : domainId = c.domainId
            · -- the last call of the domain settles
              subst hd
              unfold Held
              show match (delete s.domainLocks c.domainId).lookup c.domainId with
                | none => _
                | some _ => _
              rw [lookup_delete_self]
              intro i d' hi hsame
              have hheld := h.held c.domainId
              unfold Held at hheld
              rw [hown] at hheld
              obtain ⟨d, hd, hdomain, -, hmono, ⟨rfl, rfl, rfl⟩ | ⟨hne, rfl⟩⟩ :=
                hmoves.back hi
              · exact hover
              · rcases Nat.lt_trichotomy i n with hlt | rfl | hgt
                · exact hbefore i _ hlt hd hsame
                · exact absurd rfl hne
                · exact absurd hsame (hheld.2 i _ hgt hd)
            · refine hmoves.held h (lookup_delete_of_ne _ hd) fun hfound => ?_
              -- what stands there is a call of another domain
              have hheld := h.held domainId
              unfold Held at hheld
              rw [hfound] at hheld
              obtain ⟨⟨d, hd', hsame, -⟩, -⟩ := hheld
              rw [hc] at hd'
              obtain rfl := Option.some.inj hd'
              exact absurd hsame.symm hd
          · rw [if_neg hown] at hlocks
            subst hlocks
            refine hmoves.held h rfl fun hfound => ?_
            have hheld := h.held domainId
            unfold Held at hheld
            rw [hfound] at hheld
            obtain ⟨⟨d, hd', hsame, -⟩, -⟩ := hheld
            rw [hc] at hd'
            obtain rfl := Option.some.inj hd'
            exact absurd (hsame ▸ hfound) hown
      · dsimp only
        rw [if_neg hrunning]
        exact h

theorem Inv.step {s : Locks} (h : Inv s) (e : LockEvent) :
    Inv (domainLock.next s e) := by
  cases e with
  | call domainId => exact h.withDomainLock domainId
  | start n => exact h.startBody n
  | settle n ok => exact h.settleBody n ok

-- ====== rules

/-- A call whose predecessors are over can start. -/
theorem Inv.startBody_eq {s : Locks} (h : Inv s) {n : Nat} {c : LockCall}
    (hc : s.calls[n]? = some c) (hwaiting : c.stage = .waiting)
    (hbefore : s.OverBefore c.domainId n) :
    (s.startBody n).2 = some (c.domainId, n) := by
  have hreleased := (h.overBefore_iff hc).mpr hbefore
  unfold Locks.startBody
  rw [hc]
  dsimp only
  rw [if_pos ⟨hwaiting, hreleased⟩]

/-- A call that starts was waiting, and everything before it is over. -/
theorem Inv.of_startBody {s : Locks} (h : Inv s) {n k : Nat} {d : String}
    (hstart : (s.startBody n).2 = some (d, k)) :
    k = n ∧ ∃ c, s.calls[n]? = some c ∧ c.domainId = d
      ∧ c.stage = .waiting ∧ s.OverBefore d n
      ∧ (s.startBody n).1.calls[n]? = some { c with stage := .running } := by
  unfold Locks.startBody at hstart ⊢
  cases hc : s.calls[n]? with
  | none =>
      rw [hc] at hstart
      cases hstart
  | some c =>
      rw [hc] at hstart
      dsimp only at hstart ⊢
      by_cases hready : c.stage = .waiting
          ∧ c.previous.all s.isReleased = true
      · rw [if_pos hready] at hstart ⊢
        obtain ⟨rfl, rfl⟩ := Prod.mk.inj (Option.some.inj hstart)
        obtain ⟨hlt, -⟩ := List.getElem?_eq_some_iff.mp hc
        refine ⟨rfl, c, rfl, rfl, hready.1,
          (h.overBefore_iff hc).mp hready.2, ?_⟩
        rw [List.getElem?_set_self hlt]
      · rw [if_neg hready] at hstart
        cases hstart

/-- Two of one domain never run at once. -/
theorem Inv.eq_of_running {s : Locks} (h : Inv s) {i j : Nat}
    {c d : LockCall} (hi : s.calls[i]? = some c) (hj : s.calls[j]? = some d)
    (hsame : c.domainId = d.domainId) (hc : c.stage = .running)
    (hd : d.stage = .running) : i = j := by
  rcases Nat.lt_trichotomy i j with hlt | heq | hgt
  · have hover := h.ordered j d hj (by rw [hd]; decide) i c hlt hi hsame
    exact absurd hover (not_over_running hc)
  · exact heq
  · have hover := h.ordered i c hi (by rw [hc]; decide) j d hgt hj hsame.symm
    exact absurd hover (not_over_running hd)

/-- A domain with a call that is not over has one that runs or can
start. -/
theorem Inv.exists_first {s : Locks} (h : Inv s) {n : Nat} {c : LockCall}
    (hc : s.calls[n]? = some c) (hnot : ¬Over c) :
    ∃ m d, s.calls[m]? = some d ∧ d.domainId = c.domainId
      ∧ (d.stage = .running
        ∨ (s.startBody m).2 = some (c.domainId, m)) := by
  induction n using Nat.strong_induction_on generalizing c with
  | _ n ih =>
      by_cases hbefore : s.OverBefore c.domainId n
      · refine ⟨n, c, hc, rfl, ?_⟩
        cases hstage : c.stage with
        | waiting => exact .inr (h.startBody_eq hc hstage hbefore)
        | running => exact .inl rfl
        | settled ok => exact absurd ⟨ok, hstage⟩ hnot
      · unfold OverBefore at hbefore
        push Not at hbefore
        obtain ⟨i, d, hlt, hd, hsame, hopen⟩ := hbefore
        obtain ⟨m, e, he, hdomain, hcan⟩ := ih i hlt hd hopen
        exact ⟨m, e, he, hdomain.trans hsame, hsame ▸ hcan⟩

/-- Where every call of a domain is over nothing stands under it. -/
theorem Inv.lookup_eq_none {s : Locks} (h : Inv s)
    (hall : ∀ (n : Nat) (c : LockCall), s.calls[n]? = some c →
      c.domainId = domainId → Over c) :
    s.domainLocks.lookup domainId = none := by
  have hheld := h.held domainId
  unfold Held at hheld
  cases hfound : s.domainLocks.lookup domainId with
  | none => rfl
  | some n =>
      rw [hfound] at hheld
      obtain ⟨⟨c, hc, hsame, hnot⟩, -⟩ := hheld
      exact absurd (hall n c hc hsame) hnot

/-- The bodies a run has started, oldest first, each with its domain. -/
def started (s : Locks) (events : List LockEvent) : List (String × Nat) :=
  (domainLock.answers s events).flatMap Option.toList

end Locks

open Locks

/-- What the lock is for, in any run. -/
structure Serializes (events : List LockEvent) : Prop where
  /-- No two bodies of a domain run at once. -/
  exclusive : ∀ s ∈ domainLock.states Locks.fresh events,
    ∀ (i j : Nat) (c d : LockCall), s.calls[i]? = some c →
      s.calls[j]? = some d → c.domainId = d.domainId →
      c.stage = .running → d.stage = .running → i = j
  /-- The bodies of a domain start in the order of the calls, each once. -/
  inOrder : (started Locks.fresh events).Pairwise fun x y =>
    x.1 = y.1 → x.2 < y.2
  /-- A call whose predecessors resolved or threw can start. -/
  free : ∀ s ∈ domainLock.states Locks.fresh events,
    ∀ (n : Nat) (c : LockCall), s.calls[n]? = some c → c.stage = .waiting →
      s.OverBefore c.domainId n →
      domainLock.answer s (.start n) = some (c.domainId, n)
  /-- A domain with a call that is not over is not stuck. -/
  live : ∀ s ∈ domainLock.states Locks.fresh events,
    ∀ (n : Nat) (c : LockCall), s.calls[n]? = some c → ¬Over c →
      ∃ m d, s.calls[m]? = some d ∧ d.domainId = c.domainId
        ∧ (d.stage = .running
          ∨ domainLock.answer s (.start m) = some (c.domainId, m))
  /-- A domain whose calls are over has no entry. -/
  clean : ∀ s ∈ domainLock.states Locks.fresh events, ∀ domainId,
    (∀ (n : Nat) (c : LockCall), s.calls[n]? = some c →
      c.domainId = domainId → Over c) →
    s.domainLocks.lookup domainId = none

/-- What is known of the bodies that were started. -/
structure StartedInv (s : Locks) (past : List (String × Nat)) : Prop where
  inv : Inv s
  past : ∀ x ∈ past, ∃ c, s.calls[x.2]? = some c ∧ c.domainId = x.1
    ∧ c.stage ≠ .waiting

/-- A call that has started stays started. -/
theorem started_next {s : Locks} {n : Nat} {c : LockCall}
    (hc : s.calls[n]? = some c) (hstarted : c.stage ≠ .waiting)
    (e : LockEvent) :
    ∃ c', (domainLock.next s e).calls[n]? = some c'
      ∧ c'.domainId = c.domainId ∧ c'.stage ≠ .waiting := by
  obtain ⟨hlt, -⟩ := List.getElem?_eq_some_iff.mp hc
  cases e with
  | call domainId =>
      refine ⟨c, ?_, rfl, hstarted⟩
      show (s.calls ++ _)[n]? = some c
      rwa [List.getElem?_append_left hlt]
  | start k =>
      show ∃ c', (s.startBody k).1.calls[n]? = some c' ∧ _
      unfold Locks.startBody
      cases hk : s.calls[k]? with
      | none => exact ⟨c, hc, rfl, hstarted⟩
      | some d =>
          dsimp only
          split
          · by_cases hkn : k = n
            · subst hkn
              rw [hc] at hk
              obtain rfl := Option.some.inj hk
              rename_i hready
              exact absurd hready.1 hstarted
            · refine ⟨c, ?_, rfl, hstarted⟩
              rwa [List.getElem?_set_ne hkn]
          · exact ⟨c, hc, rfl, hstarted⟩
  | settle k ok =>
      show ∃ c', (s.settleBody k ok).calls[n]? = some c' ∧ _
      unfold Locks.settleBody
      cases hk : s.calls[k]? with
      | none => exact ⟨c, hc, rfl, hstarted⟩
      | some d =>
          dsimp only
          split
          · by_cases hkn : k = n
            · subst hkn
              rw [hc] at hk
              obtain rfl := Option.some.inj hk
              exact ⟨_, List.getElem?_set_self hlt, rfl,
                fun hwait => by cases hwait⟩
            · refine ⟨c, ?_, rfl, hstarted⟩
              rwa [List.getElem?_set_ne hkn]
          · exact ⟨c, hc, rfl, hstarted⟩

/-- A body that starts comes after those of its domain that have. -/
theorem started_step {s : Locks} {past : List (String × Nat)}
    (h : StartedInv s past) (e : LockEvent) :
    (domainLock.answer s e).toList.Pairwise (fun x y => x.1 = y.1 → x.2 < y.2)
      ∧ (∀ x ∈ past, ∀ y ∈ (domainLock.answer s e).toList,
        x.1 = y.1 → x.2 < y.2)
      ∧ StartedInv (domainLock.next s e)
        (past ++ (domainLock.answer s e).toList) := by
  have hnext := h.inv.step e
  have hpast : ∀ x ∈ past, ∃ c,
      (domainLock.next s e).calls[x.2]? = some c ∧ c.domainId = x.1
        ∧ c.stage ≠ .waiting := by
    intro x hx
    obtain ⟨c, hc, hdomain, hstage⟩ := h.past x hx
    obtain ⟨c', hc', hdomain', hstage'⟩ := started_next hc hstage e
    exact ⟨c', hc', hdomain'.trans hdomain, hstage'⟩
  cases hanswer : domainLock.answer s e with
  | none =>
      rw [Option.toList_none, List.append_nil]
      exact ⟨.nil, (fun _ _ _ hy => by cases hy), ⟨hnext, hpast⟩⟩
  | some body =>
      obtain ⟨d, k⟩ := body
      rw [Option.toList_some]
      cases e with
      | call domainId => cases hanswer
      | settle n ok => cases hanswer
      | start n =>
          obtain ⟨rfl, c, hc, hdomain, hwaiting, hbefore, hrunning⟩ :=
            h.inv.of_startBody hanswer
          refine ⟨List.pairwise_singleton _ _, fun x hx y hy hsame => ?_,
            ⟨hnext, fun x hx => ?_⟩⟩
          · obtain rfl := List.mem_singleton.mp hy
            obtain ⟨b, hb, hbdomain, hstage⟩ := h.past x hx
            rcases Nat.lt_trichotomy x.2 k with hlt | heq | hgt
            · exact hlt
            · rw [heq, hc] at hb
              exact absurd (Option.some.inj hb ▸ hwaiting) hstage
            · -- one that started later has this one behind it
              have hover := h.inv.ordered x.2 b hb hstage k c hgt hc
                (hdomain.trans (hsame.symm.trans hbdomain.symm))
              exact absurd hover (not_over_waiting hwaiting)
          · rcases List.mem_append.mp hx with hx | hx
            · exact hpast x hx
            · obtain rfl := List.mem_singleton.mp hx
              exact ⟨_, hrunning, hdomain, fun hwait => by cases hwait⟩

/-- However calls, their turns and the ends of their bodies interleave, the
lock runs one body for a domain at a time and in call order, blocks no
domain after a body that threw, and keeps no entry for a domain whose calls
have settled. -/
theorem withDomainLock_serializes (events : List LockEvent) :
    Serializes events := by
  have hinv : ∀ s ∈ domainLock.states Locks.fresh events, Inv s :=
    Machine.forall_mem_states (fun _ e h => h.step e) inv_fresh events
  exact {
    exclusive := fun s hs i j c d hi hj hsame hc hd =>
      (hinv s hs).eq_of_running hi hj hsame hc hd
    inOrder := (Machine.pairwise_keys (P := StartedInv) Option.toList
      (fun _ e _ h => started_step h e)
      ⟨inv_fresh, fun _ hx => by cases hx⟩ .nil events)
    free := fun s hs n c hc hwaiting hbefore =>
      (hinv s hs).startBody_eq hc hwaiting hbefore
    live := fun s hs n c hc hnot => (hinv s hs).exists_first hc hnot
    clean := fun s hs _ hall => (hinv s hs).lookup_eq_none hall }

/-- A body that throws lets the next one in, and the last one takes the
entry away. -/
example : (domainLock.run Locks.fresh
      [.call "d", .call "d", .start 0, .start 1, .settle 0 false, .start 1,
        .settle 1 true]).domainLocks = []
    ∧ started Locks.fresh
      [.call "d", .call "d", .start 0, .start 1, .settle 0 false, .start 1,
        .settle 1 true] = [("d", 0), ("d", 1)] := by decide

end Yunpanel.Certificates
