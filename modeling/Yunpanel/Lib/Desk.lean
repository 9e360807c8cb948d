/-
A store whose callers wait by ticket.

A call in flight cannot be handed the outcome of its write by the step
that settles it: other calls run in between. So a call that has queued a
write gets a ticket, the number of its write counted from when the store
was opened, and the outcomes of settled writes are kept in order for their
callers to collect.
-/
import Yunpanel.Lib.WriteChain

namespace Lib

universe u v w

variable {σ : Type u} {ε : Type v} {α : Type w}

/-- A store, and what its settled writes tell their callers, oldest
first. -/
structure Desk (σ : Type u) (ε : Type v) (α : Type w) where
  store : Store σ ε α
  settled : List (Outcome ε α)

/-- What an operation is answered at once: its result, or a ticket. -/
inductive Asked (ε : Type v) (α : Type w) where
  | told (r : Except ε α)
  | ticket (n : Nat)

/-- What an effect is answered at once, where the next ticket is `n`. -/
def Effect.asked (n : Nat) : Effect σ ε α → Asked ε α
  | refused e => .told (.error e)
  | spoiled _ e => .told (.error e)
  | replied a => .told (.ok a)
  | written _ _ => .ticket n

namespace Desk

def opened (s : σ) : Desk σ ε α := { store := Store.opened s, settled := [] }

/-- What is held in memory. -/
def mem (d : Desk σ ε α) : σ := d.store.mem

/-- What is in the file. -/
def file (d : Desk σ ε α) : σ := d.store.file

@[simp] theorem opened_mem (s : σ) :
    (opened s : Desk σ ε α).mem = s := rfl

@[simp] theorem opened_file (s : σ) :
    (opened s : Desk σ ε α).file = s := rfl

def ask (d : Desk σ ε α) (f : σ → Effect σ ε α) :
    Desk σ ε α × Asked ε α :=
  ({ d with store := (d.store.call f).1 },
    (f d.mem).asked (d.settled.length + d.store.queue.length))

/-- The write at the head of the chain settles. -/
def settle (fault : ε) (ok : Bool) (d : Desk σ ε α) : Desk σ ε α :=
  match d.store.queue with
  | [] => d
  | _ :: _ =>
      { store := (d.store.settle fault ok).1
        settled := d.settled ++ [(d.store.settle fault ok).2] }

/-- As many writes as given settle, and all succeed. -/
def drain (fault : ε) : Nat → Desk σ ε α → Desk σ ε α
  | 0, d => d
  | n + 1, d => drain fault n (d.settle fault true)

/-- What the caller with a ticket is told, once its write has settled. -/
def collect (d : Desk σ ε α) (n : Nat) : Option (Outcome ε α) :=
  d.settled[n]?

theorem ask_mem (d : Desk σ ε α) (f : σ → Effect σ ε α) :
    (d.ask f).1.mem = (f d.mem).after d.mem :=
  Store.call_mem d.store f

@[simp] theorem settle_mem (fault : ε) (ok : Bool) (d : Desk σ ε α) :
    (d.settle fault ok).mem = d.mem := by
  unfold settle
  split
  · rfl
  · exact Store.settle_mem fault ok d.store

/-- Memory, the file and everything on its way there satisfy `P`. -/
def Holds (P : σ → Prop) (d : Desk σ ε α) : Prop := d.store.Holds P

theorem holds_opened {P : σ → Prop} {s : σ} (h : P s) :
    Holds P (opened s : Desk σ ε α) :=
  Store.holds_opened h

variable {d : Desk σ ε α} {f : σ → Effect σ ε α}

/-- An operation keeps what its effect keeps. -/
theorem Holds.ask {P : σ → Prop} (h : d.Holds P)
    (hf : P ((f d.mem).after d.mem)) :
    (d.ask f).1.Holds P := by
  refine Store.Holds.call h (fun s r hs => ?_) (fun s e hs => ?_)
  · have hs' : f d.mem = .written s r := hs
    rw [hs'] at hf
    exact hf
  · have hs' : f d.mem = .spoiled s e := hs
    rw [hs'] at hf
    exact hf

theorem Holds.settle {P : σ → Prop} (h : d.Holds P) (fault : ε) (ok : Bool) :
    (d.settle fault ok).Holds P := by
  unfold Desk.settle
  split
  · exact h
  · exact Store.Holds.settle h fault ok

/-- The file, what is on its way to it, and memory, each related to all
that come after it. -/
def Chronological (R : σ → σ → Prop) (d : Desk σ ε α) : Prop :=
  d.store.Chronological R

theorem chronological_opened {R : σ → σ → Prop} (hrefl : ∀ s, R s s)
    (s : σ) : (opened s : Desk σ ε α).Chronological R :=
  Store.chronological_opened hrefl s

theorem Chronological.ask {R : σ → σ → Prop} (hrefl : ∀ s, R s s)
    (htrans : ∀ {s t u}, R s t → R t u → R s u) (h : d.Chronological R)
    (hf : R d.mem ((f d.mem).after d.mem)) :
    (d.ask f).1.Chronological R :=
  Store.Chronological.call hrefl htrans h hf

theorem Chronological.settle {R : σ → σ → Prop} (h : d.Chronological R)
    (fault : ε) (ok : Bool) :
    (d.settle fault ok).Chronological R := by
  unfold Desk.settle
  split
  · exact h
  · exact Store.Chronological.settle h fault ok

theorem Chronological.holds {R : σ → σ → Prop} (hrefl : ∀ s, R s s)
    (h : d.Chronological R) : d.Holds (R d.file) :=
  Store.Chronological.holds hrefl h

-- ====== unfailing desks

/-- No write has failed, and none that is on its way rejects its caller. -/
structure Sturdy (d : Desk σ ε α) : Prop where
  broken : d.store.broken = false
  queue : ∀ p ∈ d.store.queue, ∀ s, ∃ a, p.reply s = .ok a
  settled : ∀ o ∈ d.settled, ∃ a, o = .resolved a

theorem sturdy_opened (s : σ) : (opened s : Desk σ ε α).Sturdy :=
  ⟨rfl, fun _ hp => (nomatch hp), fun _ ho => (nomatch ho)⟩

/-- An operation keeps a desk unfailing where it rejects no write of its
own. -/
theorem Sturdy.ask (h : d.Sturdy)
    (hf : ∀ s r, f d.mem = .written s r → ∀ t, ∃ a, r t = .ok a) :
    (d.ask f).1.Sturdy := by
  refine ⟨?_, ?_, h.settled⟩
  · exact (Store.call_broken d.store f).trans h.broken
  · intro p hp
    have hmem : f d.store.mem = f d.mem := rfl
    show ∀ s, ∃ a, p.reply s = .ok a
    unfold Desk.ask Store.call at hp
    rw [hmem] at hp
    cases he : f d.mem with
    | refused e => rw [he] at hp; exact h.queue p hp
    | spoiled s e => rw [he] at hp; exact h.queue p hp
    | replied a => rw [he] at hp; exact h.queue p hp
    | written s r =>
        rw [he] at hp
        rcases List.mem_append.mp hp with hp | hp
        · exact h.queue p hp
        · obtain rfl := List.mem_singleton.mp hp
          exact hf s r he

/-- So does a write that succeeds. -/
theorem Sturdy.settle (h : d.Sturdy) (fault : ε) :
    (d.settle fault true).Sturdy := by
  unfold Desk.settle
  cases hq : d.store.queue with
  | nil => exact h
  | cons p ps =>
      dsimp only
      have hstep : d.store.settle fault true
          = ({ d.store with file := p.snapshot, queue := ps },
            .ofExcept (p.reply d.store.mem)) := by
        unfold Store.settle
        simp [hq, h.broken]
      rw [hstep]
      refine ⟨h.broken, fun q hp => h.queue q ?_, fun o ho => ?_⟩
      · rw [hq]
        exact List.mem_cons_of_mem p hp
      · rcases List.mem_append.mp ho with ho | ho
        · exact h.settled o ho
        · obtain rfl := List.mem_singleton.mp ho
          obtain ⟨a, ha⟩ := h.queue p (by simp [hq]) d.store.mem
          exact ⟨a, congrArg Outcome.ofExcept ha⟩

@[simp] theorem drain_mem (fault : ε) (n : Nat) (d : Desk σ ε α) :
    (d.drain fault n).mem = d.mem := by
  induction n generalizing d with
  | zero => rfl
  | succ n ih =>
      show ((d.settle fault true).drain fault n).mem = d.mem
      rw [ih, settle_mem]

/-- What the writes of an unbroken chain tell their callers. -/
theorem drain_settled (fault : ε) (n : Nat) (h : d.store.broken = false) :
    (d.drain fault n).settled = d.settled
      ++ (d.store.queue.take n).map fun p => .ofExcept (p.reply d.mem) := by
  induction n generalizing d with
  | zero =>
      rw [List.take_zero, List.map_nil, List.append_nil]
      rfl
  | succ n ih =>
      show ((d.settle fault true).drain fault n).settled = _
      cases hq : d.store.queue with
      | nil =>
          have hsame : d.settle fault true = d := by
            unfold Desk.settle
            rw [hq]
          rw [hsame, ih h, hq, List.take_nil, List.take_nil]
      | cons p ps =>
          have hstep : d.settle fault true
              = ⟨{ d.store with file := p.snapshot, queue := ps },
                d.settled ++ [.ofExcept (p.reply d.mem)]⟩ := by
            unfold Desk.settle Store.settle
            simp [hq, h, Desk.mem]
          have hrest := ih (d := ⟨{ d.store with
            file := p.snapshot, queue := ps },
              d.settled ++ [.ofExcept (p.reply d.mem)]⟩) h
          rw [hstep, hrest, List.take_succ_cons, List.map_cons,
            List.append_assoc]
          rfl

/-- A write that was asked for has settled once all that were on their way
have: its caller collects what it replies. -/
theorem collect_drain (fault : ε) (h : d.store.broken = false) {s : σ}
    {r : σ → Except ε α} (hf : f d.mem = .written s r) :
    (((d.ask f).1).drain fault (d.store.queue.length + 1)).collect
        (d.settled.length + d.store.queue.length)
      = some (.ofExcept (r s)) := by
  have hstore : (d.ask f).1
      = { store := { d.store with
            mem := s, queue := d.store.queue ++ [⟨s, r⟩] },
          settled := d.settled } := by
    unfold Desk.ask Store.call
    rw [show f d.store.mem = .written s r from hf]
  rw [hstore]
  unfold Desk.collect
  rw [drain_settled fault _ (by exact h)]
  dsimp only
  rw [List.getElem?_append_right (by omega), List.getElem?_map,
    List.take_of_length_le (by simp)]
  simp [Desk.mem]

/-- A caller that collects is not rejected. -/
theorem Sturdy.collect (h : d.Sturdy) {n : Nat} {o : Outcome ε α}
    (ho : d.collect n = some o) :
    ∃ a, o = .resolved a :=
  h.settled o (List.mem_of_getElem? ho)

end Desk

end Lib
