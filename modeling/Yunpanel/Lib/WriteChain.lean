/-
A store kept in memory and written to one file through a chain of writes.

# The pattern

An operation runs its synchronous part against memory, and where that
changed something it appends a snapshot of memory to a chain of writes and
waits. Writes go to the file one at a time, in the order of the snapshots.
The chain is a promise chain without a handler: once a write fails, every
later link fails too, without touching the file.

`Effect` is what a synchronous part can do, `Store.call` runs one, and
`Store.settle` is the environment's step: the write at the head of the
chain succeeds or fails. A caller whose write has settled is answered from
memory as it is by then, which other calls may have moved on.

# What holds

The k-th
write that lands puts into the file the k-th snapshot queued (`file_run`);
a broken chain stays broken and its file frozen (`landed_of_broken`); an
unbroken one whose memory was never left dirty will, once drained, hold in
the file what memory holds (`InStep`).
-/
import Mathlib.Algebra.GroupWithZero.Nat
import Yunpanel.Lib.Machine

namespace Lib

universe u v w

-- ====== effects

/-- What the synchronous part of an operation does. -/
inductive Effect (σ : Type u) (ε : Type v) (α : Type w) where
  /-- It threw before touching memory. -/
  | refused (e : ε)
  /-- It threw after memory was already changed. -/
  | spoiled (s : σ) (e : ε)
  /-- It returned without writing. -/
  | replied (a : α)
  /-- It left `s` in memory and queued a write of it; once the write has
  settled the caller is told `reply` of the memory of that moment. -/
  | written (s : σ) (reply : σ → Except ε α)

/-- A snapshot on its way to the file, and what its caller is told. -/
structure Pending (σ : Type u) (ε : Type v) (α : Type w) where
  snapshot : σ
  reply : σ → Except ε α

/-- Memory, the file, and the chain of writes between them. -/
structure Store (σ : Type u) (ε : Type v) (α : Type w) where
  mem : σ
  file : σ
  queue : List (Pending σ ε α)
  broken : Bool

/-- What a step tells the caller it concerns. -/
inductive Outcome (ε : Type v) (α : Type w) where
  | rejected (e : ε)
  | resolved (a : α)
  | waiting
  | idle
  deriving DecidableEq, Repr

def Outcome.ofExcept {ε : Type v} {α : Type w} : Except ε α → Outcome ε α
  | .ok a => .resolved a
  | .error e => .rejected e

variable {σ : Type u} {ε : Type v} {α : Type w}

namespace Effect

/-- The memory an operation leaves. -/
def after (s : σ) : Effect σ ε α → σ
  | refused _ => s
  | spoiled t _ => t
  | replied _ => s
  | written t _ => t

@[simp] theorem after_refused (s : σ) (e : ε) :
    (refused e : Effect σ ε α).after s = s := rfl

@[simp] theorem after_spoiled (s t : σ) (e : ε) :
    (spoiled t e : Effect σ ε α).after s = t := rfl

@[simp] theorem after_replied (s : σ) (a : α) :
    (replied a : Effect σ ε α).after s = s := rfl

@[simp] theorem after_written (s t : σ) (r : σ → Except ε α) :
    (written t r : Effect σ ε α).after s = t := rfl

/-- An operation that only looks. -/
def ofResult : Except ε α → Effect σ ε α
  | .ok a => replied a
  | .error e => refused e

@[simp] theorem after_ofResult (s : σ) (r : Except ε α) :
    (ofResult r : Effect σ ε α).after s = s := by
  cases r <;> rfl

theorem ofResult_ne_written (r : Except ε α) (s : σ)
    (reply : σ → Except ε α) : ofResult r ≠ written s reply := by
  cases r <;> exact fun h => nomatch h

/-- It never throws half way through. -/
def Clean : Effect σ ε α → Prop
  | spoiled _ _ => False
  | _ => True

theorem clean_ofResult (r : Except ε α) :
    (ofResult r : Effect σ ε α).Clean := by
  cases r <;> trivial

end Effect

namespace Store

/-- A store just opened on a file. -/
def opened (s : σ) : Store σ ε α :=
  { mem := s, file := s, queue := [], broken := false }

@[simp] theorem opened_mem (s : σ) : (opened s : Store σ ε α).mem = s := rfl

@[simp] theorem opened_file (s : σ) :
    (opened s : Store σ ε α).file = s := rfl

@[simp] theorem opened_queue (s : σ) :
    (opened s : Store σ ε α).queue = [] := rfl

@[simp] theorem opened_broken (s : σ) :
    (opened s : Store σ ε α).broken = false := rfl

-- ====== steps

/-- Run the synchronous part of an operation. -/
def call (c : Store σ ε α) (f : σ → Effect σ ε α) :
    Store σ ε α × Outcome ε α :=
  match f c.mem with
  | .refused e => (c, .rejected e)
  | .spoiled s e => ({ c with mem := s }, .rejected e)
  | .replied a => (c, .resolved a)
  | .written s r =>
      ({ c with mem := s, queue := c.queue ++ [⟨s, r⟩] }, .waiting)

/-- The write at the head of the chain settles: `ok` is whether the file
system took it. -/
def settle (fault : ε) (ok : Bool) (c : Store σ ε α) :
    Store σ ε α × Outcome ε α :=
  match c.queue with
  | [] => (c, .idle)
  | p :: ps =>
      if c.broken || !ok then
        ({ c with queue := ps, broken := true }, .rejected fault)
      else
        ({ c with file := p.snapshot, queue := ps },
          .ofExcept (p.reply c.mem))

/-- An operation called while no write is on its way, and its own write
settled before anything else happens. -/
def perform (fault : ε) (ok : Bool) (c : Store σ ε α)
    (f : σ → Effect σ ε α) : Store σ ε α × Outcome ε α :=
  match c.call f with
  | (c', .waiting) => c'.settle fault ok
  | done => done

/-- The writes at the head of the chain settle one after another. -/
def settles (fault : ε) (oks : List Bool) (c : Store σ ε α) :
    Store σ ε α :=
  oks.foldl (fun c ok => (c.settle fault ok).1) c

/-- An operation called whatever is on its way: the writes before its own
settle as `oks` says, and then its own as `ok` does. -/
def await (fault : ε) (oks : List Bool) (ok : Bool) (c : Store σ ε α)
    (f : σ → Effect σ ε α) : Store σ ε α × Outcome ε α :=
  match c.call f with
  | (c', .waiting) => (c'.settles fault oks).settle fault ok
  | done => done

theorem call_mem (c : Store σ ε α) (f : σ → Effect σ ε α) :
    (c.call f).1.mem = (f c.mem).after c.mem := by
  unfold call
  split <;> simp_all

theorem call_file (c : Store σ ε α) (f : σ → Effect σ ε α) :
    (c.call f).1.file = c.file := by
  unfold call
  split <;> rfl

theorem call_broken (c : Store σ ε α) (f : σ → Effect σ ε α) :
    (c.call f).1.broken = c.broken := by
  unfold call
  split <;> rfl

variable {d : Store σ ε α}

/-- What a call answers depends on memory alone. -/
theorem call_answer_congr {c : Store σ ε α} (h : c.mem = d.mem)
    (f : σ → Effect σ ε α) : (c.call f).2 = (d.call f).2 := by
  unfold call
  rw [h]
  split <;> rfl

theorem length_queue_call_congr {c : Store σ ε α} (h : c.mem = d.mem)
    (hq : c.queue.length = d.queue.length) (f : σ → Effect σ ε α) :
    (c.call f).1.queue.length = (d.call f).1.queue.length := by
  unfold call
  rw [h]
  split <;> simp [hq]

theorem length_queue_settle (fault : ε) (ok : Bool) (c : Store σ ε α) :
    (c.settle fault ok).1.queue.length = c.queue.length - 1 := by
  unfold settle
  split
  · rename_i hnil
    simp [hnil]
  · rename_i p ps hcons
    split <;> simp [hcons]

/-- Whether a write succeeds is never seen in memory. -/
@[simp] theorem settle_mem (fault : ε) (ok : Bool) (c : Store σ ε α) :
    (c.settle fault ok).1.mem = c.mem := by
  unfold settle
  split
  · rfl
  · split <;> rfl

-- ====== invariants

/-- Memory, the file and everything on its way there satisfy `P`. -/
structure Holds (P : σ → Prop) (c : Store σ ε α) : Prop where
  mem : P c.mem
  file : P c.file
  queue : ∀ p ∈ c.queue, P p.snapshot

theorem holds_opened {P : σ → Prop} {s : σ} (h : P s) :
    Holds P (opened s : Store σ ε α) :=
  ⟨h, h, fun p hp => by cases hp⟩

variable {f : σ → Effect σ ε α}

/-- A call keeps what its effect keeps. -/
theorem Holds.call {P : σ → Prop} {c : Store σ ε α} (h : Holds P c)
    (hwritten : ∀ s r, f c.mem = .written s r → P s)
    (hspoiled : ∀ s e, f c.mem = .spoiled s e → P s) :
    Holds P (c.call f).1 := by
  unfold Store.call
  split
  · exact h
  · rename_i s e he
    exact ⟨hspoiled s e he, h.file, h.queue⟩
  · exact h
  · rename_i s r he
    refine ⟨hwritten s r he, h.file, fun p hp => ?_⟩
    rcases List.mem_append.mp hp with hp | hp
    · exact h.queue p hp
    · obtain rfl := List.mem_singleton.mp hp
      exact hwritten s r he

/-- A settling write keeps everything: the file only ever changes to a
snapshot. -/
theorem Holds.settle {P : σ → Prop} {c : Store σ ε α} (h : Holds P c)
    (fault : ε) (ok : Bool) : Holds P (c.settle fault ok).1 := by
  unfold Store.settle
  split
  · exact h
  · rename_i p ps hq
    have hhead : P p.snapshot := h.queue p (by simp [hq])
    have htail : ∀ q ∈ ps, P q.snapshot :=
      fun q hp => h.queue q (by simp [hq, hp])
    split
    · exact ⟨h.mem, h.file, htail⟩
    · exact ⟨h.mem, hhead, htail⟩

/-- The file, the snapshots on their way to it, and memory: each is related
to all that come after it. -/
def Chronological (R : σ → σ → Prop) (c : Store σ ε α) : Prop :=
  (c.file :: c.queue.map Pending.snapshot ++ [c.mem]).Pairwise R

theorem chronological_iff {R : σ → σ → Prop} {c : Store σ ε α} :
    c.Chronological R
      ↔ (c.file :: c.queue.map Pending.snapshot).Pairwise R
        ∧ ∀ s ∈ c.file :: c.queue.map Pending.snapshot, R s c.mem := by
  unfold Chronological
  rw [List.pairwise_append]
  simp

theorem chronological_opened {R : σ → σ → Prop} (hrefl : ∀ s, R s s)
    (s : σ) : (opened s : Store σ ε α).Chronological R := by
  rw [chronological_iff]
  simp [hrefl s]

/-- A call keeps the order where memory moves on along it. -/
theorem Chronological.call {R : σ → σ → Prop} (hrefl : ∀ s, R s s)
    (htrans : ∀ {s t u}, R s t → R t u → R s u) {c : Store σ ε α}
    (h : c.Chronological R) (hf : R c.mem ((f c.mem).after c.mem)) :
    (c.call f).1.Chronological R := by
  rw [chronological_iff] at h
  obtain ⟨hchain, hmem⟩ := h
  unfold Store.call
  cases he : f c.mem with
  | refused e => exact chronological_iff.mpr ⟨hchain, hmem⟩
  | replied a => exact chronological_iff.mpr ⟨hchain, hmem⟩
  | spoiled s e =>
      rw [he] at hf
      exact chronological_iff.mpr
        ⟨hchain, fun t ht => htrans (hmem t ht) hf⟩
  | written s r =>
      rw [he] at hf
      have hlast : ∀ t ∈ c.file :: c.queue.map Pending.snapshot, R t s :=
        fun t ht => htrans (hmem t ht) hf
      have hsnapshots : (c.file :: (c.queue
          ++ [({ snapshot := s, reply := r } : Pending σ ε α)]).map
            Pending.snapshot)
          = (c.file :: c.queue.map Pending.snapshot) ++ [s] := by simp
      apply chronological_iff.mpr
      dsimp only
      rw [hsnapshots]
      constructor
      · rw [List.pairwise_append]
        refine ⟨hchain, List.pairwise_singleton R s, fun t ht u hu => ?_⟩
        rw [List.mem_singleton] at hu
        exact hu ▸ hlast t ht
      · intro t ht
        rcases List.mem_append.mp ht with ht | ht
        · exact hlast t ht
        · rw [List.mem_singleton] at ht
          exact ht ▸ hrefl s

/-- A settling write drops a link of the order, or the file before it. -/
theorem Chronological.settle {R : σ → σ → Prop} {c : Store σ ε α}
    (h : c.Chronological R) (fault : ε) (ok : Bool) :
    (c.settle fault ok).1.Chronological R := by
  unfold Store.settle
  split
  · exact h
  · rename_i p ps hq
    unfold Chronological at h
    rw [hq] at h
    split
    · refine h.sublist ?_
      exact List.Sublist.cons_cons c.file (List.sublist_cons_self _ _)
    · exact h.sublist (List.sublist_cons_self _ _)

/-- All there is comes after the file. -/
theorem Chronological.holds {R : σ → σ → Prop} (hrefl : ∀ s, R s s)
    {c : Store σ ε α} (h : c.Chronological R) : c.Holds (R c.file) := by
  obtain ⟨hchain, hmem⟩ := chronological_iff.mp h
  rw [List.pairwise_cons] at hchain
  refine ⟨hmem c.file List.mem_cons_self, hrefl c.file, fun p hp => ?_⟩
  exact hchain.1 p.snapshot (List.mem_map_of_mem hp)

-- ====== broken chains

/-- On a broken chain a write settles as a failure and the file stays. -/
theorem settle_of_broken (fault : ε) (ok : Bool) {c : Store σ ε α}
    (h : c.broken = true) :
    (c.settle fault ok).1.broken = true
      ∧ (c.settle fault ok).1.file = c.file
      ∧ ∀ a, (c.settle fault ok).2 ≠ .resolved a := by
  unfold settle
  split
  · exact ⟨h, rfl, fun a => by simp⟩
  · simp [h]

/-- A write that fails is told to its caller, changes neither memory nor
the file, and breaks the chain. -/
theorem settle_false (fault : ε) {c : Store σ ε α} (h : c.queue ≠ []) :
    (c.settle fault false).2 = .rejected fault
      ∧ (c.settle fault false).1.mem = c.mem
      ∧ (c.settle fault false).1.file = c.file
      ∧ (c.settle fault false).1.broken = true := by
  unfold settle
  split
  · contradiction
  · simp

-- ====== unbroken chains

/-- The last snapshot on its way to the file is what memory holds; where
none is on its way the file holds it already. -/
def InStep (c : Store σ ε α) : Prop :=
  ((c.queue.map Pending.snapshot).getLast?.getD c.file) = c.mem

theorem inStep_opened (s : σ) : (opened s : Store σ ε α).InStep := rfl

theorem inStep_call {c : Store σ ε α} (h : c.InStep) (hf : (f c.mem).Clean) :
    (c.call f).1.InStep := by
  unfold call
  cases he : f c.mem with
  | refused e => exact h
  | spoiled s e => rw [he] at hf; exact hf.elim
  | replied a => exact h
  | written s r => simp [InStep]

theorem inStep_settle (fault : ε) {c : Store σ ε α} (h : c.InStep)
    (hb : c.broken = false) : (c.settle fault true).1.InStep := by
  unfold settle
  split
  · exact h
  · rename_i p ps hq
    have hmem : (p.snapshot :: ps.map Pending.snapshot).getLast?.getD
        c.file = c.mem := by
      simpa [InStep, hq] using h
    rw [hb]
    cases ps with
    | nil => simpa [InStep] using hmem
    | cons q qs => simpa [InStep, List.getLast?_cons] using hmem

/-- Nothing on its way and nothing lost: the file holds memory. -/
theorem InStep.file_eq_mem {c : Store σ ε α} (h : c.InStep)
    (hq : c.queue = []) : c.file = c.mem := by
  simpa [InStep, hq] using h

end Store

/-- What happens to a store next: a call, or the write at the head of its
chain settling. -/
inductive Move (σ : Type u) (ε : Type v) (α : Type w) where
  | call (f : σ → Effect σ ε α)
  | settle (ok : Bool)

namespace Store

def move (fault : ε) (c : Store σ ε α) :
    Move σ ε α → Store σ ε α × Outcome ε α
  | .call f => c.call f
  | .settle ok => c.settle fault ok

/-- A store under any interleaving of calls and settling writes. -/
def machine (fault : ε) :
    Machine (Store σ ε α) (Move σ ε α) (Outcome ε α) where
  step := Store.move fault

/-- The snapshot a move queues. -/
def queued (c : Store σ ε α) : Move σ ε α → List σ
  | .call f =>
      match f c.mem with
      | .written s _ => [s]
      | _ => []
  | .settle _ => []

/-- One, where the move is a write that reaches the file. -/
def lands (c : Store σ ε α) : Move σ ε α → Nat
  | .call _ => 0
  | .settle ok => if ok && !c.broken && !c.queue.isEmpty then 1 else 0

/-- The snapshots a run queues, in order. -/
def writes (fault : ε) (c : Store σ ε α) (moves : List (Move σ ε α)) :
    List σ :=
  ((machine fault).steps c moves).flatMap fun (c, m) => c.queued m

/-- How many writes of a run reach the file. -/
def landed (fault : ε) (c : Store σ ε α) (moves : List (Move σ ε α)) :
    Nat :=
  (((machine fault).steps c moves).map fun (c, m) => c.lands m).sum

@[simp] theorem next_call (fault : ε) (c : Store σ ε α)
    (f : σ → Effect σ ε α) :
    (machine fault).next c (.call f) = (c.call f).1 := rfl

@[simp] theorem next_settle (fault : ε) (c : Store σ ε α) (ok : Bool) :
    (machine fault).next c (.settle ok) = (c.settle fault ok).1 := rfl

theorem writes_cons (fault : ε) (c : Store σ ε α) (m : Move σ ε α)
    (ms : List (Move σ ε α)) :
    writes fault c (m :: ms)
      = c.queued m ++ writes fault ((machine fault).next c m) ms := rfl

theorem landed_cons (fault : ε) (c : Store σ ε α) (m : Move σ ε α)
    (ms : List (Move σ ε α)) :
    landed fault c (m :: ms)
      = c.lands m + landed fault ((machine fault).next c m) ms := rfl

theorem landed_of_broken (fault : ε) {c : Store σ ε α}
    (h : c.broken = true) (moves : List (Move σ ε α)) :
    landed fault c moves = 0
      ∧ ((machine fault).run c moves).file = c.file
      ∧ ((machine fault).run c moves).broken = true := by
  induction moves generalizing c with
  | nil => exact ⟨rfl, rfl, h⟩
  | cons m ms ih =>
      cases m with
      | call f =>
          obtain ⟨hl, hf, hb⟩ :=
            ih (c := (c.call f).1) ((call_broken c f).trans h)
          refine ⟨?_, hf.trans (call_file c f), hb⟩
          rw [landed_cons, next_call, hl]
          rfl
      | settle ok =>
          obtain ⟨hb, hf, -⟩ := settle_of_broken fault ok h
          obtain ⟨hl, hf', hb'⟩ := ih (c := (c.settle fault ok).1) hb
          refine ⟨?_, hf'.trans hf, hb'⟩
          rw [landed_cons, next_settle, hl]
          simp [lands, h]

/-- The file holds the snapshot that as many writes have brought there as
reached it, counting through what was on its way and what was queued
since. -/
theorem file_run (fault : ε) (c : Store σ ε α)
    (moves : List (Move σ ε α)) :
    (c.file :: c.queue.map Pending.snapshot
        ++ writes fault c moves)[landed fault c moves]?
      = some ((machine fault).run c moves).file := by
  induction moves generalizing c with
  | nil => rfl
  | cons m ms ih =>
      have hrest := ih ((machine fault).next c m)
      rw [Machine.run_cons, writes_cons, landed_cons, ← hrest]
      cases m with
      | call f =>
          rw [next_call, call_file]
          cases he : f c.mem with
          | written s r => simp [Store.call, he, queued, lands]
          | refused e => simp [Store.call, he, queued, lands]
          | spoiled s e => simp [Store.call, he, queued, lands]
          | replied a => simp [Store.call, he, queued, lands]
      | settle ok =>
          rw [next_settle]
          cases hq : c.queue with
          | nil => simp [settle, hq, queued, lands]
          | cons p ps =>
              by_cases hok : c.broken = false ∧ ok = true
              · obtain ⟨hb, rfl⟩ := hok
                rw [Nat.add_comm]
                simp [settle, hq, hb, queued, lands]
              · -- the chain is broken from here on: nothing else lands
                have hbad : (c.broken || !ok) = true := by
                  cases hb : c.broken <;> cases ok <;> simp_all
                have hbroken : (c.settle fault ok).1.broken = true := by
                  simp [settle, hq, hbad]
                have hnone : c.lands (.settle ok) = 0 := by
                  cases hb : c.broken <;> cases ok <;> simp_all [lands]
                rw [(landed_of_broken fault hbroken ms).1, hnone]
                simp [settle, hq, hbad, queued]

-- ====== one call at a time

variable {oks : List Bool}

/-- The last write on the chain, once those before it have settled. -/
theorem settles_of_queue (fault : ε) {c : Store σ ε α}
    {ps : List (Pending σ ε α)} {p : Pending σ ε α}
    (hq : c.queue = ps ++ [p]) (hlen : oks.length = ps.length) :
    (c.settles fault oks).mem = c.mem
      ∧ (c.settles fault oks).queue = [p]
      ∧ (c.settles fault oks).broken = (c.broken || !oks.all id) := by
  induction oks generalizing c ps with
  | nil =>
      obtain rfl := List.eq_nil_of_length_eq_zero hlen.symm
      exact ⟨rfl, hq, by simp [settles]⟩
  | cons ok oks ih =>
      cases ps with
      | nil => cases hlen
      | cons q qs =>
          have hnext : (c.settle fault ok).1.queue = qs ++ [p]
              ∧ (c.settle fault ok).1.broken = (c.broken || !ok) := by
            unfold settle
            rw [hq]
            cases c.broken <;> cases ok <;> simp
          obtain ⟨hmem, hqueue, hbroken⟩ :=
            ih hnext.1 (Nat.succ.inj hlen)
          refine ⟨hmem.trans (settle_mem fault ok c), hqueue, ?_⟩
          rw [settles, List.foldl_cons, ← settles, hbroken, hnext.2,
            List.all_cons, Bool.not_and, Bool.or_assoc]
          rfl

/-- What a call comes to, whatever was on its way before it: its change
stays, and its answer is a rejection as soon as one write failed. -/
theorem await_of_queue (fault : ε) (ok : Bool) {c : Store σ ε α}
    (hlen : oks.length = c.queue.length) (f : σ → Effect σ ε α) :
    (c.await fault oks ok f).1.mem = (f c.mem).after c.mem
      ∧ (c.await fault oks ok f).2 =
        match f c.mem with
        | .refused e => .rejected e
        | .spoiled _ e => .rejected e
        | .replied a => .resolved a
        | .written s r =>
            if c.broken || !oks.all id || !ok then .rejected fault
            else .ofExcept (r s) := by
  unfold await call
  cases f c.mem with
  | refused e => exact ⟨rfl, rfl⟩
  | spoiled s e => exact ⟨rfl, rfl⟩
  | replied a => exact ⟨rfl, rfl⟩
  | written s r =>
      dsimp only
      obtain ⟨hmem, hqueue, hbroken⟩ := settles_of_queue fault
        (c := { c with mem := s, queue := c.queue ++ [⟨s, r⟩] }) rfl hlen
      refine ⟨(settle_mem fault ok _).trans hmem, ?_⟩
      unfold settle
      rw [hqueue, hbroken]
      dsimp only
      by_cases hlost : (c.broken || !oks.all id || !ok) = true
      · rw [if_pos hlost, if_pos hlost]
      · rw [if_neg hlost, if_neg hlost, hmem]

/-- The same where a write may have failed before: none is on its way. -/
theorem perform_of_drained (fault : ε) (ok : Bool) {c : Store σ ε α}
    (h : c.queue = []) (f : σ → Effect σ ε α) :
    c.perform fault ok f =
      match f c.mem with
      | .refused e => (c, .rejected e)
      | .spoiled s e => ({ c with mem := s }, .rejected e)
      | .replied a => (c, .resolved a)
      | .written s r =>
          if c.broken || !ok then
            ({ c with mem := s, broken := true }, .rejected fault)
          else ({ c with mem := s, file := s }, .ofExcept (r s)) := by
  obtain ⟨mem, file, queue, broken⟩ := c
  dsimp only at h
  subst h
  unfold perform call
  cases f mem with
  | refused e => rfl
  | spoiled s e => rfl
  | replied a => rfl
  | written s r => cases broken <;> cases ok <;> rfl

/-- Memory after one call at a time. -/
theorem perform_mem (fault : ε) (ok : Bool) {c : Store σ ε α}
    (h : c.queue = []) (f : σ → Effect σ ε α) :
    (c.perform fault ok f).1.mem = (f c.mem).after c.mem := by
  rw [perform_of_drained fault ok h]
  cases f c.mem with
  | refused e => rfl
  | spoiled s e => rfl
  | replied a => rfl
  | written s r =>
      dsimp only
      split <;> rfl

/-- One call at a time leaves no write on its way. -/
theorem perform_queue (fault : ε) (ok : Bool) {c : Store σ ε α}
    (h : c.queue = []) (f : σ → Effect σ ε α) :
    (c.perform fault ok f).1.queue = [] := by
  rw [perform_of_drained fault ok h]
  cases f c.mem with
  | refused e => exact h
  | spoiled s e => exact h
  | replied a => exact h
  | written s r =>
      dsimp only
      split <;> exact h

end Store

end Lib
