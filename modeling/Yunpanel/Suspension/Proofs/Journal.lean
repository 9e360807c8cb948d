/-
The journal of domain suspensions keeps its operations in order where no
call decides on an outdated copy and no write fails.

# The condition

A transition writes back the copy it has read. Where another call has
changed the operation in between, the decision was about a status the
operation no longer has, and what the other call recorded is overwritten:
`suspended_overwritten` is a run in which a failure replaces a suspension
that took effect. And a write that fails is never forgotten by the chain,
so every later write fails with it. `Careful` excludes these two.

# The proof

`advance_of_decide` says once what a transition does to the record it has
read, and `mutate_written` what is written back. From both, a step of a
careful run changes an operation by a lawful transition (`lawful_next`).
That a rejected call changed nothing is `Protocol.never_both`: a call that
has changed something waits for its write, and on an unfailing desk no
such call is rejected.
-/
import Yunpanel.Suspension.Journal

namespace Yunpanel.Suspension

open Json Lib Lib.Result

-- ====== purpose

/-- The statuses that may follow a status. -/
def Status.next : Status → List Status
  | pending => [suspending, failed]
  | suspending => [suspended, failed]
  | suspended => [resuming]
  | resuming => [resumed, resumeFailed]
  | resumed => []
  | failed => [suspending]
  | resumeFailed => [resuming]

/-- What an operation is about: all that no transition changes. -/
def Record.intent (r : Record) : Record :=
  { r with
    status := .pending
    suspendResult := none
    suspendError := none
    resumeResult := none
    resumeError := none
    updatedAt := r.createdAt }

/-- One operation may follow another: a transition from the status it has,
stamped later, that keeps what was found before. -/
structure Lawful (op op' : Operation) : Prop where
  status : op'.status ∈ op.status.next
  later : op.updatedAt.ms < op'.updatedAt.ms
  suspendResult : op.suspendResult.isSome →
    op'.suspendResult = op.suspendResult
  resumeResult : op.resumeResult.isSome → op'.resumeResult = op.resumeResult
  intent : op'.intent = op.intent

abbrev JournalEvent := Flight.Event JournalCall JournalEnv JournalWorld

/-- A step changes every operation lawfully, or leaves it; after a restart
the operations are those of the file. -/
def ChangesLawfully (f : Flight Journal JournalStage) (e : JournalEvent) :
    Prop :=
  e ≠ .restart → ∀ (i : Nat) (op : Operation),
    f.shared.mem[i]? = some op →
      ∃ op', (journalProtocol.machine.next f e).shared.mem[i]? = some op'
        ∧ (op' = op ∨ Lawful op op')

/-- What a run of the journal is to be: transitions start from the status
the operation has, a rejected call has changed nothing, and writes do not
go on failing. -/
structure Orderly (start : List Operation) (events : List JournalEvent) :
    Prop where
  lawful : ∀ x ∈ journalProtocol.machine.steps (opened start) events,
    ChangesLawfully x.1 x.2
  unchanged : ∀ id e,
    (id, .rejected e) ∈ journalProtocol.notes (opened start) events →
      (id, .changed) ∉ journalProtocol.notes (opened start) events
  writable : ∀ f ∈ journalProtocol.machine.states (opened start) events,
    f.shared.store.broken = false

-- ====== condition

/-- The transition would rewrite the operation. -/
def Request.rewrites (r : Request) (op : Operation) : Bool :=
  match r.decide op with
  | .ok (.rewrite _) => true
  | _ => false

/-- A call is about to rewrite an operation that is no longer as it was
read. -/
def outdated (j : Journal) : JournalStage → Bool
  | .read r (some op) =>
      r.rewrites op && findOperation j.mem op.id.text != some op
  | _ => false

/-- No call rewrites from an outdated copy, and no write fails. -/
def Careful (f : Flight Journal JournalStage) : JournalEvent → Prop
  | .answer id _ => ∀ k ∈ f.stage id, outdated f.shared k = false
  | .world (.settle ok) => ok = true
  | _ => True

instance (f : Flight Journal JournalStage) :
    (e : JournalEvent) → Decidable (Careful f e)
  | .answer id _ =>
      inferInstanceAs (Decidable (∀ k ∈ f.stage id, outdated f.shared k
        = false))
  | .world (.settle ok) => inferInstanceAs (Decidable (ok = true))
  | .start _ => .isTrue trivial
  | .restart => .isTrue trivial

-- ====== transitions

theorem contradiction_eq_none {r : Record} :
    r.contradiction = none ↔
      r.status.suspendedPhase = r.suspendResult.isSome
        ∧ (r.status == .failed) = r.suspendError.isSome
        ∧ (r.status == .resumed) = r.resumeResult.isSome
        ∧ (r.status == .resumeFailed) = r.resumeError.isSome := by
  unfold Record.contradiction
  simp only [bne_iff_ne, ne_eq, ite_not]
  split_ifs <;> simp_all

variable {r : Request} {op : Operation} {u : Record} {now : Int}
  {ops next : List Operation}
  {reply : List Operation → Except Failure Operation}

/-- An operation whose status is not one of a suspension has no suspension
recorded. -/
theorem Operation.suspendResult_eq_none
    (h : op.status.suspendedPhase = false) : op.suspendResult = none := by
  have hcoherent := (contradiction_eq_none.mp op.coherent).1
  rw [h] at hcoherent
  exact Option.not_isSome_iff_eq_none.mp (by rw [← hcoherent]; simp)

theorem Operation.resumeResult_eq_none (h : op.status ≠ .resumed) :
    op.resumeResult = none := by
  have hcoherent := (contradiction_eq_none.mp op.coherent).2.2.1
  have hne : (op.status == .resumed) = false := beq_eq_false_iff_ne.mpr h
  rw [hne] at hcoherent
  exact Option.not_isSome_iff_eq_none.mp (by rw [← hcoherent]; simp)

theorem persistedOperation_eq_ok {r : Record}
    (h : persistedOperation r = .ok op) : op.toRecord = r := by
  unfold persistedOperation at h
  split at h
  · obtain rfl := Except.ok.inj h
    rfl
  · cases h

/-- What a transition makes of the record it has read. -/
structure Advance (r u : Record) : Prop where
  status : u.status ∈ r.status.next
  suspendResult : r.suspendResult.isSome → u.suspendResult = r.suspendResult
  resumeResult : r.resumeResult.isSome → u.resumeResult = r.resumeResult
  intent : u.intent = r.intent

theorem transition_eq_rewrite {wanted : Status} {sources : List Status}
    {e : Failure} {update : Except Failure Record}
    (h : transition wanted sources e update op
      = .ok (.rewrite u)) :
    op.status ≠ wanted ∧ op.status ∈ sources ∧ update = .ok u := by
  unfold transition at h
  by_cases hwanted : op.status = wanted
  · rw [if_pos hwanted] at h
    cases h
  · rw [if_neg hwanted] at h
    by_cases hsource : op.status ∈ sources
    · rw [if_pos hsource, map_eq_ok] at h
      obtain ⟨u', hu', heq⟩ := h
      obtain rfl := Decision.rewrite.inj heq
      exact ⟨hwanted, hsource, hu'⟩
    · rw [if_neg hsource] at h
      cases h

/-- The half of a suspension that has not taken effect records nothing that
could be lost. -/
theorem advance_before (hphase : op.status.suspendedPhase = false)
    (hstatus : u.status ∈ op.status.next) (hintent : u.intent = op.intent) :
    Advance op.toRecord u := by
  have hne : op.status ≠ .resumed := by
    intro h
    rw [h] at hphase
    cases hphase
  refine ⟨hstatus, fun h => ?_, fun h => ?_, hintent⟩
  · rw [op.suspendResult_eq_none hphase] at h
    cases h
  · rw [op.resumeResult_eq_none hne] at h
    cases h

/-- The other half keeps the suspension. -/
theorem advance_after (hne : op.status ≠ .resumed)
    (hstatus : u.status ∈ op.status.next)
    (hsame : u.suspendResult = op.suspendResult)
    (hintent : u.intent = op.intent) : Advance op.toRecord u := by
  refine ⟨hstatus, fun _ => hsame, fun h => ?_, hintent⟩
  rw [op.resumeResult_eq_none hne] at h
  cases h

theorem advance_of_decide (h : r.decide op = .ok (.rewrite u)) :
    Advance op.toRecord u := by
  cases r with
  | markSuspending =>
      obtain ⟨-, hsource, hu⟩ := transition_eq_rewrite h
      obtain rfl := Except.ok.inj hu
      simp only [List.mem_cons, List.not_mem_nil, or_false] at hsource
      rcases hsource with hs | hs
      · exact advance_before (by rw [hs]; rfl) (by rw [hs]; simp [Status.next]) rfl
      · exact advance_before (by rw [hs]; rfl) (by rw [hs]; simp [Status.next]) rfl
  | succeedSuspend hostChanged suspendedAt =>
      obtain ⟨result, -, h⟩ := bind_eq_ok.mp h
      obtain ⟨-, h⟩ := check_bind_eq_ok.mp h
      obtain ⟨-, hsource, hu⟩ := transition_eq_rewrite h
      obtain rfl := Except.ok.inj hu
      have hs : op.status = .suspending := List.mem_singleton.mp hsource
      exact advance_before (by rw [hs]; rfl) (by rw [hs]; simp [Status.next]) rfl
  | failSuspend error =>
      obtain ⟨-, hsource, hu⟩ := transition_eq_rewrite h
      obtain ⟨fault, -, rfl⟩ := map_eq_ok.mp hu
      simp only [List.mem_cons, List.not_mem_nil, or_false] at hsource
      rcases hsource with hs | hs
      · exact advance_before (by rw [hs]; rfl) (by rw [hs]; simp [Status.next]) rfl
      · exact advance_before (by rw [hs]; rfl) (by rw [hs]; simp [Status.next]) rfl
  | markResuming =>
      obtain ⟨-, hsource, hu⟩ := transition_eq_rewrite h
      obtain rfl := Except.ok.inj hu
      simp only [List.mem_cons, List.not_mem_nil, or_false] at hsource
      rcases hsource with hs | hs
      · exact advance_after (by rw [hs]; simp) (by rw [hs]; simp [Status.next])
          rfl rfl
      · exact advance_after (by rw [hs]; simp) (by rw [hs]; simp [Status.next])
          rfl rfl
  | succeedResume hostChanged resumedAt =>
      obtain ⟨result, -, h⟩ := bind_eq_ok.mp h
      obtain ⟨-, h⟩ := check_bind_eq_ok.mp h
      obtain ⟨-, hsource, hu⟩ := transition_eq_rewrite h
      obtain rfl := Except.ok.inj hu
      have hs : op.status = .resuming := List.mem_singleton.mp hsource
      exact advance_after (by rw [hs]; simp) (by rw [hs]; simp [Status.next])
        rfl rfl
  | failResume error =>
      obtain ⟨-, hsource, hu⟩ := transition_eq_rewrite h
      obtain ⟨fault, -, rfl⟩ := map_eq_ok.mp hu
      have hs : op.status = .resuming := List.mem_singleton.mp hsource
      exact advance_after (by rw [hs]; simp) (by rw [hs]; simp [Status.next])
        rfl rfl

-- ====== writes

/-- What `mutate` writes: the update, stamped after the copy it is made of,
in the place of the first operation of that identifier. -/
theorem mutate_written (h : mutate now op u ops = .written next reply) :
    ∃ i old op', locate (fun c => c.id.text == op.id.text) ops = some (i, old)
      ∧ next = ops.set i op'
      ∧ op'.toRecord = { u with updatedAt := ⟨max now (op.updatedAt.ms + 1)⟩ }
      ∧ reply = fun _ => .ok op' := by
  unfold mutate at h
  split at h
  · cases h
  · rename_i i old hlocate
    split at h
    · cases h
    · rename_i updatedAt hinstant
      split at h
      · cases h
      · rename_i op' hop'
        obtain ⟨rfl, rfl⟩ := Effect.written.inj h
        refine ⟨i, old, op', hlocate, rfl, ?_, rfl⟩
        unfold instant at hinstant
        split at hinstant
        · obtain rfl := Except.ok.inj hinstant
          exact persistedOperation_eq_ok hop'
        · cases hinstant

theorem create_written {id : String} {preview : Json}
    (h : create now id preview ops = .written next reply) :
    ∃ op, next = ops ++ [op] ∧ reply = fun _ => .ok op := by
  unfold create at h
  split at h
  · cases h
  · split at h
    · cases h
    · rename_i operation hoperation
      obtain ⟨rfl, rfl⟩ := Effect.written.inj h
      exact ⟨operation, rfl, rfl⟩

variable {read : Option Operation} {j : Journal}
  {f : Flight Journal JournalStage}

theorem request_written (h : r.effect now read ops = .written next reply) :
    ∃ op u, read = some op ∧ r.decide op = .ok (.rewrite u)
      ∧ mutate now op u ops = .written next reply := by
  unfold Request.effect at h
  split at h
  · cases h
  · rename_i op
    split at h
    · cases h
    · cases h
    · rename_i u hu
      exact ⟨op, u, rfl, hu, h⟩

/-- A journal never throws half way through a change. -/
theorem after_mutate (now : Int) (op : Operation) (u : Record)
    (ops : List Operation) :
    (mutate now op u ops).after ops = ops
      ∨ ∃ next reply, mutate now op u ops = .written next reply := by
  unfold mutate
  split
  · exact .inl rfl
  · split
    · exact .inl rfl
    · split
      · exact .inl rfl
      · exact .inr ⟨_, _, rfl⟩

theorem after_create (now : Int) (id : String) (preview : Json)
    (ops : List Operation) :
    (create now id preview ops).after ops = ops
      ∨ ∃ next reply, create now id preview ops = .written next reply := by
  unfold create
  split
  · exact .inl rfl
  · split
    · exact .inl rfl
    · exact .inr ⟨_, _, rfl⟩

theorem after_request (now : Int) (r : Request) (read : Option Operation)
    (ops : List Operation) :
    (r.effect now read ops).after ops = ops
      ∨ ∃ next reply, r.effect now read ops = .written next reply := by
  unfold Request.effect
  split
  · exact .inl rfl
  · split
    · exact .inl rfl
    · exact .inl rfl
    · exact after_mutate ..

/-- What a careful transition writes follows lawfully what it replaces, and
nothing else is changed. -/
theorem lawful_of_request
    (h : r.effect now (some op) ops = .written next reply)
    (hfresh : findOperation ops op.id.text = some op) (i : Nat)
    (old : Operation) (hi : ops[i]? = some old) :
    ∃ new, next[i]? = some new ∧ (new = old ∨ Lawful old new) := by
  obtain ⟨op₀, u, hop, hdecide, hmutate⟩ := request_written h
  obtain rfl := Option.some.inj hop
  obtain ⟨k, found, new, hlocate, rfl, hnew, -⟩ := mutate_written hmutate
  -- what stands where the update goes is the copy that was read
  have hfound : found = op := by
    have hsnd := locate_map_snd (fun c : Operation => c.id.text == op.id.text) ops
    rw [hlocate] at hsnd
    exact Option.some.inj (hsnd.trans hfresh)
  rw [hfound] at hlocate
  have hk := getElem?_of_locate hlocate
  by_cases hik : k = i
  · subst hik
    obtain rfl := Option.some.inj (hk.symm.trans hi)
    have hlt := (List.getElem?_eq_some_iff.mp hk).1
    refine ⟨new, List.getElem?_set_self hlt, .inr ?_⟩
    have hadvance := advance_of_decide hdecide
    refine ⟨?_, ?_, fun hsome => ?_, fun hsome => ?_, ?_⟩
    · rw [hnew]
      exact hadvance.status
    · rw [hnew]
      show _ < max now _
      omega
    · rw [hnew]
      exact hadvance.suspendResult hsome
    · rw [hnew]
      exact hadvance.resumeResult hsome
    · rw [hnew]
      exact hadvance.intent
  · rw [List.getElem?_set_ne hik]
    exact ⟨old, hi, .inl rfl⟩

-- ====== steps

theorem submit_fst (j : Journal) (f : List Operation → JournalEffect) :
    (j.submit f).1 = (j.ask f).1 := by
  unfold Journal.submit
  split
  · rename_i heq
    rw [heq]
  · rename_i heq
    rw [heq]
  · rename_i heq
    rw [heq]

theorem submit_mem (j : Journal) (f : List Operation → JournalEffect) :
    (j.submit f).1.mem = (f j.mem).after j.mem := by
  rw [submit_fst]
  exact Desk.ask_mem j f

/-- A submitted call that has changed something waits for its write; any
other is over. -/
theorem submit_cases (j : Journal) (f : List Operation → JournalEffect) :
    (∃ n, (j.submit f).2 = (some (.saving n), [.changed]))
      ∨ (j.submit f).2.1 = none ∧ JournalNote.changed ∉ (j.submit f).2.2 := by
  unfold Journal.submit
  split
  · exact .inr ⟨rfl, by simp⟩
  · exact .inr ⟨rfl, by simp⟩
  · exact .inl ⟨_, rfl⟩

@[simp] theorem readOperation_fst (j : Journal) (operationId : Json)
    (r : Request) : (j.readOperation operationId r).1 = j := by
  unfold Journal.readOperation
  split <;> rfl

@[simp] theorem collected_fst (j : Journal) (n : Nat) :
    (j.collected n).1 = j := by
  unfold Journal.collected
  split <;> rfl

/-- To read an operation changes nothing; a call that could not is over. -/
theorem readOperation_cases (j : Journal) (operationId : Json)
    (r : Request) :
    (∃ op, (j.readOperation operationId r).2 = (some (.read r op), []))
      ∨ ∃ e, (j.readOperation operationId r).2 = (none, [.rejected e]) := by
  unfold Journal.readOperation
  split
  · exact .inr ⟨_, rfl⟩
  · exact .inl ⟨_, rfl⟩

theorem sturdy_submit (h : j.Sturdy) {f : List Operation → JournalEffect}
    (hf : ∀ next reply, f j.mem = .written next reply →
      ∃ op, reply = fun _ => .ok op) : (j.submit f).1.Sturdy := by
  rw [submit_fst]
  refine h.ask fun next reply hwritten t => ?_
  obtain ⟨op, rfl⟩ := hf next reply hwritten
  exact ⟨op, rfl⟩

theorem request_reply (h : r.effect now read ops = .written next reply) :
    ∃ op, reply = fun _ => .ok op := by
  obtain ⟨op, u, -, -, hmutate⟩ := request_written h
  obtain ⟨-, -, op', -, -, -, hreply⟩ := mutate_written hmutate
  exact ⟨op', hreply⟩

/-- No write fails in a careful run. -/
theorem keeps_sturdy :
    journalProtocol.Keeps Careful Desk.Sturdy fun _ _ => True where
  start f c _ _ := trivial
  resume f id env k hok hstage hshared _ := by
    refine ⟨?_, fun _ _ => trivial, fun _ _ => trivial⟩
    show (f.shared.resume k env).1.Sturdy
    cases k with
    | entered c =>
        cases c with
        | create preview =>
            refine sturdy_submit hshared fun next reply h => ?_
            obtain ⟨op, -, hreply⟩ := create_written h
            exact ⟨op, hreply⟩
        | request operationId r =>
            show (f.shared.readOperation operationId r).1.Sturdy
            rw [readOperation_fst]
            exact hshared
    | read r op =>
        exact sturdy_submit hshared fun next reply h => request_reply h
    | saving n =>
        show (f.shared.collected n).1.Sturdy
        rw [collected_fst]
        exact hshared
  world f x hok hshared := by
    refine ⟨?_, fun _ _ => trivial⟩
    cases x with
    | settle ok =>
        obtain rfl : ok = true := hok
        exact hshared.settle writeFailed
  restart f _ _ := Desk.sturdy_opened _

/-- One segment of a careful run changes operations lawfully. -/
theorem lawful_resume {id : Nat} {k : JournalStage} (env : JournalEnv)
    (hok : Careful f (.answer id env)) (hstage : f.stage id = some k)
    (i : Nat) (op : Operation) (hi : f.shared.mem[i]? = some op) :
    ∃ op', (f.shared.resume k env).1.mem[i]? = some op'
      ∧ (op' = op ∨ Lawful op op') := by
  have hsame : ∃ op', f.shared.mem[i]? = some op'
      ∧ (op' = op ∨ Lawful op op') := ⟨op, hi, .inl rfl⟩
  cases k with
  | entered c =>
      cases c with
      | create preview =>
          show ∃ op', (f.shared.submit _).1.mem[i]? = some op' ∧ _
          rw [submit_mem]
          rcases after_create env.now env.randomUUID preview f.shared.mem
            with h | ⟨next, reply, h⟩
          · rw [h]
            exact hsame
          · rw [h]
            obtain ⟨new, rfl, -⟩ := create_written h
            have hlt := (List.getElem?_eq_some_iff.mp hi).1
            refine ⟨op, ?_, .inl rfl⟩
            show (f.shared.mem ++ [new])[i]? = some op
            rw [List.getElem?_append_left hlt]
            exact hi
      | request operationId r =>
          show ∃ op', (f.shared.readOperation operationId r).1.mem[i]?
            = some op' ∧ _
          rw [readOperation_fst]
          exact hsame
  | read r read =>
      show ∃ op', (f.shared.submit _).1.mem[i]? = some op' ∧ _
      rw [submit_mem]
      rcases after_request env.now r read f.shared.mem
        with h | ⟨next, reply, h⟩
      · rw [h]
        exact hsame
      · rw [h]
        obtain ⟨copy, u, rfl, hdecide, -⟩ := request_written h
        have hfresh := hok (.read r (some copy)) hstage
        have hrewrites : r.rewrites copy = true := by
          simp [Request.rewrites, hdecide]
        have hfound : findOperation f.shared.mem copy.id.text = some copy := by
          simpa [outdated, hrewrites] using hfresh
        exact lawful_of_request h hfound i op hi
  | saving n =>
      show ∃ op', (f.shared.collected n).1.mem[i]? = some op' ∧ _
      rw [collected_fst]
      exact hsame

variable {e : JournalEvent}

theorem lawful_next (hok : Careful f e) : ChangesLawfully f e := by
  intro hrestart i op hi
  cases e with
  | start c => exact ⟨op, hi, .inl rfl⟩
  | answer id env =>
      show ∃ op', (journalProtocol.step f (.answer id env)).1.shared.mem[i]?
        = some op' ∧ _
      cases hstage : f.stage id with
      | none =>
          rw [journalProtocol.step_answer_none env hstage]
          exact ⟨op, hi, .inl rfl⟩
      | some k =>
          rw [journalProtocol.step_answer env hstage]
          exact lawful_resume env hok hstage i op hi
  | world x =>
      cases x with
      | settle ok =>
          refine ⟨op, ?_, .inl rfl⟩
          show (f.shared.settle writeFailed ok).mem[i]? = some op
          rw [Desk.settle_mem]
          exact hi
  | restart => exact absurd rfl hrestart

-- ====== runs

/-- A call that has changed something is, on an unfailing desk, never
rejected. -/
theorem saving_never_rejected (h : j.Sturdy) (k : JournalStage)
    (env : JournalEnv) (hk : (∃ n, k = .saving n)
      ∨ ∃ note ∈ (j.resume k env).2.2, note = .changed) :
    (∀ note ∈ (j.resume k env).2.2, ¬∃ e, note = .rejected e)
      ∧ ∀ k' ∈ (j.resume k env).2.1, ∃ n, k' = .saving n := by
  have hsubmit : ∀ f : List Operation → JournalEffect,
      (∃ note ∈ (j.submit f).2.2, note = JournalNote.changed) →
        (∀ note ∈ (j.submit f).2.2, ¬∃ e, note = .rejected e)
          ∧ ∀ k' ∈ (j.submit f).2.1, ∃ n, k' = .saving n := by
    rintro f ⟨note, hnote, rfl⟩
    rcases submit_cases j f with ⟨n, heq⟩ | ⟨-, hnot⟩
    · rw [heq]
      exact ⟨by simp, by simp⟩
    · exact absurd hnote hnot
  cases k with
  | entered c =>
      rcases hk with ⟨n, hn⟩ | hnote
      · cases hn
      · cases c with
        | create preview => exact hsubmit _ hnote
        | request operationId r =>
            exfalso
            obtain ⟨note, hmem, rfl⟩ := hnote
            have hmem : JournalNote.changed
              ∈ (j.readOperation operationId r).2.2 := hmem
            rcases readOperation_cases j operationId r with ⟨op, heq⟩ | ⟨e, heq⟩
            · rw [heq] at hmem
              simp at hmem
            · rw [heq] at hmem
              simp at hmem
  | read r op =>
      rcases hk with ⟨n, hn⟩ | hnote
      · cases hn
      · exact hsubmit _ hnote
  | saving n =>
      show (∀ note ∈ (j.collected n).2.2, _) ∧ ∀ k' ∈ (j.collected n).2.1, _
      unfold Journal.collected
      cases hcollect : j.collect n with
      | none => exact ⟨by simp, by simp⟩
      | some o =>
          obtain ⟨op, rfl⟩ := h.collect hcollect
          exact ⟨by simp, by simp⟩

/-- A rejected call is over. -/
theorem over_of_rejected (j : Journal) (k : JournalStage) (env : JournalEnv)
    (h : ∃ note ∈ (j.resume k env).2.2, ∃ e, note = .rejected e) :
    (j.resume k env).2.1 = none := by
  obtain ⟨note, hmem, e, rfl⟩ := h
  have hsubmit : ∀ f : List Operation → JournalEffect,
      JournalNote.rejected e ∈ (j.submit f).2.2 → (j.submit f).2.1 = none := by
    intro f hnote
    rcases submit_cases j f with ⟨n, heq⟩ | ⟨hnone, -⟩
    · rw [heq] at hnote
      simp at hnote
    · exact hnone
  cases k with
  | entered c =>
      cases c with
      | create preview => exact hsubmit _ hmem
      | request operationId r =>
          show (j.readOperation operationId r).2.1 = none
          rcases readOperation_cases j operationId r with ⟨op, heq⟩ | ⟨e', heq⟩
          · have hmem : JournalNote.rejected e
              ∈ (j.readOperation operationId r).2.2 := hmem
            rw [heq] at hmem
            simp at hmem
          · rw [heq]
  | read r op => exact hsubmit _ hmem
  | saving n =>
      have hmem : JournalNote.rejected e ∈ (j.collected n).2.2 := hmem
      show (j.collected n).2.1 = none
      unfold Journal.collected at hmem ⊢
      split at hmem <;> simp_all

/-- In every run in which no call rewrites from an outdated copy and no
write fails, the journal is orderly. -/
theorem suspension_journal_stays_orderly (start : List Operation)
    (events : List JournalEvent)
    (h : journalProtocol.machine.Allowed Careful (opened start) events) :
    Orderly start events := by
  have hstart : Protocol.Sound Desk.Sturdy (fun _ _ => True) (opened start) :=
    Protocol.sound_fresh (Desk.sturdy_opened start)
  have hall := Machine.allowed_and_invariant
    (fun _ _ hok hf => Protocol.sound_next keeps_sturdy hok hf) h hstart
  refine ⟨fun x hx => ?_, fun id e hrejected hchanged => ?_, fun f hf => ?_⟩
  · exact lawful_next (Machine.forall_mem_steps_of_allowed h x hx)
  · exact Protocol.never_both (q := fun k => ∃ n, k = .saving n)
      (a := (· = .changed)) (b := fun note => ∃ e, note = .rejected e)
      (fun f _ env k hok _ hmark =>
        saving_never_rejected hok.2.shared k env hmark)
      (fun f _ env k _ _ hnote => over_of_rejected f.shared k env hnote)
      hall hchanged hrejected rfl ⟨e, rfl⟩
  · exact (Machine.forall_mem_states_of_allowed
      (fun _ _ hok hf => Protocol.sound_next keeps_sturdy hok hf) h hstart
      f hf).shared.broken

section Samples

/-- An operation under way. -/
def sampleOperation : Operation where
  id := ⟨"operation-1", by decide⟩
  domainId := ⟨"domain-1", by decide⟩
  serverId := ⟨"server-1", by decide⟩
  primaryDomain := ⟨"example.com", by decide⟩
  domainRevision := ⟨4, by decide⟩
  checksum := ⟨"aaaaaaaaaaaaaaaaaaaaaaaaaaaaaaaaaaaaaaaaaaaaaaaaaaaaaaaaaaaaaaaa",
    Eq.refl true⟩
  previewDigest := ⟨"bbbbbbbbbbbbbbbbbbbbbbbbbbbbbbbbbbbbbbbbbbbbbbbbbbbbbbbbbbbbbbbb",
    Eq.refl true⟩
  confirmation := ⟨"suspend-domain", by decide⟩
  status := .suspending
  suspendResult := none
  suspendError := none
  resumeResult := none
  resumeError := none
  createdAt := ⟨0⟩
  updatedAt := ⟨1⟩
  coherent := rfl

def sampleEnv : JournalEnv := { now := 5, randomUUID := "operation-2" }

def sampleSuccess : JournalCall :=
  .request (.str "operation-1") (.succeedSuspend (.bool true) (some ⟨5⟩))

def sampleFailure : JournalCall :=
  .request (.str "operation-1") (.failSuspend
    (.obj [("code", .str "domain_suspension_failed"),
      ("message", .str "Domain suspension failed")]))

/-- One transition, whose write succeeds. -/
def sampleAlone : List JournalEvent :=
  [.start sampleSuccess, .answer 0 sampleEnv, .answer 0 sampleEnv,
    .world (.settle true), .answer 0 sampleEnv]

theorem suspension_journal_stays_orderly_alone :
    Orderly [sampleOperation] sampleAlone :=
  suspension_journal_stays_orderly [sampleOperation] sampleAlone
    (by decide +kernel)

/-- A success and a failure that were called in one turn. -/
def sampleOverlap : List JournalEvent :=
  [.start sampleSuccess, .start sampleFailure, .answer 0 sampleEnv,
    .answer 1 sampleEnv, .answer 0 sampleEnv]

/-- The statuses an orderly run goes through. -/
theorem Orderly.status {start : List Operation} {events : List JournalEvent}
    (h : Orderly start (events ++ [e])) (hrestart : e ≠ .restart) {i : Nat}
    {s s' : Status}
    (hs : ((journalProtocol.machine.run (opened start) events).shared.mem[i]?).map
      (·.status) = some s) (hs' : ((journalProtocol.machine.next
      (journalProtocol.machine.run (opened start) events) e).shared.mem[i]?).map
        (·.status) = some s') : s' = s ∨ s' ∈ s.next := by
  have hmem : (journalProtocol.machine.run (opened start) events, e)
      ∈ journalProtocol.machine.steps (opened start) (events ++ [e]) :=
    journalProtocol.machine.mem_steps_concat (opened start) events e
  obtain ⟨op, hop, rfl⟩ := Option.map_eq_some_iff.mp hs
  obtain ⟨op', hop', rfl⟩ := Option.map_eq_some_iff.mp hs'
  obtain ⟨new, hnew, hlawful⟩ := h.lawful _ hmem hrestart i op hop
  obtain rfl := Option.some.inj (hnew.symm.trans hop')
  rcases hlawful with rfl | hlawful
  · exact .inl rfl
  · exact .inr hlawful.status

/-- A suspension that took effect is overwritten by the failure of a call
that had read it before, with no write failing. -/
theorem suspended_overwritten :
    ¬Orderly [sampleOperation] (sampleOverlap ++ [.answer 1 sampleEnv]) := by
  intro h
  have hstatus := h.status (fun he => (nomatch he))
    (i := 0) (s := .suspended)
    (by decide +kernel) (by decide +kernel : _ = some Status.failed)
  revert hstatus
  decide

end Samples

end Yunpanel.Suspension
