/-
What the runtime of domains does to the operation it is called with, and
that it leaves the others alone.

# The frame

`Aside id domainId p` is kept by everything: the other operations, the
other domains and the websites are those of `p`. A call that goes through
the journal ends with a request to it, so the operation it returns is the
one the journal holds (`Reports`); these two are proved together, one lemma
for each function, in the order of the source.

# The way through

`Workable` says of an operation that restoring its domain on the host and
committing it in the registry work. From there an operation that is
suspended is resumed: `resume_works`, by the same order of functions.
-/
import Yunpanel.Domains.Proofs.Changes
import Yunpanel.Suspension.Proofs.Journal
import Yunpanel.Suspension.Runtime

namespace Yunpanel.Suspension

open Json Lib Lib.Exec Lib.Result
open Domains (Domain Evidence)

-- ====== requests

theorem Record.same_of_intent {r u : Record} (h : u.intent = r.intent) :
    u.id = r.id ∧ u.domainId = r.domainId := by
  have hid : u.intent.id = r.intent.id := by rw [h]
  have hdomain : u.intent.domainId = r.intent.domainId := by rw [h]
  exact ⟨hid, hdomain⟩

variable {r : Request} {ops : List Operation} {now : Int}

theorem findOperation_id {id : String} {op : Operation}
    (h : findOperation ops id = some op) :
    op.id.text = id := by
  simpa using List.find?_some h

variable {next : List Operation} {read : Option Operation}

/-- A transition that writes puts the operation where the one it has read
is, and leaves its identifiers. -/
theorem effect_written {op : Operation}
    {reply : List Operation → Except Failure Operation}
    (h : r.effect now (some op) ops = .written next reply) :
    ∃ op', (∀ id, findOperation next id
        = if op.id.text = id then some op' else findOperation ops id)
      ∧ reply = (fun _ => .ok op') ∧ op'.domainId = op.domainId := by
  obtain ⟨read, u, hread, hdecide, hmutate⟩ := request_written h
  obtain rfl := Option.some.inj hread
  obtain ⟨i, old, op', hlocate, rfl, hrecord, rfl⟩ := mutate_written hmutate
  have hsame := Record.same_of_intent (advance_of_decide hdecide).intent
  have hid : op'.id.text = op.id.text := by
    have h' : op'.toRecord.id = u.id := by rw [hrecord]
    rw [h', hsame.1]
  have hdomain : op'.domainId = op.domainId := by
    have h' : op'.toRecord.domainId = u.domainId := by rw [hrecord]
    rw [h', hsame.2]
  exact ⟨op', find?_set_located hlocate hid, rfl, hdomain⟩

theorem effect_replied {op : Operation}
    (h : r.effect now read ops = .replied op) : read = some op := by
  unfold Request.effect at h
  split at h
  · cases h
  · split at h
    · cases h
    · obtain rfl := Effect.replied.inj h
      rfl
    · unfold mutate at h
      split at h
      · cases h
      · split at h
        · cases h
        · split at h <;> cases h

theorem effect_not_spoiled {e : Failure} :
    r.effect now read ops ≠ .spoiled next e := by
  unfold Request.effect mutate
  intro h
  split at h
  · cases h
  · split at h
    · cases h
    · cases h
    · split at h
      · cases h
      · split at h
        · cases h
        · split at h <;> cases h

@[simp] theorem getOperation_id (ops : List Operation) (id : SafeId) :
    Suspension.getOperation ops id.json = .ok (findOperation ops id.text) := by
  simp [Suspension.getOperation, safeId, demand]

-- ====== frame

variable {η : Type} {env : Surroundings η}

/-- Apart from one operation and one domain, the panel is as it was. -/
structure Aside (id domainId : String) (p t : Panel η) : Prop where
  websites : t.websites = p.websites
  journal : ∀ other, other ≠ id →
    findOperation t.journal other = findOperation p.journal other
  domains : ∀ other, other ≠ domainId →
    t.domains.find? (fun d => d.id == other)
      = p.domains.find? fun d => d.id == other

namespace Aside

variable {id domainId : String} {p t u : Panel η}

theorem refl (id domainId : String) (p : Panel η) :
    Aside id domainId p p :=
  ⟨rfl, fun _ _ => rfl, fun _ _ => rfl⟩

/-- What no store holds may change. -/
theorem same (h : Aside id domainId p t) (hwebsites : u.websites = t.websites)
    (hjournal : u.journal = t.journal) (hdomains : u.domains = t.domains) :
    Aside id domainId p u where
  websites := hwebsites.trans h.websites
  journal other hne := by rw [hjournal, h.journal other hne]
  domains other hne := by rw [hdomains, h.domains other hne]

end Aside

section Frame

variable {id domainId : String} {p : Panel η}

theorem keeps_dateNow : Keeps (Aside id domainId p) (dateNow env) := by
  refine keeps_bind (keeps_read _) fun _ => keeps_bind ?_ fun _ => ?_
  · exact keeps_modify fun t h => h.same rfl rfl rfl
  · exact keeps_pure _

theorem keeps_persist : Keeps (Aside id domainId p) (persist env) := by
  refine keeps_bind (keeps_read _) fun fate => keeps_bind ?_ fun _ => ?_
  · exact keeps_modify fun t h => h.same rfl rfl rfl
  · cases fate with
    | none => exact keeps_pure _
    | some e => exact keeps_fail e

/-- A write changes no record, whatever comes of it. -/
theorem persist_spec {t : Panel η} (h : Aside id domainId p t) :
    Meets (persist env) t
      (fun _ u => Aside id domainId p u ∧ u.journal = t.journal)
      (fun _ u => Aside id domainId p u) := by
  have hnext : Aside id domainId p t.nextTurn := h.same rfl rfl rfl
  refine meets_read_bind (meets_modify_bind ?_)
  cases env.saved t.turn with
  | none => exact meets_pure ⟨hnext, rfl⟩
  | some e => exact meets_fail hnext

theorem keeps_guarded (code message : String) (x : Exec η Thrown Json) :
    Keeps (Aside id domainId p) (Service.guarded code message x) := by
  refine keeps_attempt (keeps_within fun t _ h => ?_) fun _ => keeps_fail _
  exact h.same rfl rfl rfl

theorem keeps_currentDomain (name : String) :
    Keeps (Aside id domainId p) (Service.currentDomain env name) := by
  refine keeps_bind ?_ fun _ => keeps_ofExcept _
  exact keeps_bind (keeps_read _) fun _ => keeps_ofExcept _

theorem keeps_inspectSuspend (op : Operation) :
    Keeps (Aside id domainId p) (Runtime.inspectSuspend env op) := by
  refine keeps_bind ?_ fun _ => keeps_ite (keeps_pure _) (keeps_fail _)
  refine keeps_bind (keeps_currentDomain _) fun _ => ?_
  refine keeps_bind (keeps_guarded _ _ _) fun _ => ?_
  exact keeps_bind (keeps_ofExcept _) fun _ => keeps_pure _

theorem keeps_inspectResume (op : Operation) :
    Keeps (Aside id domainId p) (Runtime.inspectResume env op) := by
  refine keeps_bind ?_ fun _ => keeps_ite (keeps_pure _) (keeps_fail _)
  refine keeps_bind (keeps_currentDomain _) fun _ => ?_
  refine keeps_bind (keeps_guarded _ _ _) fun _ => ?_
  exact keeps_bind (keeps_ofExcept _) fun _ => keeps_pure _

theorem keeps_suspendAgain (op : Operation) :
    Keeps (Aside id domainId p) (Runtime.suspendAgain env op) := by
  refine keeps_bind (keeps_inspectSuspend op) fun _ => ?_
  refine keeps_ite (keeps_pure _) (keeps_bind (keeps_guarded _ _ _) fun _ => ?_)
  exact keeps_bind (keeps_inspectSuspend op) fun _ =>
    keeps_ite (keeps_pure _) (keeps_fail _)

variable {name : String} {x : Run η Operation}

/-- What a change of one domain leaves of the others. -/
theorem onDomain_written {evidence : Evidence} {now : Instant}
    {domains next : List Domain}
    {reply : List Domain → Except Domains.Failure Domains.Reply}
    (h : Domains.onDomain name (Domains.markResumed evidence now) domains
      = .written next reply) {other : String} (hne : other ≠ name) :
    next.find? (fun d => d.id == other)
      = domains.find? fun d => d.id == other := by
  unfold Domains.onDomain Domains.requireDomain at h
  split at h
  · cases h
  · rename_i i domain hfound
    split at hfound
    · rename_i found hlocate
      obtain rfl := Except.ok.inj hfound
      split at h
      · cases h
      · cases h
      · rename_i new _ hturn
        obtain ⟨rfl, -⟩ := Effect.written.inj h
        have hid : new.id = name := by
          have hsame : new.id = domain.id := by
            cases (Domains.markResumed_turn hturn).1 <;> rfl
          rw [hsame]
          simpa using accepted_of_locate hlocate
        rw [find?_set_located hlocate hid, if_neg (Ne.symm hne)]
    · cases hfound

theorem onDomain_not_spoiled
    {turn : Domain → Except Domains.Failure Domains.Verdict}
    {domains next : List Domain} {e : Domains.Failure} :
    Domains.onDomain name turn domains ≠ .spoiled next e := by
  unfold Domains.onDomain
  intro h
  split at h
  · cases h
  · split at h <;> cases h

theorem keeps_markResumed (evidence : Evidence) :
    Keeps (Aside id domainId p)
      (Service.markResumed env domainId evidence) := by
  refine keeps_bind keeps_dateNow fun now => ?_
  intro t ht
  show wp (_ : Run η Domains.Reply) _ t
  simp only [wp_bind, wp_read]
  cases heffect : Domains.onDomain domainId
      (Domains.markResumed evidence now) t.domains with
  | refused e => exact ht
  | spoiled domains e => exact absurd heffect onDomain_not_spoiled
  | replied reply => exact ht
  | written domains reply =>
      have hset : Aside id domainId p { t with domains } :=
        { websites := ht.websites
          journal := ht.journal
          domains := fun other hne =>
            (onDomain_written heffect hne).trans (ht.domains other hne) }
      exact (keeps_bind keeps_persist fun _ => keeps_ofExcept _) _ hset

theorem keeps_commitResumed (evidence : Evidence) :
    Keeps (Aside id domainId p)
      (Service.commitResumed env domainId evidence) :=
  keeps_attempt (keeps_markResumed evidence) fun _ => keeps_fail _

-- ====== reports

/-- Called anywhere in a call about `op`, the program leaves the rest aside;
what it returns is that operation as the journal has it. -/
def Reports (op : Operation) (p : Panel η) (x : Run η Operation) : Prop :=
  ∀ t, Aside op.id.text op.domainId.text p t →
    Meets x t
      (fun op' u => Aside op.id.text op.domainId.text p u
        ∧ findOperation u.journal op.id.text = some op')
      (fun _ u => Aside op.id.text op.domainId.text p u)

variable {op : Operation}

theorem reports_fail (e : Thrown) : Reports op p (fail e) :=
  fun _ h => meets_fail h

theorem reports_ite {c : Prop} [Decidable c] {y : Run η Operation}
    (hx : Reports op p x) (hy : Reports op p y) :
    Reports op p (if c then x else y) :=
  fun t h => meets_ite (fun _ => hx t h) (fun _ => hy t h)

theorem reports_bind {α : Type} {x : Run η α} {f : α → Run η Operation}
    (hx : Keeps (Aside op.id.text op.domainId.text p) x)
    (hf : ∀ a, Reports op p (f a)) : Reports op p (x >>= f) :=
  fun _ h => (hx.meets h).bind fun a u hu => hf a u hu

theorem reports_attempt {handler : Thrown → Run η Operation}
    (hx : Reports op p x) (hh : ∀ e, Reports op p (handler e)) :
    Reports op p (attempt x handler) :=
  fun t h => (hx t h).attempt fun e u hu => hh e u hu

theorem getOperation_spec (id : SafeId) (t : Panel η)
    (E : Thrown → Panel η → Prop) :
    Meets (Runtime.getOperation id.json) t
      (fun found u => u = t ∧ found = findOperation t.journal id.text) E := by
  have hrun : (Runtime.getOperation id.json : Run η _) t
      = (.ok (findOperation t.journal id.text), t) := by
    show (Except.mapError _ (Suspension.getOperation t.journal id.json), t) = _
    rw [getOperation_id]
    rfl
  unfold Meets
  rw [hrun]
  exact ⟨fun found h => ⟨rfl, (Except.ok.inj h).symm⟩,
    fun _ h => by cases h⟩

theorem dateNow_spec (t : Panel η) (E : Thrown → Panel η → Prop) :
    Meets (dateNow env) t
      (fun now u => u = t.nextTurn ∧ now = ⟨(env.now t.turn).val⟩) E :=
  ⟨fun _ h => ⟨rfl, (Except.ok.inj h).symm⟩, fun _ h => by cases h⟩

/-- A request for an operation of the journal, also of its domain. -/
theorem request_spec (id : SafeId) (r : Request) {t : Panel η}
    (h : Aside id.text domainId p t) :
    Meets (Runtime.request env id.json r) t
      (fun op' u => Aside id.text domainId p u
        ∧ findOperation u.journal id.text = some op'
        ∧ ∃ op, findOperation t.journal id.text = some op
          ∧ op'.domainId = op.domainId)
      (fun _ u => Aside id.text domainId p u) := by
  refine (getOperation_spec id t _).bind ?_
  rintro found u ⟨rfl, rfl⟩
  refine (dateNow_spec u _).bind ?_
  rintro now v ⟨rfl, rfl⟩
  have hnext : Aside id.text domainId p u.nextTurn := h.same rfl rfl rfl
  refine meets_read_bind ?_
  generalize heffect : Request.effect _ r
    (findOperation u.journal id.text) u.nextTurn.journal = effect
  cases effect with
  | refused e => exact meets_fail hnext
  | spoiled journal e => exact absurd heffect effect_not_spoiled
  | replied op =>
      have hfound : findOperation u.journal id.text = some op :=
        effect_replied heffect
      exact meets_pure ⟨hnext, hfound, op, hfound, rfl⟩
  | written journal reply =>
      obtain ⟨op, -, hfound, -, -⟩ := request_written heffect
      rw [hfound] at heffect
      obtain ⟨op', hfind, rfl, hdomain⟩ := effect_written heffect
      have hid : op.id.text = id.text := findOperation_id hfound
      have hset : Aside id.text domainId p
          { u.nextTurn with journal } :=
        { websites := h.websites
          journal := fun other hne => by
            rw [hfind other, if_neg (by rw [hid]; exact Ne.symm hne)]
            exact h.journal other hne
          domains := h.domains }
      refine meets_modify_bind ?_
      refine (persist_spec hset).bind ?_
      rintro _ v ⟨hv, hjournal⟩
      refine meets_ofExcept (fun a ha => ?_) (fun e he => by cases he)
      obtain rfl : op' = a := Except.ok.inj ha
      refine ⟨hv, ?_, op, hfound, hdomain⟩
      rw [hjournal, hfind id.text, if_pos hid]

theorem reports_request (r : Request) :
    Reports op p (Runtime.request env op.id.json r) :=
  fun _ h => (request_spec op.id r h).mono
    (fun _ _ hr => ⟨hr.1, hr.2.1⟩) (fun _ _ he => he)

theorem reports_failResume (e : Thrown) :
    Reports op p (Runtime.failResume env op e) :=
  reports_request _

theorem reports_commitResumed (hostChanged : Bool) :
    Reports op p (Runtime.commitResumed env op hostChanged) := by
  refine reports_bind (keeps_commitResumed _) fun reply => ?_
  split
  · exact reports_ite (reports_fail _) (reports_request _)
  · exact reports_fail _

theorem reports_commitOrCompensate (hostChanged : Bool) :
    Reports op p (Runtime.commitOrCompensate env op hostChanged) := by
  refine reports_attempt (reports_commitResumed _) fun e => ?_
  refine reports_bind ?_ fun _ => reports_failResume e
  exact keeps_attempt (keeps_suspendAgain op) fun _ => keeps_fail _

theorem reports_hostFailed (e : Thrown) :
    Reports op p (Runtime.hostFailed env op e) := by
  refine reports_bind (keeps_caught (keeps_inspectResume op)) fun after => ?_
  cases after with
  | error _ => exact reports_ite (reports_failResume _) (reports_fail _)
  | ok _ =>
      refine reports_ite (reports_commitOrCompensate _) ?_
      exact reports_ite (reports_failResume _) (reports_failResume _)

theorem reports_hostRestored (result : Json) :
    Reports op p (Runtime.hostRestored env op result) := by
  refine reports_bind (keeps_caught (keeps_inspectResume op)) fun after => ?_
  cases after with
  | error _ => exact reports_fail _
  | ok _ =>
      exact reports_ite (reports_failResume _) (reports_commitOrCompensate _)

theorem reports_resumeFrom (found : Service.Inspection) :
    Reports op p (Runtime.resumeFrom env op found) := by
  refine reports_ite (reports_failResume _) ?_
  refine reports_ite (reports_commitResumed _) ?_
  refine reports_ite (reports_failResume _) ?_
  refine reports_ite (reports_failResume _) ?_
  refine reports_bind (keeps_caught (keeps_guarded _ _ _)) fun restored => ?_
  cases restored with
  | error e => exact reports_hostFailed e
  | ok result => exact reports_hostRestored result

theorem reports_resumeMarked :
    Reports op p (Runtime.resumeMarked env op) := by
  refine reports_bind (keeps_caught (keeps_inspectResume op)) fun found => ?_
  cases found with
  | error _ => exact reports_ite (reports_failResume _) (reports_fail _)
  | ok found => exact reports_resumeFrom found

theorem runResume_spec {t : Panel η}
    (hfound : findOperation t.journal op.id.text = some op)
    (h : Aside op.id.text op.domainId.text p t) :
    Meets (Runtime.runResume env op.id.json) t
      (fun op' u => Aside op.id.text op.domainId.text p u
        ∧ findOperation u.journal op.id.text = some op')
      (fun _ u => Aside op.id.text op.domainId.text p u) := by
  refine (getOperation_spec op.id t _).bind ?_
  rintro found u ⟨rfl, rfl⟩
  rw [hfound]
  refine meets_ite (fun _ => meets_pure ⟨h, hfound⟩) fun _ => ?_
  by_cases hstatus : op.status = .resuming
  · rw [Runtime.marked, if_pos hstatus]
    exact reports_resumeMarked u h
  · rw [Runtime.marked, if_neg hstatus]
    refine (request_spec op.id .markResuming h).bind ?_
    rintro marked v ⟨hv, hmarked, old, hold, hdomain⟩
    obtain rfl : op = old := Option.some.inj (hfound.symm.trans hold)
    have hid : marked.id.text = op.id.text := findOperation_id hmarked
    rw [← hid, ← hdomain] at hv ⊢
    exact reports_resumeMarked v hv

/-- An entry only takes an operation of its statuses, and works on that
alone. -/
theorem enter_spec {statuses : List Status}
    {confirmation : Operation → String} {stale : Thrown}
    {input : Runtime.ResumeInput}
    (hinput : input.operationId = op.id.json)
    (hfound : findOperation p.journal op.id.text = some op) :
    Meets (Runtime.enter env statuses confirmation stale input) p
      (fun op' u => op.status ∈ statuses
        ∧ Aside op.id.text op.domainId.text p u
        ∧ findOperation u.journal op.id.text = some op')
      (fun _ u => Aside op.id.text op.domainId.text p u) := by
  have hp : Aside op.id.text op.domainId.text p p := Aside.refl _ _ p
  unfold Runtime.enter
  rw [hinput]
  refine (getOperation_spec op.id p _).bind ?_
  rintro found u ⟨rfl, rfl⟩
  rw [hfound]
  refine meets_ite (fun _ => meets_fail hp) fun _ => ?_
  refine meets_ite (fun _ => meets_fail hp) fun hcurrent => ?_
  have hstatus : op.status ∈ statuses := by
    by_contra hnot
    exact hcurrent (.inl hnot)
  exact (runResume_spec hfound hp).mono
    (fun _ _ hr => ⟨hstatus, hr⟩) (fun _ _ he => he)

/-- `resume` takes a suspended operation. -/
theorem resume_spec {input : Runtime.ResumeInput}
    (hinput : input.operationId = op.id.json)
    (hfound : findOperation p.journal op.id.text = some op) :
    Meets (Runtime.resume env input) p
      (fun op' u => op.status = .suspended
        ∧ Aside op.id.text op.domainId.text p u
        ∧ findOperation u.journal op.id.text = some op')
      (fun _ u => Aside op.id.text op.domainId.text p u) :=
  (enter_spec hinput hfound).mono
    (fun _ _ hr => ⟨List.mem_singleton.mp hr.1, hr.2⟩) (fun _ _ he => he)

end Frame

-- ====== works

section Works

/-- The last millisecond there is. -/
def lastInstant : Int := 8640000000000000

/-- The stores can be written, and time is not over. -/
structure Steady (env : Surroundings η) : Prop where
  saved : ∀ n, env.saved n = none
  now : ∀ n, (env.now n).val < lastInstant

/-- The host answers an inspection, and as `P` says. -/
def Answers (S : η → Prop) (checksum : String)
    (P : Service.HostState → Prop) (x : Exec η Thrown Json) (host : η) :
    Prop :=
  Returns x host fun value host' => S host' ∧ ∃ found,
    Service.normalizeHostResumeInspection value checksum = .ok found
      ∧ P found

/-- Wherever the host gets to, the domain is served. -/
def Served (env : Surroundings η) (S : η → Prop)
    (primaryDomain checksum : String) : Prop :=
  ∀ host, S host → Answers S checksum (fun found => found.satisfied = true)
    (env.nginx.inspectDomainDeactivationRollback primaryDomain checksum) host

/-- Wherever the host gets to, the domain is served, or waits to be
restored, and is served once it is. -/
structure Restorable (env : Surroundings η) (S : η → Prop)
    (primaryDomain checksum : String) : Prop where
  inspected : ∀ host, S host → Answers S checksum
    (fun found => found.satisfied = true
      ∨ found.reason = some Runtime.rollbackPending)
    (env.nginx.inspectDomainDeactivationRollback primaryDomain checksum) host
  restored : ∀ host, S host →
    Returns (env.nginx.rollbackDomainDeactivation primaryDomain checksum) host
      fun _ host' => S host'
        ∧ Answers S checksum (fun found => found.satisfied = true)
          (env.nginx.inspectDomainDeactivationRollback primaryDomain checksum)
          host'

/-- The record of the domain an operation is about. -/
structure Recorded (env : Surroundings η) (domains : List Domain)
    (op : Operation) (domain : Domain) : Prop where
  found : domains.find? (fun d => d.id == op.domainId.text) = some domain
  checked : Domains.hydrateDomain env.net 4 domain = .ok domain
  server : domain.serverId = env.localServerId
  wellFormed : Service.wellFormed domain = true
  primaryDomain : domain.primaryDomain = op.primaryDomain.text

/-- The record has been resumed by the operation. -/
def Committed (op : Operation) (domain : Domain) : Prop :=
  domain.resumedFrom (Runtime.evidence op) = true
    ∧ domain.lastResumedAt ≠ none

/-- The restore of the domain on the host works, and the commit in the
registry does: the record is suspended by the operation, or resumed by it
with the domain served. -/
structure Workable (env : Surroundings η) (S : η → Prop)
    (domains : List Domain) (op : Operation) : Prop where
  stampable : op.updatedAt.ms + 2 ≤ lastInstant
  recorded : ∃ domain, Recorded env domains op domain
    ∧ (domain.suspendedOn (Runtime.evidence op) = true
        ∧ Restorable env S op.primaryDomain.text op.checksum.text
      ∨ Committed op domain
        ∧ Served env S op.primaryDomain.text op.checksum.text)

variable {S : η → Prop} {p : Panel η} {op : Operation} {domain : Domain}

theorem locate_of_findOperation (h : findOperation ops op.id.text = some op) :
    ∃ i, locate (fun c => c.id.text == op.id.text) ops = some (i, op) := by
  unfold findOperation at h
  rw [← locate_map_snd] at h
  obtain ⟨⟨i, found⟩, hlocate, rfl⟩ := Option.map_eq_some_iff.mp h
  exact ⟨i, hlocate⟩

/-- A transition the journal takes is written, with a later stamp. -/
theorem effect_works {u : Record}
    (hfound : findOperation ops op.id.text = some op)
    (hdecide : r.decide op = .ok (.rewrite u))
    (hcoherent : u.contradiction = none) (hnow : 0 ≤ now)
    (hlast : now < lastInstant) (hstamp : op.updatedAt.ms < lastInstant) :
    ∃ next op', r.effect now (some op) ops
        = .written next (fun _ => .ok op')
      ∧ findOperation next op.id.text = some op'
      ∧ op'.toRecord
        = { u with updatedAt := ⟨max now (op.updatedAt.ms + 1)⟩ } := by
  obtain ⟨i, hlocate⟩ := locate_of_findOperation hfound
  have hinstant : instant (max now (op.updatedAt.ms + 1))
      = .ok ⟨max now (op.updatedAt.ms + 1)⟩ := by
    unfold lastInstant at hlast hstamp
    exact if_pos (by omega)
  let stamped : Record :=
    { u with updatedAt := ⟨max now (op.updatedAt.ms + 1)⟩ }
  let next : Operation := { stamped with coherent := hcoherent }
  have hpersisted : persistedOperation stamped = .ok next := by
    unfold persistedOperation
    split
    · rfl
    · rename_i message h
      have hnone : stamped.contradiction = none := hcoherent
      rw [hnone] at h
      cases h
  have heffect : r.effect now (some op) ops
      = .written (ops.set i next) (fun _ => .ok next) := by
    simp only [Request.effect, hdecide, mutate, hlocate, hinstant]
    rw [show persistedOperation
      { u with updatedAt := ⟨max now (op.updatedAt.ms + 1)⟩ } = .ok next
      from hpersisted]
  obtain ⟨op', hfind, hreply, -⟩ := effect_written heffect
  obtain rfl : next = op' := Except.ok.inj (congrFun hreply [])
  exact ⟨_, next, heffect, by rw [hfind, if_pos rfl], rfl⟩

/-- Nothing is wrong with the writes, so the request is served. -/
theorem request_works (henv : Steady env) {u : Record}
    (hfound : findOperation p.journal op.id.text = some op)
    (hdecide : r.decide op = .ok (.rewrite u))
    (hcoherent : u.contradiction = none)
    (hstamp : op.updatedAt.ms < lastInstant) :
    Returns (Runtime.request env op.id.json r) p fun op' t =>
      (∃ now, now < lastInstant ∧ op'.toRecord
        = { u with updatedAt := ⟨max now (op.updatedAt.ms + 1)⟩ })
      ∧ findOperation t.journal op.id.text = some op'
      ∧ t.domains = p.domains ∧ t.host = p.host := by
  have hnow := (env.now p.turn).ok.1
  obtain ⟨next, op', heffect, hfind, hrecord⟩ := effect_works hfound hdecide
    hcoherent hnow (henv.now p.turn) hstamp
  have hread : (Suspension.getOperation p.journal op.id.json).mapError
      Thrown.ofFailure = .ok (some op) := by
    rw [getOperation_id, hfound]
    rfl
  refine Returns.bind (R := fun found t => found = some op ∧ t = p)
    ⟨some op, hread, rfl, rfl⟩ ?_
  rintro found t ⟨rfl, rfl⟩
  refine Returns.bind (R := fun now u => now = ⟨(env.now t.turn).val⟩
    ∧ u = t.nextTurn) ⟨_, rfl, rfl, rfl⟩ ?_
  rintro now u ⟨rfl, rfl⟩
  refine returns_read_bind ?_
  have heffect' : r.effect (env.now t.turn).val (some op)
      t.nextTurn.journal = .written next (fun _ => .ok op') := heffect
  dsimp only
  rw [heffect']
  refine returns_modify_bind ?_
  refine Returns.bind (R := fun _ v => v.journal = next
    ∧ v.domains = t.domains ∧ v.host = t.host) ?_ ?_
  · refine returns_read_bind (returns_modify_bind ?_)
    rw [show env.saved _ = none from henv.saved _]
    exact returns_pure ⟨rfl, rfl, rfl⟩
  · rintro _ v ⟨hjournal, hdomains, hhost⟩
    exact returns_ofExcept rfl
      ⟨⟨_, henv.now t.turn, hrecord⟩, by rw [hjournal, hfind], hdomains,
        hhost⟩

/-- The record of the domain is found. -/
theorem currentDomain_works (h : Recorded env p.domains op domain) :
    Returns (Service.currentDomain env op.domainId.text) p
      fun found t => found = domain ∧ t = p := by
  have hget : (Domains.getDomain env.net op.domainId.text p.domains).mapError
      Thrown.ofDomains = .ok (some (Domains.publicDomain domain)) := by
    unfold Domains.getDomain
    rw [h.found]
    dsimp only
    rw [h.checked]
    rfl
  have hlocal : Service.localDomain env.localServerId
      (some (Domains.publicDomain domain)) = .ok domain := by
    simp [Service.localDomain, Domains.publicDomain, h.server, h.wellFormed]
  refine Returns.bind (R := fun found t =>
    found = some (Domains.publicDomain domain) ∧ t = p)
    ⟨_, hget, rfl, rfl⟩ ?_
  rintro found t ⟨rfl, rfl⟩
  exact returns_ofExcept hlocal ⟨rfl, rfl⟩

/-- A call of the host that returns, seen from the panel. -/
theorem guarded_works {code message : String} {x : Exec η Thrown Json}
    {R : Json → η → Prop} (h : Returns x p.host R) :
    Returns (Service.guarded code message x) p
      fun value t => R value t.host ∧ t = { p with host := t.host } :=
  Returns.attempt (returns_within
    (h.mono fun _ _ hR => ⟨hR, rfl⟩))

theorem inspectResume_works {P : Service.HostState → Prop}
    (h : Recorded env p.domains op domain)
    (hanswers : Answers S op.checksum.text P
      (env.nginx.inspectDomainDeactivationRollback op.primaryDomain.text
        op.checksum.text) p.host) :
    Returns (Runtime.inspectResume env op) p fun found t =>
      found.controlPlane
          = Service.controlPlaneSuspendState domain (Runtime.evidence op)
        ∧ P found.host ∧ S t.host ∧ t = { p with host := t.host } := by
  have hid : domain.id = op.domainId.text := by
    simpa using List.find?_some h.found
  refine Returns.bind (R := fun inspection t =>
      Runtime.shaped op inspection = true
        ∧ inspection.controlPlane
          = Service.controlPlaneSuspendState domain (Runtime.evidence op)
        ∧ P inspection.host ∧ S t.host ∧ t = { p with host := t.host }) ?_ ?_
  · refine (currentDomain_works h).bind ?_
    rintro found t ⟨rfl, rfl⟩
    rw [h.primaryDomain]
    refine (guarded_works hanswers).bind ?_
    rintro value u ⟨⟨hS, host, hnormal, hP⟩, hu⟩
    have hchecksum : host.checksum = op.checksum.text := by
      unfold Service.normalizeHostResumeInspection at hnormal
      dsimp only at hnormal
      split at hnormal
      · split at hnormal
        · obtain rfl := Except.ok.inj hnormal
          rfl
        · cases hnormal
      · cases hnormal
    refine Returns.bind (R := fun found v => found = host ∧ v = u)
      (returns_ofExcept hnormal ⟨rfl, rfl⟩) ?_
    rintro _ v ⟨rfl, rfl⟩
    refine returns_pure ⟨?_, rfl, hP, hS, hu⟩
    simp [Runtime.shaped, Runtime.evidence, hid, hchecksum]
  · rintro inspection t ⟨hshaped, hrest⟩
    rw [if_pos hshaped]
    exact returns_pure hrest

theorem suspended_of_suspendedOn {evidence : Evidence}
    (h : domain.suspendedOn evidence = true) :
    Service.controlPlaneSuspendState domain evidence = .suspended := by
  simp only [Domain.suspendedOn, Bool.and_eq_true, beq_iff_eq] at h
  obtain ⟨⟨⟨hstate, hserves⟩, hchecksum⟩, hid⟩ := h
  unfold Service.controlPlaneSuspendState
  exact if_pos ⟨hstate, hid, hchecksum, hserves⟩

theorem resumed_of_resumedFrom {evidence : Evidence}
    (h : domain.resumedFrom evidence = true) :
    Service.controlPlaneSuspendState domain evidence = .resumed := by
  simp only [Domain.resumedFrom, Bool.and_eq_true, beq_iff_eq] at h
  obtain ⟨⟨⟨⟨⟨hstate, -⟩, -⟩, -⟩, hid⟩, hserves⟩ := h
  unfold Service.controlPlaneSuspendState
  rw [if_neg (by rw [hstate]; simp), if_pos ⟨hstate, hid, hserves⟩]

/-- What the registry makes of the record when it takes the commit. -/
theorem markResumed_turn_works (now : Instant)
    (hcommit : domain.suspendedOn (Runtime.evidence op) = true
      ∨ Committed op domain) :
    ∃ next, (Domains.markResumed (Runtime.evidence op) now domain
          = Domains.change next
        ∨ next = domain ∧ Domains.markResumed (Runtime.evidence op) now domain
          = Domains.answer next)
      ∧ next.id = domain.id ∧ next.state = .active
      ∧ next.lastSuspensionOperationId = some op.id.text
      ∧ next.lastResumedAt ≠ none := by
  have hsum : Domains.suspensionChecksum (Runtime.evidence op).checksum
      = .ok op.checksum.text := if_pos op.checksum.ok
  have hid : Domains.suspensionOperationId (Runtime.evidence op).operationId
      = .ok op.id.text := if_pos op.id.ok
  rcases hcommit with hsuspended | ⟨hresumed, hat⟩
  · have hstate : domain.state = .suspended :=
      Domains.suspendedOn_state hsuspended
    have hnot : domain.resumedFrom (Runtime.evidence op) = false := by
      simp [Domain.resumedFrom, hstate]
    refine ⟨domain.resumed (Runtime.evidence op) now, .inl ?_, rfl, rfl, rfl,
      Option.some_ne_none _⟩
    simp [Domains.markResumed, hsum, hid, hnot, hsuspended]
  · have hfields := hresumed
    simp only [Domain.resumedFrom, Bool.and_eq_true, beq_iff_eq] at hfields
    obtain ⟨⟨⟨⟨⟨hstate, -⟩, -⟩, -⟩, hlast⟩, -⟩ := hfields
    refine ⟨domain, .inr ⟨rfl, ?_⟩, rfl, hstate, hlast, hat⟩
    simp [Domains.markResumed, hsum, hid, hresumed]

/-- The registry takes the commit of an operation its record is suspended
by. -/
theorem markResumed_works (henv : Steady env)
    (h : Recorded env p.domains op domain)
    (hcommit : domain.suspendedOn (Runtime.evidence op) = true
      ∨ Committed op domain) :
    Returns (Service.commitResumed env op.domainId.text
      (Runtime.evidence op)) p fun reply t =>
        (∃ next kind diagnosis, reply = .domain ⟨next, kind, diagnosis⟩
          ∧ next.state = .active
          ∧ next.lastSuspensionOperationId = some op.id.text
          ∧ next.lastResumedAt ≠ none)
        ∧ t.journal = p.journal ∧ t.host = p.host := by
  refine Returns.attempt ?_
  refine Returns.bind (R := fun now t => now = ⟨(env.now p.turn).val⟩
    ∧ t = p.nextTurn) ⟨_, rfl, rfl, rfl⟩ ?_
  rintro now t ⟨rfl, rfl⟩
  refine returns_read_bind ?_
  obtain ⟨i, hlocate⟩ : ∃ i, locate (fun d => d.id == op.domainId.text)
      p.domains = some (i, domain) := by
    have hfound := h.found
    rw [← locate_map_snd] at hfound
    obtain ⟨⟨i, d⟩, hlocate, rfl⟩ := Option.map_eq_some_iff.mp hfound
    exact ⟨i, hlocate⟩
  have hid : domain.id = op.domainId.text := by
    simpa using accepted_of_locate hlocate
  have hrequire : Domains.requireDomain p.domains op.domainId.text
      = .ok (i, domain) := by
    unfold Domains.requireDomain
    rw [hlocate]
  obtain ⟨next, hturn, hnext, hstate, hlast, hat⟩ :=
    markResumed_turn_works ⟨(env.now p.turn).val⟩ hcommit
  rcases hturn with hturn | ⟨rfl, hturn⟩
  · have heffect : Domains.onDomain op.domainId.text (Domains.markResumed
        (Runtime.evidence op) ⟨(env.now p.turn).val⟩) p.nextTurn.domains
        = .written (p.domains.set i next) (fun domains => .ok (.domain
          (Domains.publicDomain (Domains.current next domains)))) := by
      show Domains.onDomain _ _ p.domains = _
      unfold Domains.onDomain
      rw [hrequire]
      dsimp only
      rw [hturn]
      rfl
    have hcurrent : Domains.current next (p.domains.set i next) = next := by
      unfold Domains.current
      rw [find?_set_located hlocate (hnext.trans hid), hnext, hid,
        if_pos rfl]
      rfl
    rw [heffect]
    refine returns_modify_bind ?_
    refine Returns.bind (R := fun _ t => t.journal = p.journal
      ∧ t.host = p.host) ?_ ?_
    · refine returns_read_bind (returns_modify_bind ?_)
      rw [show env.saved _ = none from henv.saved _]
      exact returns_pure ⟨rfl, rfl⟩
    · rintro _ t ht
      dsimp only
      rw [hcurrent]
      exact returns_ofExcept rfl ⟨⟨next, _, _, rfl, hstate, hlast, hat⟩, ht⟩
  · have heffect : Domains.onDomain op.domainId.text (Domains.markResumed
        (Runtime.evidence op) ⟨(env.now p.turn).val⟩) p.nextTurn.domains
        = .replied (.domain (Domains.publicDomain next)) := by
      show Domains.onDomain _ _ p.domains = _
      unfold Domains.onDomain
      rw [hrequire]
      dsimp only
      rw [hturn]
      rfl
    rw [heffect]
    exact returns_pure ⟨⟨next, _, _, rfl, hstate, hlast, hat⟩, rfl, rfl⟩

theorem contradiction_resuming (hstatus : op.status = .suspended) :
    Record.contradiction { op.toRecord with
      status := .resuming
      resumeResult := none
      resumeError := none } = none := by
  have hop := contradiction_eq_none.mp op.coherent
  rw [hstatus] at hop
  exact contradiction_eq_none.mpr ⟨hop.1, hop.2.1, rfl, rfl⟩

theorem contradiction_resumed (hstatus : op.status = .resuming)
    (result : ResumeResult) :
    Record.contradiction { op.toRecord with
      status := .resumed
      resumeResult := some result
      resumeError := none } = none := by
  have hop := contradiction_eq_none.mp op.coherent
  rw [hstatus] at hop
  exact contradiction_eq_none.mpr ⟨hop.1, hop.2.1, rfl, rfl⟩

/-- An operation that is being resumed is committed. -/
theorem commitResumed_works (henv : Steady env) (hostChanged : Bool)
    (h : Recorded env p.domains op domain)
    (hcommit : domain.suspendedOn (Runtime.evidence op) = true
      ∨ Committed op domain)
    (hfound : findOperation p.journal op.id.text = some op)
    (hstatus : op.status = .resuming)
    (hstamp : op.updatedAt.ms < lastInstant) :
    Returns (Runtime.commitResumed env op hostChanged) p
      fun op' t => op'.status = .resumed ∧ t.host = p.host := by
  refine (markResumed_works henv h hcommit).bind ?_
  rintro _ t ⟨⟨next, kind, diagnosis, rfl, hstate, hlast, hat⟩, hjournal,
    hhost⟩
  obtain ⟨at_, hat'⟩ := Option.ne_none_iff_exists'.mp hat
  dsimp only
  rw [if_neg (by simp [hstate, hlast, hat']), hat']
  have hdecide : (Request.succeedResume (.bool hostChanged)
      (some at_)).decide op = .ok (.rewrite { op.toRecord with
        status := .resumed
        resumeResult := some ⟨hostChanged, at_⟩
        resumeError := none }) := by
    simp [Request.decide, succeedResume, resumeResult, demand, ensure,
      transition, hstatus, Except.map]
  rw [← hjournal] at hfound
  refine (request_works henv hfound hdecide
    (contradiction_resumed hstatus _) hstamp).mono ?_
  rintro op' u ⟨⟨now, -, hrecord⟩, -, -, hhost'⟩
  refine ⟨?_, hhost'.trans hhost⟩
  show op'.toRecord.status = _
  rw [hrecord]

/-- Nginx said it was restored, and it was. -/
theorem hostRestored_works (henv : Steady env) (result : Json)
    (h : Recorded env p.domains op domain)
    (hsuspended : domain.suspendedOn (Runtime.evidence op) = true)
    (hanswers : Answers S op.checksum.text
      (fun found => found.satisfied = true)
      (env.nginx.inspectDomainDeactivationRollback op.primaryDomain.text
        op.checksum.text) p.host)
    (hfound : findOperation p.journal op.id.text = some op)
    (hstatus : op.status = .resuming)
    (hstamp : op.updatedAt.ms < lastInstant) :
    Returns (Runtime.hostRestored env op result) p
      fun op' t => op'.status = .resumed ∧ S t.host := by
  refine (inspectResume_works h hanswers).caught.bind ?_
  rintro _ t ⟨after, rfl, hplane, hsatisfied, hS, ht⟩
  rw [suspended_of_suspendedOn hsuspended] at hplane
  dsimp only
  rw [if_neg (by simp [hsatisfied, hplane])]
  have hdomains : t.domains = p.domains := by rw [ht]
  have hjournal : t.journal = p.journal := by rw [ht]
  rw [← hdomains] at h
  rw [← hjournal] at hfound
  refine Returns.attempt ((commitResumed_works henv _ h (.inl hsuspended)
    hfound hstatus hstamp).mono ?_)
  rintro op' u ⟨hresumed, hhost⟩
  rw [hhost]
  exact ⟨hresumed, hS⟩

/-- From what the inspection found, the operation is resumed. -/
theorem resumeFrom_works (henv : Steady env) {found : Service.Inspection}
    (h : Recorded env p.domains op domain)
    (hcase : domain.suspendedOn (Runtime.evidence op) = true
        ∧ found.controlPlane = .suspended
        ∧ Restorable env S op.primaryDomain.text op.checksum.text
        ∧ (found.host.satisfied = true
          ∨ found.host.reason = some Runtime.rollbackPending)
      ∨ Committed op domain ∧ found.controlPlane = .resumed
        ∧ found.host.satisfied = true)
    (hS : S p.host) (hfound : findOperation p.journal op.id.text = some op)
    (hstatus : op.status = .resuming)
    (hstamp : op.updatedAt.ms < lastInstant) :
    Returns (Runtime.resumeFrom env op found) p
      fun op' t => op'.status = .resumed ∧ S t.host := by
  have hcommit : domain.suspendedOn (Runtime.evidence op) = true
      ∨ Committed op domain := hcase.imp (fun hc => hc.1) (fun hc => hc.1)
  have hplane : ¬(found.controlPlane = .drift
      ∨ found.controlPlane = .active) := by
    rcases hcase with ⟨-, hplane, -⟩ | ⟨-, hplane, -⟩ <;> simp [hplane]
  unfold Runtime.resumeFrom
  rw [if_neg hplane]
  by_cases hsatisfied : found.host.satisfied = true
  · rw [if_pos hsatisfied]
    refine (commitResumed_works henv _ h hcommit hfound hstatus
      hstamp).mono ?_
    rintro op' t ⟨hresumed, hhost⟩
    rw [hhost]
    exact ⟨hresumed, hS⟩
  · obtain ⟨hsuspended, hplane, hrestorable, hhost⟩ :=
      hcase.resolve_right fun hc => hsatisfied hc.2.2
    have hpending := hhost.resolve_left hsatisfied
    rw [if_neg hsatisfied, if_neg (by simp [hplane]),
      if_neg (fun hne => hne hpending)]
    refine (guarded_works (hrestorable.restored p.host hS)).caught.bind ?_
    rintro _ t ⟨result, rfl, ⟨-, hanswers⟩, ht⟩
    have hdomains : t.domains = p.domains := by rw [ht]
    have hjournal : t.journal = p.journal := by rw [ht]
    rw [← hdomains] at h
    rw [← hjournal] at hfound
    exact hostRestored_works henv result h hsuspended hanswers hfound hstatus
      hstamp

/-- An operation that is being resumed is, where restore and commit
work. -/
theorem resumeMarked_works (henv : Steady env)
    (h : Recorded env p.domains op domain)
    (hcase : domain.suspendedOn (Runtime.evidence op) = true
        ∧ Restorable env S op.primaryDomain.text op.checksum.text
      ∨ Committed op domain
        ∧ Served env S op.primaryDomain.text op.checksum.text)
    (hS : S p.host) (hfound : findOperation p.journal op.id.text = some op)
    (hstatus : op.status = .resuming)
    (hstamp : op.updatedAt.ms < lastInstant) :
    Returns (Runtime.resumeMarked env op) p
      fun op' t => op'.status = .resumed ∧ S t.host := by
  have hgo : ∀ {P : Service.HostState → Prop},
      (∀ found : Service.Inspection, P found.host →
        found.controlPlane = Service.controlPlaneSuspendState domain
          (Runtime.evidence op) →
        domain.suspendedOn (Runtime.evidence op) = true
            ∧ found.controlPlane = .suspended
            ∧ Restorable env S op.primaryDomain.text op.checksum.text
            ∧ (found.host.satisfied = true
              ∨ found.host.reason = some Runtime.rollbackPending)
          ∨ Committed op domain ∧ found.controlPlane = .resumed
            ∧ found.host.satisfied = true) →
      Answers S op.checksum.text P
        (env.nginx.inspectDomainDeactivationRollback op.primaryDomain.text
          op.checksum.text) p.host →
      Returns (Runtime.resumeMarked env op) p
        fun op' t => op'.status = .resumed ∧ S t.host := by
    intro P hfinds hanswers
    refine (inspectResume_works h hanswers).caught.bind ?_
    rintro _ v ⟨found, rfl, hplane, hP, hSv, hv⟩
    have hdomains : v.domains = p.domains := by rw [hv]
    have hjournal : v.journal = p.journal := by rw [hv]
    rw [← hdomains] at h
    rw [← hjournal] at hfound
    exact resumeFrom_works henv h (hfinds found hP hplane) hSv hfound hstatus
      hstamp
  rcases hcase with ⟨hsuspended, hrestorable⟩ | ⟨hcommitted, hserved⟩
  · refine hgo (fun found hP hplane => .inl ⟨hsuspended, ?_, hrestorable, hP⟩)
      (hrestorable.inspected p.host hS)
    exact hplane.trans (suspended_of_suspendedOn hsuspended)
  · refine hgo (fun found hP hplane => .inr ⟨hcommitted, ?_, hP⟩)
      (hserved p.host hS)
    exact hplane.trans (resumed_of_resumedFrom hcommitted.1)

/-- A suspended operation whose restore and commit work is resumed. -/
theorem runResume_works (henv : Steady env)
    (hwork : Workable env S p.domains op) (hS : S p.host)
    (hfound : findOperation p.journal op.id.text = some op)
    (hstatus : op.status = .suspended) :
    Returns (Runtime.runResume env op.id.json) p
      fun op' t => op'.status = .resumed ∧ S t.host := by
  have hread : (Suspension.getOperation p.journal op.id.json).mapError
      Thrown.ofFailure = .ok (some op) := by
    rw [getOperation_id, hfound]
    rfl
  refine Returns.bind (R := fun found t => found = some op ∧ t = p)
    ⟨some op, hread, rfl, rfl⟩ ?_
  rintro _ t ⟨rfl, rfl⟩
  dsimp only
  rw [if_neg (by simp [hstatus])]
  have hdecide : Request.markResuming.decide op = .ok (.rewrite
      { op.toRecord with
        status := .resuming
        resumeResult := none
        resumeError := none }) := by
    simp [Request.decide, markResuming, transition, hstatus, Except.map]
  have hstamp := hwork.stampable
  obtain ⟨domain, hrecorded, hcase⟩ := hwork.recorded
  rw [Runtime.marked, if_neg (by simp [hstatus])]
  refine (request_works henv hfound hdecide (contradiction_resuming hstatus)
    (by omega)).bind ?_
  rintro ⟨record, coherent⟩ u
    ⟨⟨now, hnow, hrecord⟩, hmarked, hdomains, hhost⟩
  dsimp only at hrecord
  subst hrecord
  have hlater : max now (op.updatedAt.ms + 1) < lastInstant := by omega
  rw [← hdomains] at hrecorded
  rw [← hhost] at hS
  exact resumeMarked_works henv ⟨hrecorded.found, hrecorded.checked,
    hrecorded.server, hrecorded.wellFormed, hrecorded.primaryDomain⟩ hcase hS
    hmarked rfl hlater

/-- An entry that takes the operation runs it. -/
theorem enter_works {statuses : List Status}
    {confirmation : Operation → String} {stale : Thrown}
    {input : Runtime.ResumeInput} {P : Operation → Panel η → Prop}
    (hfound : findOperation p.journal op.id.text = some op)
    (hstatus : op.status ∈ statuses)
    (hinput : input = {
      domainId := op.domainId.text
      operationId := op.id.json
      expectedUpdatedAt := op.updatedAt.toISOString
      checksum := op.checksum.text
      confirmation := confirmation op })
    (hrun : Returns (Runtime.runResume env op.id.json) p P) :
    Returns (Runtime.enter env statuses confirmation stale input) p P := by
  have hread : (Suspension.getOperation p.journal op.id.json).mapError
      Thrown.ofFailure = .ok (some op) := by
    rw [getOperation_id, hfound]
    rfl
  subst hinput
  refine Returns.bind (R := fun found t => found = some op ∧ t = p)
    ⟨some op, hread, rfl, rfl⟩ ?_
  rintro _ t ⟨rfl, rfl⟩
  dsimp only
  rw [if_neg (by simp), if_neg (by simp [hstatus])]
  exact hrun

/-- `resume` resumes a suspended operation whose restore and commit
work. -/
theorem resume_works (henv : Steady env)
    (hwork : Workable env S p.domains op) (hS : S p.host)
    (hfound : findOperation p.journal op.id.text = some op)
    (hstatus : op.status = .suspended) :
    Returns (Runtime.resume env {
      domainId := op.domainId.text
      operationId := op.id.json
      expectedUpdatedAt := op.updatedAt.toISOString
      checksum := op.checksum.text
      confirmation := Runtime.resumeConfirmation op }) p
      fun op' t => op'.status = .resumed ∧ S t.host :=
  enter_works hfound (List.mem_singleton.mpr hstatus) rfl
    (runResume_works henv hwork hS hfound hstatus)

end Works

end Yunpanel.Suspension
