/-
Terminal sessions keep their bounds, their owners and their order, where
every start still has its place when it takes it.

A start checks the limits first and takes its place in the map much later,
without looking again; a revocation in between ends what is in the map by
then. So the rules hold in every run in which each start that takes its
place has room for it, its owner not revoked and its identifier free
(`Careful`), and `overlapping_starts` is a run of two starts without that.

The invariant is `Orderly`. Most of what happens only closes records and
touches nothing else (`Touch`); what does more is the exit of a child and
the registration of a start.
-/
import Yunpanel.Terminal.TtydSession
import Mathlib.Data.List.Count
import Mathlib.Data.List.Nodup

namespace Yunpanel.Terminal

open Json Lib

abbrev Event := Flight.Event Call Env World

abbrev Sessions := Flight Manager Stage

/-- A manager just made, with no call yet. -/
def opened (limits : Limits) : Sessions := Flight.fresh (.fresh limits)

-- ====== rules

/-- What was started by this user from this session is revoked. -/
def Manager.revoked (m : Manager) (ownerSessionId userId : String) : Bool :=
  m.revokedSessions.contains ownerSessionId
    || m.revokedOwners.contains (ownerSessionId, userId)

structure Bounded (m : Manager) : Prop where
  sessions : m.sessions.length ≤ m.limits.maxSessions
  users : ∀ userId, m.userSessionCount userId ≤ m.limits.maxUserSessions

/-- A record whose child exited was removed, once, and is not in the map; a
record whose child runs is. -/
structure RemovedOnce (m : Manager) : Prop where
  exited : ∀ n r, m.records[n]? = some r → r.exited = true →
    m.removed.count n = 1 ∧ n ∉ m.sessions.map Prod.snd
  running : ∀ n r, m.records[n]? = some r → r.exited = false →
    n ∉ m.removed ∧ (r.id, n) ∈ m.sessions

/-- The record belongs to the caller, was not terminated, has not expired,
and its owner session is not revoked. -/
structure Entitled (m : Manager) (now : Nat) (ownerSessionId userId : Json)
    (n : Nat) (r : Record) : Prop where
  record : m.records[n]? = some r
  owner : ownerSessionId = .str r.ownerSessionId
  user : userId = .str r.userId
  ended : n ∉ m.ended
  running : r.exited = false
  expiresAt : now < r.expiresAt
  revoked : m.revoked r.ownerSessionId r.userId = false

/-- Whom a step authorizes is entitled. -/
def Entitles (f : Sessions) (e : Event) : Prop :=
  ∀ id n session path,
    (id, Note.authorized n session path) ∈ ttydProtocol.machine.answer f e →
      ∃ env sessionId ownerSessionId userId mark r,
        e = .answer id env
          ∧ f.stage id = some (.entered (.authorize sessionId ownerSessionId
            userId mark))
          ∧ Entitled f.shared env.now ownerSessionId userId n r

/-- What a run of the manager is to be. -/
structure Lawful (limits : Limits) (events : List Event) : Prop where
  bounded : ∀ f ∈ ttydProtocol.machine.states (opened limits) events,
    Bounded f.shared
  removed : ∀ f ∈ ttydProtocol.machine.states (opened limits) events,
    RemovedOnce f.shared
  authorized : ∀ x ∈ ttydProtocol.machine.steps (opened limits) events,
    Entitles x.1 x.2

-- ====== condition

/-- A start may take its place: there is room, its owner was not revoked
meanwhile, the registry of live sessions takes it, and its identifier is
free. -/
def Manager.hasPlace (m : Manager) (q : Request) (id : String) : Bool :=
  decide (m.sessions.length < m.limits.maxSessions)
    && decide (m.userSessionCount q.userId < m.limits.maxUserSessions)
    && !m.revoked q.ownerSessionId q.userId
    && Manager.accepted q && !m.has id

/-- A start that is about to take its place. -/
def placing (f : Sessions) : Event → Option (Request × String)
  | .answer id env =>
      match f.stage id with
      | some (.probing q name) =>
          if env.socket = .absent ∧ env.pid.isSome = true then some (q, name)
          else none
      | _ => none
  | _ => none

/-- Every start that takes its place may. -/
def Careful (f : Sessions) (e : Event) : Prop :=
  ∀ x ∈ placing f e, f.shared.hasPlace x.1 x.2 = true

instance (f : Sessions) (e : Event) : Decidable (Careful f e) :=
  inferInstanceAs (Decidable (∀ x ∈ placing f e, _))

-- ====== invariant

structure Orderly (m : Manager) : Prop where
  keys : (m.sessions.map Prod.fst).Nodup
  entry : ∀ id n, (id, n) ∈ m.sessions →
    ∃ r : Record, m.records[n]? = some r ∧ r.id = id ∧ r.exited = false
  bounded : Bounded m
  removed : RemovedOnce m
  made : ∀ n, n ∈ m.removed ∨ n ∈ m.ended → n < m.records.length
  closed : ∀ (n : Nat) (r : Record), m.records[n]? = some r →
    n ∈ m.ended ∨ r.exited = true → r.closed = true
  connected : ∀ (n : Nat) (r : Record), m.records[n]? = some r → r.closed = false →
    ⟨r.ownerSessionId, r.userId, n⟩ ∈ m.connections
  identities : ∀ (n : Nat) (r : Record), m.records[n]? = some r → r.closed = false →
    isLiveIdentity r.ownerSessionId = true ∧ isLiveIdentity r.userId = true
  live : ∀ (n : Nat) (r : Record), m.records[n]? = some r → r.closed = false →
    m.revoked r.ownerSessionId r.userId = false

theorem orderly_fresh (limits : Limits) : Orderly (.fresh limits) where
  keys := List.nodup_nil
  entry _ _ h := by cases h
  bounded := ⟨Nat.zero_le _, fun _ => Nat.zero_le _⟩
  removed := ⟨fun _ _ h => (by cases h), fun _ _ h => (by cases h)⟩
  made _ h := by rcases h with h | h <;> cases h
  closed _ _ h := by cases h
  connected _ _ h := by cases h
  identities _ _ h := by cases h
  live _ _ h := by cases h

-- ====== closing

/-- Nothing but that records were closed. -/
structure Touch (m m' : Manager) : Prop where
  limits : m'.limits = m.limits
  sessions : m'.sessions = m.sessions
  removed : m'.removed = m.removed
  length : m'.records.length = m.records.length
  record : ∀ (n : Nat) (r' : Record), m'.records[n]? = some r' →
    ∃ r : Record, m.records[n]? = some r
    ∧ r'.id = r.id ∧ r'.ownerSessionId = r.ownerSessionId
    ∧ r'.userId = r.userId ∧ r'.exited = r.exited
    ∧ (r.closed = true → r'.closed = true)
  ended : ∀ n, n ∈ m'.ended → n ∈ m.ended
    ∨ n < m.records.length ∧ ∀ r' : Record, m'.records[n]? = some r' →
      r'.closed = true

namespace Touch

variable {m m' m'' : Manager}

theorem refl (m : Manager) : Touch m m where
  limits := rfl
  sessions := rfl
  removed := rfl
  length := rfl
  record _ r h := ⟨r, h, rfl, rfl, rfl, rfl, id⟩
  ended _ h := .inl h

theorem trans (h : Touch m m') (h' : Touch m' m'') : Touch m m'' where
  limits := h'.limits.trans h.limits
  sessions := h'.sessions.trans h.sessions
  removed := h'.removed.trans h.removed
  length := h'.length.trans h.length
  record n r'' hr'' := by
    obtain ⟨r', hr', hid', howner', huser', hexited', hclosed'⟩ :=
      h'.record n r'' hr''
    obtain ⟨r, hr, hid, howner, huser, hexited, hclosed⟩ := h.record n r' hr'
    exact ⟨r, hr, hid'.trans hid, howner'.trans howner, huser'.trans huser,
      hexited'.trans hexited, fun hc => hclosed' (hclosed hc)⟩
  ended n hn := by
    rcases h'.ended n hn with hn | ⟨hlt, hclosed⟩
    · rcases h.ended n hn with hn | ⟨hlt, hclosed⟩
      · exact .inl hn
      · refine .inr ⟨hlt, fun r'' hr'' => ?_⟩
        obtain ⟨r', hr', -, -, -, -, hmono⟩ := h'.record n r'' hr''
        exact hmono (hclosed r' hr')
    · exact .inr ⟨h.length ▸ hlt, hclosed⟩

/-- The record of a number, before. -/
theorem back (h : Touch m m') {n : Nat} {r : Record}
    (hr : m.records[n]? = some r) : ∃ r', m'.records[n]? = some r' := by
  have hlt : n < m'.records.length := by
    rw [h.length]
    exact (List.getElem?_eq_some_iff.mp hr).choose
  exact ⟨m'.records[n], List.getElem?_eq_getElem hlt⟩

/-- A user has no more sessions than before. -/
theorem userSessionCount_le (h : Touch m m') (userId : String) :
    m'.userSessionCount userId ≤ m.userSessionCount userId := by
  unfold Manager.userSessionCount
  rw [h.sessions]
  refine List.countP_mono_left fun entry _ hcounts => ?_
  unfold Manager.countsFor at hcounts ⊢
  cases hr' : m'.records[entry.2]? with
  | none =>
      rw [hr'] at hcounts
      cases hcounts
  | some r' =>
      obtain ⟨r, hr, -, -, huser, -, hclosed⟩ := h.record _ r' hr'
      rw [hr'] at hcounts
      simp only [Option.any_some, Bool.and_eq_true, beq_iff_eq,
        Bool.not_eq_true'] at hcounts
      rw [hr, Option.any_some, ← huser]
      have hopen : r.closed = false := by
        by_contra hne
        rw [hclosed (by simpa using hne)] at hcounts
        exact absurd hcounts.2 (by simp)
      simp [hcounts.1, hopen]

end Touch

/-- Closing records keeps the order, where the connections of those that
stay open are kept and nobody is revoked who has one open. -/
theorem Orderly.touch {m m' : Manager} (h : Orderly m) (ht : Touch m m')
    (hconnected : ∀ (n : Nat) (r : Record), m'.records[n]? = some r →
      r.closed = false → ⟨r.ownerSessionId, r.userId, n⟩ ∈ m.connections →
        ⟨r.ownerSessionId, r.userId, n⟩ ∈ m'.connections)
    (hlive : ∀ (n : Nat) (r : Record), m'.records[n]? = some r →
      r.closed = false → m.revoked r.ownerSessionId r.userId = false →
        m'.revoked r.ownerSessionId r.userId = false) : Orderly m' := by
  have hopen : ∀ {r r' : Record}, (r.closed = true → r'.closed = true) →
      r'.closed = false → r.closed = false := by
    intro r r' hmono hr'
    by_contra hne
    rw [hmono (by simpa using hne)] at hr'
    cases hr'
  refine
    { keys := ht.sessions ▸ h.keys
      entry := ?_
      bounded := ⟨?_, fun userId => ?_⟩
      removed := ⟨?_, ?_⟩
      made := ?_
      closed := ?_
      connected := ?_
      identities := ?_
      live := ?_ }
  · intro id n hmem
    rw [ht.sessions] at hmem
    obtain ⟨r, hr, hid, hexited⟩ := h.entry id n hmem
    obtain ⟨r', hr'⟩ := ht.back hr
    obtain ⟨r₀, hr₀, hid', -, -, hexited', -⟩ := ht.record n r' hr'
    obtain rfl := Option.some.inj (hr.symm.trans hr₀)
    exact ⟨r', hr', hid'.trans hid, hexited'.trans hexited⟩
  · rw [ht.sessions, ht.limits]
    exact h.bounded.sessions
  · rw [ht.limits]
    exact (ht.userSessionCount_le userId).trans (h.bounded.users userId)
  · intro n r' hr' hexited
    obtain ⟨r, hr, -, -, -, hexited', -⟩ := ht.record n r' hr'
    rw [ht.removed, ht.sessions]
    exact h.removed.exited n r hr (hexited' ▸ hexited)
  · intro n r' hr' hexited
    obtain ⟨r, hr, hid, -, -, hexited', -⟩ := ht.record n r' hr'
    rw [ht.removed, ht.sessions, hid]
    exact h.removed.running n r hr (hexited' ▸ hexited)
  · intro n hn
    rw [ht.length]
    rcases hn with hn | hn
    · exact h.made n (.inl (ht.removed ▸ hn))
    · rcases ht.ended n hn with hn | ⟨hlt, -⟩
      · exact h.made n (.inr hn)
      · exact hlt
  · intro n r' hr' hn
    obtain ⟨r, hr, -, -, -, hexited, hmono⟩ := ht.record n r' hr'
    rcases hn with hn | hn
    · rcases ht.ended n hn with hn | ⟨-, hclosed⟩
      · exact hmono (h.closed n r hr (.inl hn))
      · exact hclosed r' hr'
    · exact hmono (h.closed n r hr (.inr (hexited ▸ hn)))
  · intro n r' hr' hclosed
    obtain ⟨r, hr, -, howner, huser, -, hmono⟩ := ht.record n r' hr'
    refine hconnected n r' hr' hclosed ?_
    rw [howner, huser]
    exact h.connected n r hr (hopen hmono hclosed)
  · intro n r' hr' hclosed
    obtain ⟨r, hr, -, howner, huser, -, hmono⟩ := ht.record n r' hr'
    rw [howner, huser]
    exact h.identities n r hr (hopen hmono hclosed)
  · intro n r' hr' hclosed
    obtain ⟨r, hr, -, howner, huser, -, hmono⟩ := ht.record n r' hr'
    refine hlive n r' hr' hclosed ?_
    rw [howner, huser]
    exact h.live n r hr (hopen hmono hclosed)

-- ====== touches

variable {f : Record → Record} {id : String} {q : Request}
  {sessionId ownerSessionId userId : Json}

/-- A change of one record that leaves who it is of. -/
theorem touch_modify {m : Manager} {n : Nat} (hid : ∀ r, (f r).id = r.id)
    (howner : ∀ r, (f r).ownerSessionId = r.ownerSessionId)
    (huser : ∀ r, (f r).userId = r.userId)
    (hexited : ∀ r, (f r).exited = r.exited)
    (hclosed : ∀ r, r.closed = true → (f r).closed = true) :
    Touch m (m.modifyRecord n f) where
  limits := rfl
  sessions := rfl
  removed := rfl
  length := List.length_modify _ _ _
  record k r' hr' := by
    have hget : (m.records.modify n f)[k]?
        = if n = k then f <$> m.records[k]? else m.records[k]? := by
      rw [List.getElem?_modify]
      split <;> simp
    change (m.records.modify n f)[k]? = some r' at hr'
    rw [hget] at hr'
    by_cases hk : n = k
    · rw [if_pos hk] at hr'
      obtain ⟨r, hr, rfl⟩ := Option.map_eq_some_iff.mp hr'
      exact ⟨r, hr, hid r, howner r, huser r, hexited r, hclosed r⟩
    · rw [if_neg hk] at hr'
      exact ⟨r', hr', rfl, rfl, rfl, rfl, id⟩
  ended _ h := .inl h

/-- Only records were closed, and nothing else has changed. -/
structure Closing (m m' : Manager) : Prop extends Touch m m' where
  connections : m'.connections = m.connections
  revokedSessions : m'.revokedSessions = m.revokedSessions
  revokedOwners : m'.revokedOwners = m.revokedOwners

theorem modify_closing {m : Manager} {n : Nat} (hid : ∀ r, (f r).id = r.id)
    (howner : ∀ r, (f r).ownerSessionId = r.ownerSessionId)
    (huser : ∀ r, (f r).userId = r.userId)
    (hexited : ∀ r, (f r).exited = r.exited)
    (hclosed : ∀ r, r.closed = true → (f r).closed = true) :
    Closing m (m.modifyRecord n f) :=
  ⟨touch_modify hid howner huser hexited hclosed, rfl, rfl, rfl⟩

theorem Closing.refl (m : Manager) : Closing m m :=
  ⟨Touch.refl m, rfl, rfl, rfl⟩

theorem Closing.trans {m m' m'' : Manager} (h : Closing m m')
    (h' : Closing m' m'') : Closing m m'' :=
  ⟨h.toTouch.trans h'.toTouch, h'.connections.trans h.connections,
    h'.revokedSessions.trans h.revokedSessions,
    h'.revokedOwners.trans h.revokedOwners⟩

theorem Closing.revoked {m m' : Manager} (h : Closing m m')
    (ownerSessionId userId : String) :
    m'.revoked ownerSessionId userId = m.revoked ownerSessionId userId := by
  unfold Manager.revoked
  rw [h.revokedSessions, h.revokedOwners]

theorem Orderly.closing {m m' : Manager} (h : Orderly m)
    (hc : Closing m m') : Orderly m' :=
  h.touch hc.toTouch (fun _ _ _ _ hmem => hc.connections ▸ hmem)
    (fun _ r _ _ hlive => (hc.revoked _ _).trans hlive)

theorem terminateRecord_closing (m : Manager) (n : Nat) (reason : String) :
    Closing m (m.terminateRecord n reason).1
      ∧ ∀ r, (m.terminateRecord n reason).1.records[n]? = some r →
        r.closed = true := by
  unfold Manager.terminateRecord
  cases hr : m.records[n]? with
  | none => exact ⟨Closing.refl m, fun r hr' => by rw [hr] at hr'; cases hr'⟩
  | some r =>
      dsimp only
      by_cases hclosed : r.closed = true
      · rw [if_pos hclosed]
        refine ⟨Closing.refl m, fun r' hr' => ?_⟩
        obtain rfl := Option.some.inj (hr.symm.trans hr')
        exact hclosed
      · rw [if_neg hclosed]
        have hself : ∀ r', (m.records.modify n fun r => { r with
            closed := true
            closeReason := some reason
            killTimer := true })[n]? = some r' → r'.closed = true := by
          intro r' hr'
          rw [List.getElem?_modify_eq, hr] at hr'
          obtain rfl := Option.some.inj hr'
          rfl
        have hmodify : Touch m (m.modifyRecord n fun r => { r with
            closed := true
            closeReason := some reason
            killTimer := true }) :=
          touch_modify (fun _ => rfl) (fun _ => rfl) (fun _ => rfl)
            (fun _ => rfl) (fun _ _ => rfl)
        refine ⟨⟨{ hmodify with ended := fun k hk => ?_ }, rfl, rfl, rfl⟩,
          hself⟩
        rcases List.mem_append.mp hk with hk | hk
        · exact .inl hk
        · obtain rfl := List.mem_singleton.mp hk
          exact .inr ⟨(List.getElem?_eq_some_iff.mp hr).choose, hself⟩

/-- Terminating the records of a list closes them all. -/
theorem foldl_terminateRecord_closing {α : Type} (number : α → Nat)
    (reason : String) (as : List α) (m : Manager) :
    Closing m (as.foldl
        (fun m a => (m.terminateRecord (number a) reason).1) m)
      ∧ ∀ a ∈ as, ∀ r, (as.foldl
        (fun m a => (m.terminateRecord (number a) reason).1) m).records[
          number a]? = some r → r.closed = true := by
  induction as generalizing m with
  | nil => exact ⟨Closing.refl m, fun a ha => by cases ha⟩
  | cons a as ih =>
      obtain ⟨hhead, hclosed⟩ := terminateRecord_closing m (number a) reason
      obtain ⟨hrest, hall⟩ := ih (m.terminateRecord (number a) reason).1
      refine ⟨hhead.trans hrest, fun b hb r hr => ?_⟩
      rcases List.mem_cons.mp hb with rfl | hb
      · obtain ⟨r₀, hr₀, -, -, -, -, hmono⟩ := hrest.record _ r hr
        exact hmono (hclosed r₀ hr₀)
      · exact hall b hb r hr

/-- Ending what matches leaves the order, where whoever is revoked with it
has all their connections among what matches. -/
theorem orderly_terminateWhere {m : Manager} (h : Orderly m)
    (p : Connection → Bool) (revokedSessions : List String)
    (revokedOwners : List (String × String))
    (hrevoked : ∀ c : Connection, p c = false →
      isLiveIdentity c.sessionId = true → isLiveIdentity c.userId = true →
      m.revoked c.sessionId c.userId = false →
      Manager.revoked { m with revokedSessions, revokedOwners }
        c.sessionId c.userId = false) :
    Orderly (Manager.terminateWhere
      { m with revokedSessions, revokedOwners } p) := by
  obtain ⟨hclosing, hclosed⟩ := foldl_terminateRecord_closing
    Connection.record "session_revoked" (m.connections.filter p)
    { m with
      revokedSessions
      revokedOwners
      connections := m.connections.filter fun c => !p c }
  change Closing _ (Manager.terminateWhere
    { m with revokedSessions, revokedOwners } p) at hclosing
  -- a record that stays open has a connection that does not match
  have hmiss : ∀ (n : Nat) (r : Record),
      (Manager.terminateWhere { m with revokedSessions, revokedOwners }
        p).records[n]? = some r → r.closed = false →
      ⟨r.ownerSessionId, r.userId, n⟩ ∈ m.connections →
        p ⟨r.ownerSessionId, r.userId, n⟩ = false := by
    intro n r hr hopen hmem
    by_contra hp
    have hhit := hclosed ⟨r.ownerSessionId, r.userId, n⟩
      (List.mem_filter.mpr ⟨hmem, by simpa using hp⟩) r hr
    rw [hopen] at hhit
    cases hhit
  have htouch : Touch m (Manager.terminateWhere
      { m with revokedSessions, revokedOwners } p) :=
    { hclosing.toTouch with }
  refine h.touch htouch ?_ ?_
  · intro n r hr hopen hmem
    rw [hclosing.connections]
    exact List.mem_filter.mpr ⟨hmem, by simp [hmiss n r hr hopen hmem]⟩
  · intro n r hr hopen hlive
    obtain ⟨r₀, hr₀, -, howner, huser, -, hmono⟩ := htouch.record n r hr
    have hopen₀ : r₀.closed = false := by
      by_contra hne
      rw [hmono (by simpa using hne)] at hopen
      cases hopen
    have hmem := h.connected n r₀ hr₀ hopen₀
    have hids := h.identities n r₀ hr₀ hopen₀
    rw [← howner, ← huser] at hmem hids
    have hfree := hrevoked _ (hmiss n r hr hopen hmem) hids.1 hids.2 hlive
    rw [hclosing.revoked]
    exact hfree

-- ====== exits

/-- Where keys are distinct, two entries of one key are one. -/
theorem number_unique {m : Manager} (h : Orderly m) {n k : Nat}
    (hn : (id, n) ∈ m.sessions) (hk : (id, k) ∈ m.sessions) :
    n = k := by
  have hpair := List.inj_on_of_nodup_map h.keys hn hk rfl
  exact congrArg Prod.snd hpair

/-- What the exit of a running child makes of the manager: the record is
over, and leaves the map. -/
structure Exit (m : Manager) (n : Nat) (r gone : Record) (m' : Manager) :
    Prop where
  found : m.records[n]? = some r
  running : r.exited = false
  exited : gone.exited = true
  closed : gone.closed = true
  record : ∀ k, m'.records[k]? = if n = k then some gone else m.records[k]?
  length : m'.records.length = m.records.length
  limits : m'.limits = m.limits
  sessions : m'.sessions = m.sessions.filter fun entry => entry.1 != r.id
  connections : m'.connections = m.connections.filter fun c => c.record != n
  removed : m'.removed = m.removed ++ [n]
  ended : m'.ended = m.ended
  revoked : ∀ owner user, m'.revoked owner user = m.revoked owner user

theorem exited_cases (m : Manager) (n : Nat) :
    m.exited n = m ∨ ∃ r gone, Exit m n r gone (m.exited n) := by
  unfold Manager.exited
  cases hr : m.records[n]? with
  | none => exact .inl rfl
  | some r =>
      dsimp only
      by_cases hexited : r.exited = true
      · rw [if_pos hexited]
        exact .inl rfl
      · rw [if_neg hexited]
        refine .inr ⟨r, { r with
          exited := true
          closed := true
          startupTimer := false
          lifetimeTimer := false
          killTimer := false },
          { found := hr
            running := by simpa using hexited
            exited := rfl
            closed := rfl
            record := fun k => ?_
            length := List.length_modify _ _ _
            limits := rfl
            sessions := rfl
            connections := rfl
            removed := rfl
            ended := rfl
            revoked := fun _ _ => rfl }⟩
        show (m.records.modify n _)[k]? = _
        by_cases hk : n = k
        · subst hk
          rw [List.getElem?_modify_eq, hr, if_pos rfl]
          rfl
        · rw [List.getElem?_modify_ne _ _ hk, if_neg hk]

/-- A child exits: its record leaves the map, and no other does. -/
theorem Orderly.exit {m m' : Manager} {n : Nat} {r gone : Record}
    (h : Orderly m) (he : Exit m n r gone m') : Orderly m' := by
  obtain ⟨hnot, hmem⟩ := h.removed.running n r he.found he.running
  have hother : ∀ {k r'}, m'.records[k]? = some r' →
      (n = k ∧ r' = gone) ∨ (k ≠ n ∧ m.records[k]? = some r') := by
    intro k r' hr'
    rw [he.record] at hr'
    by_cases hk : n = k
    · rw [if_pos hk] at hr'
      exact .inl ⟨hk, (Option.some.inj hr').symm⟩
    · rw [if_neg hk] at hr'
      exact .inr ⟨Ne.symm hk, hr'⟩
  -- what is left of the map: everything but this record
  have hleft : ∀ id k, (id, k) ∈ m'.sessions
      ↔ (id, k) ∈ m.sessions ∧ k ≠ n := by
    intro id k
    rw [he.sessions, List.mem_filter]
    refine and_congr_right fun hk => ?_
    constructor
    · rintro hne rfl
      obtain ⟨r', hr', hid, -⟩ := h.entry id k hk
      obtain rfl := Option.some.inj (he.found.symm.trans hr')
      simp [hid] at hne
    · intro hne
      refine bne_iff_ne.mpr fun hid => hne ?_
      have hid' : id = r.id := hid
      rw [hid'] at hk
      exact number_unique h hk hmem
  have hsublist : m'.sessions.Sublist m.sessions := by
    rw [he.sessions]
    exact List.filter_sublist
  refine
    { keys := h.keys.sublist (hsublist.map _)
      entry := ?_
      bounded := ⟨?_, fun userId => ?_⟩
      removed := ⟨?_, ?_⟩
      made := ?_
      closed := ?_
      connected := ?_
      identities := ?_
      live := ?_ }
  · intro id k hk
    obtain ⟨hk, hne⟩ := (hleft id k).mp hk
    obtain ⟨r', hr', hid, hexited⟩ := h.entry id k hk
    exact ⟨r', by rw [he.record, if_neg (Ne.symm hne), hr'], hid, hexited⟩
  · rw [he.limits]
    exact hsublist.length_le.trans h.bounded.sessions
  · rw [he.limits]
    refine le_trans ?_ (h.bounded.users userId)
    refine (List.countP_mono_left fun entry hentry hcounts => ?_).trans
      hsublist.countP_le
    obtain ⟨-, hne⟩ := (hleft entry.1 entry.2).mp hentry
    unfold Manager.countsFor at hcounts ⊢
    rw [he.record, if_neg (Ne.symm hne)] at hcounts
    exact hcounts
  · intro k r' hr' hexited
    rw [he.removed, List.count_append, List.count_singleton']
    rcases hother hr' with ⟨rfl, -⟩ | ⟨hk, hr'⟩
    · rw [List.count_eq_zero_of_not_mem hnot, if_pos rfl]
      refine ⟨rfl, fun hin => ?_⟩
      obtain ⟨⟨id, k⟩, hin, hk⟩ := List.mem_map.mp hin
      exact ((hleft id k).mp hin).2 hk
    · obtain ⟨hcount, hout⟩ := h.removed.exited k r' hr' hexited
      rw [hcount, if_neg (Ne.symm hk)]
      exact ⟨rfl, fun hin => hout ((hsublist.map Prod.snd).subset hin)⟩
  · intro k r' hr' hexited
    rcases hother hr' with ⟨-, rfl⟩ | ⟨hk, hr'⟩
    · rw [he.exited] at hexited
      cases hexited
    · obtain ⟨hout, hin⟩ := h.removed.running k r' hr' hexited
      rw [he.removed]
      refine ⟨fun hmem' => ?_, (hleft _ _).mpr ⟨hin, hk⟩⟩
      rcases List.mem_append.mp hmem' with hmem' | hmem'
      · exact hout hmem'
      · exact hk (List.mem_singleton.mp hmem')
  · intro k hk
    rw [he.length]
    rcases hk with hk | hk
    · rw [he.removed] at hk
      rcases List.mem_append.mp hk with hk | hk
      · exact h.made k (.inl hk)
      · obtain rfl := List.mem_singleton.mp hk
        exact (List.getElem?_eq_some_iff.mp he.found).choose
    · exact h.made k (.inr (he.ended ▸ hk))
  · intro k r' hr' hk
    rcases hother hr' with ⟨-, rfl⟩ | ⟨-, hr'⟩
    · exact he.closed
    · exact h.closed k r' hr' (he.ended ▸ hk)
  all_goals
    intro k r' hr' hopen
    obtain ⟨hk, hr'⟩ := (hother hr').resolve_left fun hsame => by
      rw [hsame.2, he.closed] at hopen
      cases hopen
  · rw [he.connections]
    exact List.mem_filter.mpr ⟨h.connected k r' hr' hopen,
      bne_iff_ne.mpr hk⟩
  · exact h.identities k r' hr' hopen
  · rw [he.revoked]
    exact h.live k r' hr' hopen

theorem orderly_exited {m : Manager} (h : Orderly m) (n : Nat) :
    Orderly (m.exited n) := by
  rcases exited_cases m n with hsame | ⟨r, gone, he⟩
  · rw [hsame]
    exact h
  · exact h.exit he

-- ====== the world

theorem orderly_fires {m : Manager} (h : Orderly m) (n : Nat)
    {armed : Record → Bool} {disarm : Record → Record}
    {act : Manager → Record → Manager}
    (hdisarm : Closing m (m.modifyRecord n disarm))
    (hact : ∀ m' r, Closing m' (act m' r)) :
    Orderly (m.fires n armed disarm act) := by
  unfold Manager.fires
  cases m.records[n]? with
  | none => exact h
  | some r =>
      dsimp only
      split
      · exact (h.closing hdisarm).closing (hact _ r)
      · exact h

theorem orderly_world {m : Manager} (h : Orderly m) (x : World) :
    Orderly (world m x) := by
  cases x with
  | exit n => exact orderly_exited h n
  | error n => exact h.closing (terminateRecord_closing m n _).1
  | startupTimer n =>
      unfold world
      refine orderly_fires h n (modify_closing (fun _ => rfl)
        (fun _ => rfl) (fun _ => rfl) (fun _ => rfl) fun _ hr => hr) ?_
      intro m' r
      split
      · exact (terminateRecord_closing m' n _).1
      · exact Closing.refl m'
  | lifetimeTimer n =>
      unfold world
      refine orderly_fires h n (modify_closing (fun _ => rfl)
        (fun _ => rfl) (fun _ => rfl) (fun _ => rfl) fun _ hr => hr) ?_
      exact fun m' _ => (terminateRecord_closing m' n _).1
  | killTimer n =>
      unfold world
      refine orderly_fires h n (modify_closing (fun _ => rfl)
        (fun _ => rfl) (fun _ => rfl) (fun _ => rfl) fun _ hr => hr) ?_
      exact fun m' _ => Closing.refl m'
  | revokeSession sessionId =>
      show Orderly (if isLiveIdentity sessionId then _ else _)
      split
      · refine orderly_terminateWhere h _ (sessionId :: m.revokedSessions)
          m.revokedOwners ?_
        intro c hc _ _ hfree
        have hne : c.sessionId ≠ sessionId := by simpa using hc
        simpa [Manager.revoked, hne] using hfree
      · rename_i hinvalid
        refine h.touch { Touch.refl m with } (fun _ _ _ _ hmem => hmem) ?_
        intro n r hr hopen hfree
        have hne : r.ownerSessionId ≠ sessionId := by
          rintro rfl
          exact hinvalid (h.identities n r hr hopen).1
        simpa [Manager.revoked, hne] using hfree
  | revokeUser userId =>
      show Orderly (if isLiveIdentity userId then _ else _)
      split
      · refine orderly_terminateWhere h _ m.revokedSessions _ ?_
        intro c hc _ _ hfree
        have hne : c.userId ≠ userId := by simpa using hc
        simpa [Manager.revoked, hne] using hfree
      · rename_i hinvalid
        refine h.touch { Touch.refl m with } (fun _ _ _ _ hmem => hmem) ?_
        intro n r hr hopen hfree
        have hne : r.userId ≠ userId := by
          rintro rfl
          exact hinvalid (h.identities n r hr hopen).2
        simpa [Manager.revoked, hne] using hfree
  | closeLive =>
      exact orderly_terminateWhere h _ m.revokedSessions m.revokedOwners
        fun _ hc => by cases hc

-- ====== places

/-- What a start that takes its place makes of the manager. -/
structure Placed (m : Manager) (q : Request) (name : String) (new : Record)
    (m' : Manager) : Prop where
  id : new.id = name
  owner : new.ownerSessionId = q.ownerSessionId
  user : new.userId = q.userId
  closed : new.closed = false
  exited : new.exited = false
  records : m'.records = m.records ++ [new]
  sessions : m'.sessions = m.sessions ++ [(name, m.records.length)]
  connections : m'.connections = m.connections
    ++ [⟨q.ownerSessionId, q.userId, m.records.length⟩]
  limits : m'.limits = m.limits
  removed : m'.removed = m.removed
  ended : m'.ended = m.ended
  revoked : ∀ owner user, m'.revoked owner user = m.revoked owner user

theorem lookup_of_hasPlace {m : Manager} (h : m.hasPlace q id = true) :
    m.sessions.lookup id = none := by
  simp only [Manager.hasPlace, Bool.and_eq_true, Bool.not_eq_true'] at h
  have hnew := h.2
  unfold Manager.has at hnew
  exact Option.not_isSome_iff_eq_none.mp (by simp [hnew])

theorem placed_register {m : Manager} (h : m.hasPlace q id = true)
    (pid now : Nat) :
    ∃ new, Placed m q id new (m.register q id pid now).1 := by
  have hsessions : Manager.setSession m.sessions id m.records.length
      = m.sessions ++ [(id, m.records.length)] := by
    unfold Manager.setSession
    rw [lookup_of_hasPlace h]
    rfl
  simp only [Manager.hasPlace, Bool.and_eq_true] at h
  unfold Manager.register
  rw [if_pos h.1.2, hsessions]
  exact ⟨_, rfl, rfl, rfl, rfl, rfl, rfl, rfl, rfl, rfl, rfl, rfl,
    fun _ _ => rfl⟩

/-- A start that has its place keeps the order by taking it. -/
theorem Orderly.placed {m m' : Manager} {new : Record} (h : Orderly m)
    (hplace : m.hasPlace q id = true) (hp : Placed m q id new m') :
    Orderly m' := by
  have hfresh : ∀ n, (id, n) ∉ m.sessions := by
    intro n hmem
    have hne := List.lookup_eq_none_iff.mp (lookup_of_hasPlace hplace)
      (id, n) hmem
    simp at hne
  simp only [Manager.hasPlace, Bool.and_eq_true, decide_eq_true_eq,
    Bool.not_eq_true', Manager.accepted] at hplace
  obtain ⟨⟨⟨⟨hroom, huser⟩, hfree⟩, hids⟩, -⟩ := hplace
  have hlt : ∀ {k : Nat} {r : Record}, m.records[k]? = some r →
      k < m.records.length := fun hr =>
    (List.getElem?_eq_some_iff.mp hr).choose
  have hkept : ∀ {k : Nat} {r : Record}, m.records[k]? = some r →
      m'.records[k]? = some r := by
    intro k r hr
    rw [hp.records, List.getElem?_append_left (hlt hr), hr]
  have hself : m'.records[m.records.length]? = some new := by
    rw [hp.records, List.getElem?_concat_length]
  have hcases : ∀ {k : Nat} {r : Record}, m'.records[k]? = some r →
      m.records[k]? = some r ∨ k = m.records.length ∧ r = new := by
    intro k r hr
    rw [hp.records] at hr
    rcases Nat.lt_trichotomy k m.records.length with hk | hk | hk
    · rw [List.getElem?_append_left hk] at hr
      exact .inl hr
    · rw [hk, List.getElem?_concat_length] at hr
      exact .inr ⟨hk, (Option.some.inj hr).symm⟩
    · rw [List.getElem?_eq_none (by
        rw [List.length_append, List.length_singleton]
        omega)] at hr
      cases hr
  have hnew : m.records.length ∉ m.removed ∧ m.records.length ∉ m.ended :=
    ⟨fun hmem => absurd (h.made _ (.inl hmem)) (by omega),
      fun hmem => absurd (h.made _ (.inr hmem)) (by omega)⟩
  refine
    { keys := ?_
      entry := ?_
      bounded := ⟨?_, fun userId => ?_⟩
      removed := ⟨?_, ?_⟩
      made := ?_
      closed := ?_
      connected := ?_
      identities := ?_
      live := ?_ }
  · rw [hp.sessions, List.map_append, List.map_singleton]
    refine List.nodup_append.mpr ⟨h.keys, List.nodup_singleton _, ?_⟩
    intro a ha b hb hab
    obtain ⟨⟨c, n⟩, hmem, rfl⟩ := List.mem_map.mp ha
    have heq : c = id := hab.trans (List.mem_singleton.mp hb)
    exact hfresh n (heq ▸ hmem)
  · intro a n hmem
    rw [hp.sessions] at hmem
    rcases List.mem_append.mp hmem with hmem | hmem
    · obtain ⟨r, hr, hid, hexited⟩ := h.entry a n hmem
      exact ⟨r, hkept hr, hid, hexited⟩
    · obtain ⟨rfl, rfl⟩ := Prod.mk.inj (List.mem_singleton.mp hmem)
      exact ⟨new, hself, hp.id, hp.exited⟩
  · rw [hp.sessions, hp.limits, List.length_append, List.length_singleton]
    exact hroom
  · -- the records of before count as they did, the new one for its user
    have hcounts : ∀ entry ∈ m.sessions,
        m'.countsFor userId entry = m.countsFor userId entry := by
      intro entry hentry
      obtain ⟨r, hr, -, -⟩ := h.entry entry.1 entry.2 hentry
      unfold Manager.countsFor
      rw [hkept hr, hr]
    have hbefore : m.sessions.countP (m'.countsFor userId)
        = m.userSessionCount userId :=
      List.countP_congr fun entry hentry => by rw [hcounts entry hentry]
    unfold Manager.userSessionCount
    rw [hp.limits, hp.sessions, List.countP_append, hbefore]
    by_cases hmine : userId = q.userId
    · subst hmine
      have hone := List.countP_le_length
        (p := m'.countsFor q.userId) (l := [(id, m.records.length)])
      rw [List.length_singleton] at hone
      omega
    · have hnone : [(id, m.records.length)].countP (m'.countsFor userId)
          = 0 := by
        rw [List.countP_eq_zero]
        intro entry hentry
        obtain rfl := List.mem_singleton.mp hentry
        unfold Manager.countsFor
        rw [hself, Option.any_some, hp.user]
        simp [Ne.symm hmine]
      rw [hnone]
      exact h.bounded.users userId
  · intro k r hr hexited
    rcases hcases hr with hr | ⟨-, rfl⟩
    · obtain ⟨hcount, hout⟩ := h.removed.exited k r hr hexited
      rw [hp.removed, hp.sessions, List.map_append, List.mem_append, not_or]
      refine ⟨hcount, hout, fun hmem => ?_⟩
      have hk := List.mem_singleton.mp hmem
      have := hlt hr
      omega
    · rw [hp.exited] at hexited
      cases hexited
  · intro k r hr hexited
    rw [hp.removed, hp.sessions]
    rcases hcases hr with hr | ⟨rfl, rfl⟩
    · obtain ⟨hout, hin⟩ := h.removed.running k r hr hexited
      exact ⟨hout, List.mem_append_left _ hin⟩
    · refine ⟨hnew.1, List.mem_append_right _ ?_⟩
      rw [hp.id]
      exact List.mem_singleton_self _
  · intro k hk
    rw [hp.removed, hp.ended] at hk
    rw [hp.records, List.length_append, List.length_singleton]
    have := h.made k hk
    omega
  · intro k r hr hk
    rw [hp.ended] at hk
    rcases hcases hr with hr | ⟨rfl, rfl⟩
    · exact h.closed k r hr hk
    · rcases hk with hk | hk
      · exact absurd hk hnew.2
      · rw [hp.exited] at hk
        cases hk
  · intro k r hr hopen
    rw [hp.connections]
    rcases hcases hr with hr | ⟨rfl, rfl⟩
    · exact List.mem_append_left _ (h.connected k r hr hopen)
    · rw [hp.owner, hp.user]
      exact List.mem_append_right _ (List.mem_singleton_self _)
  · intro k r hr hopen
    rcases hcases hr with hr | ⟨-, rfl⟩
    · exact h.identities k r hr hopen
    · rw [hp.owner, hp.user]
      exact hids
  · intro k r hr hopen
    rw [hp.revoked]
    rcases hcases hr with hr | ⟨-, rfl⟩
    · exact h.live k r hr hopen
    · rw [hp.owner, hp.user]
      exact hfree

-- ====== segments

theorem closing_failStart (m : Manager) (n : Nat) (e : Failure) :
    Closing m (m.failStart n e).1 :=
  (terminateRecord_closing m n _).1

theorem closing_accept (m : Manager) (env : Env)
    (ownerSessionId userId target : Json) :
    Closing m (m.accept env ownerSessionId userId target).1 := by
  unfold Manager.accept
  split
  · exact Closing.refl m
  · have hknown : ∀ known, Closing m { m with known } :=
      fun known => ⟨{ Touch.refl m with }, rfl, rfl, rfl⟩
    dsimp only
    split
    · exact hknown _
    · split <;> exact hknown _

theorem closing_authorize (m : Manager) (now : Nat)
    (sessionId ownerSessionId userId : Json) (mark : Bool) :
    Closing m
      (m.authorize now sessionId ownerSessionId userId mark).1 := by
  unfold Manager.authorize
  split
  · exact Closing.refl m
  · split
    · exact Closing.refl m
    · dsimp only
      split
      · exact modify_closing (fun _ => rfl) (fun _ => rfl) (fun _ => rfl)
          (fun _ => rfl) (fun _ hr => hr)
      · exact Closing.refl m

theorem closing_terminateBy (m : Manager) (found : Option (Nat × Record))
    (reason : String) : Closing m (m.terminateBy found reason).1 := by
  cases found with
  | none => exact Closing.refl m
  | some x => exact (terminateRecord_closing m x.1 reason).1

/-- Whatever does not take a place closes records, and no more. -/
theorem closing_resume (m : Manager) (k : Stage) (env : Env)
    (hplace : ∀ q id, k = .probing q id →
      ¬(env.socket = .absent ∧ env.pid.isSome = true)) :
    Closing m (m.resume k env).1 := by
  cases k with
  | entered c =>
      cases c with
      | start owner user target => exact closing_accept m env owner user target
      | authorize id owner user mark =>
          exact closing_authorize m env.now id owner user mark
      | terminate id reason => exact closing_terminateBy m _ reason
      | terminateOwned id owner user => exact closing_terminateBy m _ _
      | closeAll reason =>
          exact (foldl_terminateRecord_closing Prod.snd reason _ m).1
  | applying q =>
      simp only [Manager.resume]
      split <;> exact Closing.refl m
  | resolving q =>
      simp only [Manager.resume]
      split <;> exact Closing.refl m
  | identifying q =>
      simp only [Manager.resume]
      split <;> exact Closing.refl m
  | rooting q =>
      simp only [Manager.resume, Manager.allocate]
      split
      · exact Closing.refl m
      · split <;> exact Closing.refl m
  | probing q id =>
      have hnot := hplace q id rfl
      simp only [Manager.resume, Manager.launch]
      split
      · exact Closing.refl m
      · exact Closing.refl m
      · rename_i hsocket
        split
        · exact Closing.refl m
        · rename_i pid hpid
          exact absurd ⟨hsocket, by rw [hpid]; rfl⟩ hnot
  | awaiting n deadline =>
      simp only [Manager.resume]
      cases env.socket with
      | absent => exact Closing.refl m
      | unavailable => exact closing_failStart m n _
      | found safe =>
          cases safe with
          | true => exact Closing.refl m
          | false => exact closing_failStart m n _
  | pausing n deadline =>
      simp only [Manager.resume, Manager.look]
      split
      · exact closing_failStart m n _
      · split
        · exact closing_failStart m n _
        · exact Closing.refl m

theorem orderly_resume {m : Manager} (h : Orderly m) (k : Stage) (env : Env)
    (hplace : ∀ q id, k = .probing q id → env.socket = .absent →
      env.pid.isSome = true → m.hasPlace q id = true) :
    Orderly (m.resume k env).1 := by
  by_cases htakes : ∃ q id, k = .probing q id ∧ env.socket = .absent
      ∧ env.pid.isSome = true
  · obtain ⟨q, id, rfl, hsocket, hpid⟩ := htakes
    have hroom := hplace q id rfl hsocket hpid
    obtain ⟨pid, hpid⟩ := Option.isSome_iff_exists.mp hpid
    have hrun : m.resume (.probing q id) env
        = m.register q id pid env.now := by
      simp only [Manager.resume, Manager.launch, hsocket, hpid]
    rw [hrun]
    obtain ⟨new, hnew⟩ := placed_register hroom pid env.now
    exact h.placed hroom hnew
  · refine h.closing (closing_resume m k env fun q id hk hboth => ?_)
    exact htakes ⟨q, id, hk, hboth⟩

-- ====== authorization

theorem usable_eq_some {m : Manager} {n : Nat} {r : Record}
    (h : m.usable sessionId ownerSessionId userId = some (n, r)) :
    m.records[n]? = some r ∧ r.closed = false ∧ r.exited = false
      ∧ ownerSessionId = .str r.ownerSessionId
      ∧ userId = .str r.userId := by
  unfold Manager.usable at h
  obtain ⟨id, -, h⟩ := Option.bind_eq_some_iff.mp h
  obtain ⟨⟨n', r'⟩, hget, h⟩ := Option.bind_eq_some_iff.mp h
  dsimp only at h
  split at h
  · cases h
  · rename_i hopen
    obtain ⟨rfl, rfl⟩ := Prod.mk.inj (Option.some.inj h)
    simp only [Bool.or_eq_true, bne_iff_ne, ne_eq, not_or, Bool.not_eq_true,
      Decidable.not_not] at hopen
    obtain ⟨⟨⟨hclosed, hexited⟩, howner⟩, huser⟩ := hopen
    refine ⟨?_, hclosed, hexited, howner.symm, huser.symm⟩
    split at hget
    · unfold Manager.get at hget
      obtain ⟨k, -, hk⟩ := Option.bind_eq_some_iff.mp hget
      obtain ⟨r₀, hr₀, heq⟩ := Option.map_eq_some_iff.mp hk
      obtain ⟨rfl, rfl⟩ := Prod.mk.inj heq
      exact hr₀
    · cases hget

/-- Only `authorize` authorizes, a record that is usable and has not
expired. -/
theorem authorized_resume {m : Manager} {k : Stage} {env : Env} {n : Nat}
    {session : PublicSession} {path : String}
    (h : .authorized n session path ∈ (m.resume k env).2.2) :
    ∃ sessionId ownerSessionId userId mark r,
      k = .entered (.authorize sessionId ownerSessionId userId mark)
        ∧ m.usable sessionId ownerSessionId userId = some (n, r)
        ∧ env.now < r.expiresAt := by
  have hnone : ∀ {notes : List Note}, Note.authorized n session path ∈ notes →
      notes = [] ∨ (∃ e, notes = [.rejected e]) ∨ (∃ done,
        notes = [.terminated done]) → False := by
    intro notes hmem hcases
    rcases hcases with rfl | ⟨e, rfl⟩ | ⟨done, rfl⟩
    · cases hmem
    · cases List.mem_singleton.mp hmem
    · cases List.mem_singleton.mp hmem
  cases k with
  | entered c =>
      cases c with
      | start owner user target =>
          exfalso
          refine hnone h ?_
          simp only [Manager.resume, Manager.accept, Manager.rejects]
          split
          · exact .inr (.inl ⟨_, rfl⟩)
          · split
            · exact .inr (.inl ⟨_, rfl⟩)
            · split
              · exact .inr (.inl ⟨_, rfl⟩)
              · exact .inl rfl
      | authorize id owner user mark =>
          simp only [Manager.resume, Manager.authorize] at h
          cases hfound : m.usable id owner user with
          | none =>
              rw [hfound] at h
              cases List.mem_singleton.mp h
          | some found =>
              obtain ⟨n', r⟩ := found
              rw [hfound] at h
              dsimp only at h
              by_cases hexpired : r.expiresAt ≤ env.now
              · rw [if_pos hexpired] at h
                cases List.mem_singleton.mp h
              · rw [if_neg hexpired] at h
                have hnote : Note.authorized n session path
                    = .authorized n' (publicSession r) r.socketPath := by
                  split at h <;> exact List.mem_singleton.mp h
                obtain ⟨rfl, -, -⟩ := Note.authorized.inj hnote
                exact ⟨id, owner, user, mark, r, rfl, hfound, by omega⟩
      | terminate id reason =>
          exfalso
          refine hnone h ?_
          simp only [Manager.resume, Manager.terminateBy]
          split <;> exact .inr (.inr ⟨_, rfl⟩)
      | terminateOwned id owner user =>
          exfalso
          refine hnone h ?_
          simp only [Manager.resume, Manager.terminateBy]
          split <;> exact .inr (.inr ⟨_, rfl⟩)
      | closeAll reason => cases List.mem_singleton.mp h
  | applying q =>
      exfalso
      refine hnone h ?_
      simp only [Manager.resume, Manager.rejects]
      split
      · exact .inr (.inl ⟨_, rfl⟩)
      · exact .inr (.inl ⟨_, rfl⟩)
      · exact .inl rfl
  | resolving q =>
      exfalso
      refine hnone h ?_
      simp only [Manager.resume, Manager.rejects]
      split
      · exact .inr (.inl ⟨_, rfl⟩)
      · exact .inl rfl
  | identifying q =>
      exfalso
      refine hnone h ?_
      simp only [Manager.resume, Manager.rejects]
      split
      · exact .inr (.inl ⟨_, rfl⟩)
      · exact .inl rfl
  | rooting q =>
      exfalso
      refine hnone h ?_
      simp only [Manager.resume, Manager.rejects, Manager.allocate]
      split
      · exact .inr (.inl ⟨_, rfl⟩)
      · split
        · exact .inr (.inl ⟨_, rfl⟩)
        · exact .inl rfl
  | probing q id =>
      exfalso
      refine hnone h ?_
      simp only [Manager.resume, Manager.launch, Manager.rejects,
        Manager.register]
      split
      · exact .inr (.inl ⟨_, rfl⟩)
      · exact .inr (.inl ⟨_, rfl⟩)
      · split
        · exact .inr (.inl ⟨_, rfl⟩)
        · split
          · exact .inl rfl
          · exact .inr (.inl ⟨_, rfl⟩)
  | awaiting k deadline =>
      exfalso
      simp only [Manager.resume] at h
      cases hsocket : env.socket with
      | absent =>
          rw [hsocket] at h
          cases h
      | unavailable =>
          rw [hsocket] at h
          exact hnone h (.inr (.inl ⟨_, rfl⟩))
      | found safe =>
          rw [hsocket] at h
          cases safe with
          | false => exact hnone h (.inr (.inl ⟨_, rfl⟩))
          | true =>
              obtain ⟨r, -, hr⟩ := Option.map_eq_some_iff.mp
                (Option.mem_toList.mp h)
              cases hr
  | pausing k deadline =>
      exfalso
      refine hnone h ?_
      simp only [Manager.resume, Manager.look, Manager.failStart]
      split
      · exact .inr (.inl ⟨_, rfl⟩)
      · split
        · exact .inr (.inl ⟨_, rfl⟩)
        · exact .inl rfl

-- ====== runs

theorem entitled_of_orderly {m : Manager} (h : Orderly m) {now n : Nat}
    {r : Record}
    (husable : m.usable sessionId ownerSessionId userId = some (n, r))
    (hnow : now < r.expiresAt) :
    Entitled m now ownerSessionId userId n r := by
  obtain ⟨hr, hopen, hrunning, howner, huser⟩ := usable_eq_some husable
  refine ⟨hr, howner, huser, fun hended => ?_, hrunning, hnow,
    h.live n r hr hopen⟩
  have hclosed := h.closed n r hr (.inl hended)
  rw [hopen] at hclosed
  cases hclosed

theorem entitles_of_orderly {f : Sessions} (h : Orderly f.shared)
    (e : Event) : Entitles f e := by
  intro id n session path hmem
  cases e with
  | start c => cases hmem
  | world x => cases hmem
  | restart => cases hmem
  | answer other env =>
      change (id, _) ∈ (ttydProtocol.step f (.answer other env)).2 at hmem
      cases hstage : f.stage other with
      | none =>
          rw [ttydProtocol.step_answer_none env hstage] at hmem
          cases hmem
      | some k =>
          rw [ttydProtocol.step_answer env hstage] at hmem
          obtain ⟨note, hnote, heq⟩ := List.mem_map.mp hmem
          obtain ⟨rfl, rfl⟩ := Prod.mk.inj heq
          obtain ⟨sessionId, owner, user, mark, r, rfl, husable, hnow⟩ :=
            authorized_resume hnote
          exact ⟨env, sessionId, owner, user, mark, r, rfl, hstage,
            entitled_of_orderly h husable hnow⟩

theorem keeps_orderly :
    ttydProtocol.Keeps Careful Orderly fun _ _ => True where
  start _ _ _ _ := trivial
  resume f id env k hok hstage h _ := by
    refine ⟨orderly_resume h k env ?_, fun _ _ => trivial,
      fun _ _ => trivial⟩
    rintro q name rfl hsocket hpid
    have hplacing : placing f (.answer id env) = some (q, name) := by
      simp only [placing, hstage]
      exact if_pos ⟨hsocket, hpid⟩
    exact hok (q, name) hplacing
  world _ x _ h := ⟨orderly_world h x, fun _ _ => trivial⟩
  restart f _ _ := orderly_fresh f.shared.limits

/-- Where every start that takes its place may, the sessions keep their
bounds, their owners and their order, however calls, exits, timers and
revocations overlap. -/
theorem sessions_stay_lawful (limits : Limits) (events : List Event)
    (h : ttydProtocol.machine.Allowed Careful (opened limits) events) :
    Lawful limits events := by
  have hstart : Protocol.Sound Orderly (fun _ _ => True) (opened limits) :=
    Protocol.sound_fresh (orderly_fresh limits)
  have hstates : ∀ f ∈ ttydProtocol.machine.states (opened limits) events,
      Orderly f.shared := fun f hf =>
    (Machine.forall_mem_states_of_allowed
      (fun _ _ hok hs => Protocol.sound_next keeps_orderly hok hs) h hstart
      f hf).shared
  refine ⟨fun f hf => (hstates f hf).bounded,
    fun f hf => (hstates f hf).removed, fun x hx => ?_⟩
  have hall := Machine.forall_mem_steps_of_allowed
    (Machine.allowed_and_invariant
      (fun _ _ hok hs => Protocol.sound_next keeps_orderly hok hs) h hstart)
  exact entitles_of_orderly (hall x hx).2.shared x.2

section Samples

/-- One terminal for each user. -/
def oneEach : Limits where
  startupMs := 60000
  lifetimeMs := 14400000
  killGraceMs := 2000
  maxSessions := 20
  maxUserSessions := 1
  startup := by decide
  lifetime := by decide
  killGrace := by decide
  sessions := by decide
  userSessions := by decide

def sampleEnv (randomId : String) (socket : Socket) : Env where
  now := 1000
  root := true
  runtime := .ok true
  prepared := .ok ()
  randomId := randomId
  socket := socket
  pid := some 4711

def firstId : String := "00000000-0000-4000-8000-000000000001"

def secondId : String := "00000000-0000-4000-8000-000000000002"

/-- A start up to the look at the path of its socket. -/
def prepares (id : Nat) (randomId : String) : List Event :=
  List.replicate 5 (.answer id (sampleEnv randomId .absent))

def startCall : Event :=
  .start (.start (.str "session-1") (.str "owner-1") (.obj []))

/-- A start that runs on its own, is used, and whose child exits. -/
def aloneStart : List Event :=
  startCall :: prepares 0 firstId
    ++ [.answer 0 (sampleEnv firstId .absent),
      .answer 0 (sampleEnv firstId (.found true)),
      .start (.authorize (.str firstId) (.str "session-1") (.str "owner-1")
        true),
      .answer 1 (sampleEnv firstId .absent), .world (.exit 0)]

theorem sessions_stay_lawful_alone : Lawful oneEach aloneStart :=
  sessions_stay_lawful oneEach aloneStart (by decide +kernel)

/-- Two starts of one user, each of which looks at the limits before the
other has its place. -/
def overlappingStarts : List Event :=
  startCall :: startCall :: prepares 0 firstId ++ prepares 1 secondId
    ++ [.answer 0 (sampleEnv firstId .absent),
      .answer 1 (sampleEnv secondId .absent)]

/-- The user has two live sessions by then, and may have one. -/
theorem overlapping_starts : ¬Lawful oneEach overlappingStarts := by
  intro h
  have hlast := h.bounded _ (Machine.run_mem_states ttydProtocol.machine
    (opened oneEach) overlappingStarts)
  have husers := hlast.users "owner-1"
  revert husers
  decide +kernel

end Samples

end Yunpanel.Terminal
