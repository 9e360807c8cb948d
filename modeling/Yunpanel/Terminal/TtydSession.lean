/-
Terminal sessions: the manager of the ttyd processes, with its calls in
flight.

# How a start is split

`start` checks the limits, then waits: for the runtime, the target, the
gateway's identity and the socket root, and for a look at the path of its
socket. Only then, in one segment, is the process started and the record of
the session put into the map, with its handlers and timers; after that it
waits for the socket to appear. The other calls take one segment each.

# What happens in between

A child exits or reports an error, a timer fires, and the registry of live
sessions ends what was started from a session or by a user that is revoked.
A closure of the source that holds a record holds its number here:
`records` lists every record that was ever made, `sessions` is the map.

# Bookkeeping

`removed`, `ended`, `known`, `revokedSessions` and `revokedOwners` are not in
the source: the records that were cleaned up and that were terminated, the
sessions and users that started something, and those that were revoked.
-/
import Yunpanel.Js.Fields
import Yunpanel.Lib.Flight
import Yunpanel.Lib.Result

namespace Yunpanel.Terminal

open Json Lib Lib.Result

-- ====== failures

/-- An error of the manager, or one that something below it threw. -/
inductive Failure where
  | refused (code message : String) (status : Nat)
  | thrown (message : String)
  deriving DecidableEq, Repr

/-- `new TtydSessionError(code, message, status)` -/
def refuse (code message : String) (status : Nat := 400) : Failure :=
  .refused code message status

-- ====== settings

/-- `startupMs`, `lifetimeMs`, `killGraceMs`, `maxSessions` and
`maxUserSessions`, within the bounds that are asked of them. -/
structure Limits where
  startupMs : Nat
  lifetimeMs : Nat
  killGraceMs : Nat
  maxSessions : Nat
  maxUserSessions : Nat
  startup : 5000 ≤ startupMs ∧ startupMs ≤ 300000
  lifetime : 60000 ≤ lifetimeMs ∧ lifetimeMs ≤ 43200000
  killGrace : killGraceMs ≤ 10000
  sessions : 1 ≤ maxSessions ∧ maxSessions ≤ 100
  userSessions : 1 ≤ maxUserSessions ∧ maxUserSessions ≤ maxSessions

/-- A text without control characters, of bounded length. -/
def isIdentity (longest : Nat) (s : String) : Bool :=
  1 ≤ Text.length s && Text.length s ≤ longest
    && s.toList.all fun c => !Text.isControl c

/-- `boundedIdentity(value, field)` -/
def boundedIdentity (field : String) (value : Json) :
    Except Failure String := do
  let invalid := refuse "ttyd_session_identity_invalid"
    (field ++ " is invalid")
  let text ← demand invalid value.str?
  ensure invalid (isIdentity 256 text)
  return text

/-- `identity(value, field)` of the registry of live sessions -/
def isLiveIdentity (s : String) : Bool := isIdentity 128 s

/-- `SESSION_ID_PATTERN`: a version 4 UUID in either case. -/
def isSessionId (s : String) : Bool :=
  let shape := List.replicate 8 Text.isHex ++ (· == '-')
    :: (List.replicate 4 Text.isHex ++ (· == '-')
    :: ((· == '4') :: List.replicate 3 Text.isHex ++ (· == '-')
    :: (isVariant :: List.replicate 3 Text.isHex ++ (· == '-')
    :: List.replicate 12 Text.isHex)))
  Text.shape shape (Text.lower s.toList)

-- ====== records

structure Record where
  id : String
  ownerSessionId : String
  userId : String
  target : Json
  socketPath : String
  pid : Nat
  startedAt : Nat
  expiresAt : Nat
  connectedAt : Option Nat
  closed : Bool
  exited : Bool
  closeReason : Option String
  startupTimer : Bool
  lifetimeTimer : Bool
  killTimer : Bool
  deriving DecidableEq

/-- An entry of the registry of live sessions that is one of ours: its
callback terminates the record of that number. -/
structure Connection where
  sessionId : String
  userId : String
  record : Nat
  deriving DecidableEq

/-- What a session is shown as. -/
structure PublicSession where
  sessionId : String
  target : Json
  basePath : String
  expiresAt : Nat
  deriving DecidableEq

def publicSession (record : Record) : PublicSession where
  sessionId := record.id
  target := record.target
  basePath := "/tools/ttyd/" ++ record.id ++ "/"
  expiresAt := record.expiresAt

-- ====== manager

structure Manager where
  limits : Limits
  records : List Record
  sessions : List (String × Nat)
  connections : List Connection
  removed : List Nat
  ended : List Nat
  known : List (String × String)
  revokedSessions : List String
  revokedOwners : List (String × String)

namespace Manager

/-- A manager that was just made. -/
def fresh (limits : Limits) : Manager where
  limits := limits
  records := []
  sessions := []
  connections := []
  removed := []
  ended := []
  known := []
  revokedSessions := []
  revokedOwners := []

/-- `sessions.get(id)` -/
def get (m : Manager) (id : String) : Option (Nat × Record) :=
  (m.sessions.lookup id).bind fun n => (m.records[n]?).map fun r => (n, r)

/-- `sessions.has(id)` -/
def has (m : Manager) (id : String) : Bool := (m.sessions.lookup id).isSome

/-- A record of the map that counts for a user. -/
def countsFor (m : Manager) (userId : String) (entry : String × Nat) : Bool :=
  (m.records[entry.2]?).any fun r => r.userId == userId && !r.closed

def userSessionCount (m : Manager) (userId : String) : Nat :=
  m.sessions.countP (m.countsFor userId)

def modifyRecord (m : Manager) (n : Nat) (f : Record → Record) : Manager :=
  { m with records := m.records.modify n f }

/-- `sessions.set(id, record)` -/
def setSession (sessions : List (String × Nat)) (id : String) (n : Nat) :
    List (String × Nat) :=
  if (sessions.lookup id).isSome then
    sessions.map fun entry => if entry.1 == id then (id, n) else entry
  else sessions ++ [(id, n)]

/-- `terminateRecord(record, reason)` -/
def terminateRecord (m : Manager) (n : Nat) (reason : String) :
    Manager × Bool :=
  match m.records[n]? with
  | none => (m, false)
  | some r =>
      if r.closed then (m, false)
      else
        ({ m.modifyRecord n fun r => { r with
              closed := true
              closeReason := some reason
              killTimer := true } with
            ended := m.ended ++ [n] }, true)

/-- The exit of a child: `record.exited = true; record.closed = true`, and
`cleanupRecord(record)`. -/
def exited (m : Manager) (n : Nat) : Manager :=
  match m.records[n]? with
  | none => m
  | some r =>
      -- a child exits once
      if r.exited then m
      else
        { m.modifyRecord n fun r => { r with
              exited := true
              closed := true
              startupTimer := false
              lifetimeTimer := false
              killTimer := false } with
          sessions := m.sessions.filter fun entry => entry.1 != r.id
          connections := m.connections.filter fun c => c.record != n
          removed := m.removed ++ [n] }

/-- `terminateWhere(predicate, reason)` of the live sessions -/
def terminateWhere (m : Manager) (p : Connection → Bool) : Manager :=
  let kept := { m with connections := m.connections.filter fun c => !p c }
  (m.connections.filter p).foldl
    (fun m c => (m.terminateRecord c.record "session_revoked").1) kept

/-- A timer of a record fires, if it is set. -/
def fires (m : Manager) (n : Nat) (armed : Record → Bool)
    (disarm : Record → Record) (act : Manager → Record → Manager) :
    Manager :=
  match m.records[n]? with
  | none => m
  | some r => if armed r then act (m.modifyRecord n disarm) r else m

end Manager

-- ====== world

inductive World where
  | exit (n : Nat)
  | error (n : Nat)
  | startupTimer (n : Nat)
  | lifetimeTimer (n : Nat)
  | killTimer (n : Nat)
  | revokeSession (sessionId : String)
  | revokeUser (userId : String)
  | closeLive

def world (m : Manager) : World → Manager
  | .exit n => m.exited n
  | .error n => (m.terminateRecord n "process_error").1
  | .startupTimer n =>
      m.fires n (·.startupTimer) (fun r => { r with startupTimer := false })
        fun m r =>
          if r.connectedAt.isNone then
            (m.terminateRecord n "connect_timeout").1
          else m
  | .lifetimeTimer n =>
      m.fires n (·.lifetimeTimer) (fun r => { r with lifetimeTimer := false })
        fun m _ => (m.terminateRecord n "lifetime_timeout").1
  | .killTimer n =>
      -- only a signal is sent
      m.fires n (·.killTimer) (fun r => { r with killTimer := false })
        fun m _ => m
  | .revokeSession sessionId =>
      let m := { m with revokedSessions := sessionId :: m.revokedSessions }
      if isLiveIdentity sessionId then
        m.terminateWhere fun c => c.sessionId == sessionId
      else m
  | .revokeUser userId =>
      let revoked := m.known.filter fun known => known.2 == userId
      let m := { m with revokedOwners := revoked ++ m.revokedOwners }
      if isLiveIdentity userId then
        m.terminateWhere fun c => c.userId == userId
      else m
  | .closeLive => m.terminateWhere fun _ => true

-- ====== calls

inductive Call where
  | start (ownerSessionId userId target : Json)
  | authorize (sessionId ownerSessionId userId : Json) (markConnected : Bool)
  | terminate (sessionId : String) (reason : String)
  | terminateOwned (sessionId ownerSessionId userId : Json)
  | closeAll (reason : String)

/-- What is seen at the path of a socket. -/
inductive Socket where
  | absent
  | unavailable
  | found (safe : Bool)
  deriving DecidableEq

/-- What a segment finds around it. -/
structure Env where
  now : Nat
  root : Bool
  /-- What `runtimeManager.apply()` came to: whether ttyd is ready. -/
  runtime : Except Failure Bool
  /-- How looking up the target, the identity and the socket root ended. -/
  prepared : Except Failure Unit
  randomId : String
  socket : Socket
  /-- The process that was started. -/
  pid : Option Nat

/-- Who starts a session, of what. -/
structure Request where
  ownerSessionId : String
  userId : String
  target : Json

inductive Stage where
  | entered (c : Call)
  | applying (q : Request)
  | resolving (q : Request)
  | identifying (q : Request)
  | rooting (q : Request)
  | probing (q : Request) (id : String)
  | awaiting (n : Nat) (deadline : Nat)
  | pausing (n : Nat) (deadline : Nat)

inductive Note where
  | started (session : PublicSession)
  | rejected (e : Failure)
  | authorized (n : Nat) (session : PublicSession) (socketPath : String)
  | unauthorized
  | terminated (done : Bool)
  | closedAll
  deriving DecidableEq

abbrev Segment : Type := Manager × Option Stage × List Note

namespace Manager

def rejects (m : Manager) (e : Failure) : Segment := (m, none, [.rejected e])

/-- The start of a start, up to its first wait. -/
def accept (m : Manager) (env : Env) (ownerSessionId userId target : Json) :
    Segment :=
  match (do
      let owner ← boundedIdentity "ownerSessionId" ownerSessionId
      let user ← boundedIdentity "userId" userId
      return (⟨owner, user, target⟩ : Request) : Except Failure Request) with
  | .error e => m.rejects e
  | .ok q =>
      let m := { m with known := (q.ownerSessionId, q.userId) :: m.known }
      if !env.root then
        m.rejects (refuse "ttyd_root_runtime_required"
          "ttyd sessions require the root panel service" 503)
      else if m.limits.maxSessions ≤ m.sessions.length
          ∨ m.limits.maxUserSessions ≤ m.userSessionCount q.userId then
        m.rejects (refuse "ttyd_session_limit"
          "Terminal session limit reached" 429)
      else (m, some (.applying q), [])

/-- The identifier is drawn, and the path of the socket looked at. -/
def allocate (m : Manager) (q : Request) (randomId : String) : Segment :=
  let id := String.ofList (Text.lower randomId.toList)
  if !isSessionId id || m.has id then
    m.rejects (refuse "ttyd_session_id_invalid"
      "ttyd session identity could not be allocated" 503)
  else (m, some (.probing q id), [])

def newRecord (m : Manager) (q : Request) (id : String) (pid now : Nat) :
    Record where
  id := id
  ownerSessionId := q.ownerSessionId
  userId := q.userId
  target := q.target
  socketPath := "/run/yunpanel/ttyd/" ++ id ++ ".sock"
  pid := pid
  startedAt := now
  expiresAt := now + m.limits.lifetimeMs
  connectedAt := none
  closed := false
  exited := false
  closeReason := none
  startupTimer := false
  lifetimeTimer := false
  killTimer := false

/-- The registry of live sessions takes the session. -/
def accepted (q : Request) : Bool :=
  isLiveIdentity q.ownerSessionId && isLiveIdentity q.userId

/-- `new TypeError(…)` of the registry of live sessions -/
def liveInvalid (q : Request) : Failure :=
  .thrown (if isLiveIdentity q.ownerSessionId then "userId is invalid"
    else "sessionId is invalid")

/-- The record is made and put into the map; its handlers and its timers
are set, unless the registry of live sessions throws before that. -/
def register (m : Manager) (q : Request) (id : String) (pid now : Nat) :
    Segment :=
  let n := m.records.length
  let record := m.newRecord q id pid now
  let sessions := setSession m.sessions id n
  if accepted q then
    ({ m with
        records := m.records
          ++ [{ record with startupTimer := true, lifetimeTimer := true }]
        sessions
        connections := m.connections
          ++ [⟨q.ownerSessionId, q.userId, n⟩] },
      some (.awaiting n (now + 5000)), [])
  else
    ({ m with records := m.records ++ [record], sessions }, none,
      [.rejected (liveInvalid q)])

/-- `spawnProcess`, once nothing is at the path of the socket. -/
def launch (m : Manager) (q : Request) (id : String) (env : Env) : Segment :=
  match env.socket with
  | .found _ =>
      m.rejects (refuse "ttyd_session_socket_conflict"
        "ttyd session socket already exists" 409)
  | .unavailable =>
      m.rejects (refuse "ttyd_session_socket_unavailable"
        "ttyd session socket state could not be inspected" 503)
  | .absent =>
      match env.pid with
      | none =>
          m.rejects (refuse "ttyd_session_spawn_failed"
            "ttyd session could not be started" 503)
      | some pid => m.register q id pid env.now

/-- `catch (error) { terminateRecord(record, 'startup_failed'); throw }` -/
def failStart (m : Manager) (n : Nat) (e : Failure) : Segment :=
  ((m.terminateRecord n "startup_failed").1, none, [.rejected e])

/-- The head of the loop that waits for the socket. -/
def look (m : Manager) (n deadline now : Nat) : Segment :=
  if deadline ≤ now then
    m.failStart n (refuse "ttyd_session_socket_timeout"
      "ttyd session socket did not become ready" 503)
  else if (m.records[n]?).any (·.exited) then
    m.failStart n (refuse "ttyd_session_start_failed"
      "ttyd exited before its private socket became ready" 503)
  else (m, some (.awaiting n deadline), [])

/-- What the loop makes of what it sees. -/
def seen (m : Manager) (n deadline : Nat) : Socket → Segment
  | .found true =>
      (m, none, ((m.records[n]?).map fun r =>
        Note.started (publicSession r)).toList)
  | .found false =>
      m.failStart n (refuse "ttyd_session_socket_unsafe"
        "ttyd session socket ownership or mode is unsafe" 503)
  | .unavailable =>
      m.failStart n (refuse "ttyd_session_socket_unavailable"
        "ttyd session socket could not be inspected" 503)
  | .absent => (m, some (.pausing n deadline), [])

/-- The record a caller may use. -/
def usable (m : Manager) (sessionId ownerSessionId userId : Json) :
    Option (Nat × Record) := do
  let id ← sessionId.str?
  let (n, r) ← (if isSessionId id then m.get id else none)
  if r.closed || r.exited || .str r.ownerSessionId != ownerSessionId
      || .str r.userId != userId then none
  else some (n, r)

def authorize (m : Manager) (now : Nat)
    (sessionId ownerSessionId userId : Json) (markConnected : Bool) :
    Segment :=
  match m.usable sessionId ownerSessionId userId with
  | none => (m, none, [.unauthorized])
  | some (n, r) =>
      if r.expiresAt ≤ now then (m, none, [.unauthorized])
      else
        let note := Note.authorized n (publicSession r) r.socketPath
        if markConnected && r.connectedAt.isNone then
          (m.modifyRecord n fun r => { r with
              connectedAt := some now
              startupTimer := false }, none, [note])
        else (m, none, [note])

def terminateBy (m : Manager) (found : Option (Nat × Record))
    (reason : String) : Segment :=
  match found with
  | none => (m, none, [.terminated false])
  | some (n, _) =>
      let (m, done) := m.terminateRecord n reason
      (m, none, [.terminated done])

def closeAll (m : Manager) (reason : String) : Manager :=
  m.sessions.foldl (fun m entry => (m.terminateRecord entry.2 reason).1) m

/-- One segment of a call. -/
def resume (m : Manager) : Stage → Env → Segment
  | .entered (.start ownerSessionId userId target), env =>
      m.accept env ownerSessionId userId target
  | .entered (.authorize sessionId ownerSessionId userId mark), env =>
      m.authorize env.now sessionId ownerSessionId userId mark
  | .entered (.terminate sessionId reason), _ =>
      m.terminateBy (m.get sessionId) reason
  | .entered (.terminateOwned sessionId ownerSessionId userId), _ =>
      m.terminateBy (m.usable sessionId ownerSessionId userId) "owner_closed"
  | .entered (.closeAll reason), _ =>
      (m.closeAll reason, none, [.closedAll])
  | .applying q, env =>
      match env.runtime with
      | .error e => m.rejects e
      | .ok false =>
          m.rejects (refuse "ttyd_runtime_not_ready"
            "ttyd runtime is not ready" 503)
      | .ok true => (m, some (.resolving q), [])
  | .resolving q, env =>
      match env.prepared with
      | .error e => m.rejects e
      | .ok () => (m, some (.identifying q), [])
  | .identifying q, env =>
      match env.prepared with
      | .error _ =>
          m.rejects (refuse "ttyd_gateway_identity_unavailable"
            "YunPanel ttyd gateway identity could not be resolved" 503)
      | .ok () => (m, some (.rooting q), [])
  | .rooting q, env =>
      match env.prepared with
      | .error e => m.rejects e
      | .ok () => m.allocate q env.randomId
  | .probing q id, env => m.launch q id env
  | .awaiting n deadline, env => m.seen n deadline env.socket
  | .pausing n deadline, env => m.look n deadline env.now

end Manager

/-- The manager with its calls in flight; a process that starts again has
no sessions. -/
def ttydProtocol : Protocol Manager Call Stage Env World Note where
  enter := .entered
  resume := Manager.resume
  world := world
  reopen m := .fresh m.limits

end Yunpanel.Terminal
