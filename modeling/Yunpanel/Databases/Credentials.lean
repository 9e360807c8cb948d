/-
The registry of database credentials, with its calls in flight.

# What is kept

One credential for each binding: a user of the database server named after
the binding, its privileges, and its password sealed under the key of the
registry.

# How a call is split

A call of the registry looks its binding up in another registry and waits
for the answer. A creation does all it does after that wait. The other
three find their credential and compare its revision before it, and what
they change afterwards is what they found: the object for new privileges
and for a new password, the position in the list for a deletion.

An object is known here by its id, which `randomUUID` gives out once. A
deleted credential leaves the list, but a call that found it before still
holds the object: those are `detached`.
-/
import Yunpanel.Lib.Flight
import Yunpanel.Lib.WriteChain
import Yunpanel.Lib.Table
import Yunpanel.Secrets.Stores
import Yunpanel.Databases.Binding

namespace Yunpanel.Databases

open Lib Lib.Result
open Secrets hiding Failure

-- ====== privileges

inductive Privilege where
  | select | insert | update | delete | create | alter | index | drop
  | references | createTemporaryTables | lockTables | execute
  deriving DecidableEq, Repr

def Privilege.text : Privilege → String
  | select => "SELECT"
  | insert => "INSERT"
  | update => "UPDATE"
  | delete => "DELETE"
  | create => "CREATE"
  | alter => "ALTER"
  | index => "INDEX"
  | drop => "DROP"
  | references => "REFERENCES"
  | createTemporaryTables => "CREATE TEMPORARY TABLES"
  | lockTables => "LOCK TABLES"
  | execute => "EXECUTE"

/-- `ALLOWED_PRIVILEGES` -/
def allowedPrivileges : List Privilege :=
  [.select, .insert, .update, .delete, .create, .alter, .index, .drop,
    .references, .createTemporaryTables, .lockTables, .execute]

/-- `DEFAULT_PRIVILEGES` -/
def defaultPrivileges : List Privilege :=
  allowedPrivileges.filter (· != .execute)

def Privilege.read? (value : Json) : Option Privilege :=
  value.str?.bind fun s => allowedPrivileges.find? fun p => p.text == s

/-- A list of privileges as it is stored: not empty, and in the order of
`ALLOWED_PRIVILEGES`. -/
structure Privileges where
  entries : List Privilege
  nonempty : entries ≠ []
  ordered : allowedPrivileges.filter entries.contains = entries
  deriving DecidableEq

theorem mem_allowedPrivileges (p : Privilege) : p ∈ allowedPrivileges := by
  cases p <;> decide

/-- `ALLOWED_PRIVILEGES.filter((entry) => unique.includes(entry))` -/
def Privileges.sorted (entries : List Privilege) (h : entries ≠ []) :
    Privileges where
  entries := allowedPrivileges.filter entries.contains
  nonempty := by
    obtain ⟨p, hp⟩ := List.exists_mem_of_ne_nil entries h
    apply List.ne_nil_of_mem (a := p)
    rw [List.mem_filter]
    exact ⟨mem_allowedPrivileges p, by simpa using hp⟩
  ordered := by
    apply List.filter_congr
    intro p hp
    simp [hp]

/-- `privileges`, of a list whose entries are supported privileges. -/
def orderedPrivileges (entries : List Privilege) :
    Except Failure Privileges :=
  if h : entries ≠ [] ∧ entries.length ≤ allowedPrivileges.length then
    if entries.Nodup then .ok (Privileges.sorted entries h.1)
    else
      .error (refuse "invalid_database_privileges"
        "Database privileges must not contain duplicates")
  else
    .error (refuse "invalid_database_privileges"
      "Database privileges must be a non-empty supported privilege list")

/-- `privileges(value)` -/
def privileges (value : Json) : Except Failure Privileges := do
  let entries ← demand (refuse "invalid_database_privileges"
      "Database privileges must be a non-empty supported privilege list")
    (value.arr?.bind fun entries => entries.mapM Privilege.read?)
  orderedPrivileges entries

-- ====== records

/-- `DATABASE_USER_HOST` -/
def databaseUserHost : String := "localhost"

structure Credential where
  id : Uuid
  databaseBindingId : Uuid
  serverId : Uuid
  databaseName : String
  websiteId : Uuid
  applicationId : Uuid
  siteUnixUser : String
  username : String
  host : String
  privileges : List Privilege
  revision : Nat
  envelope : Envelope
  passwordUpdatedAt : Instant
  createdAt : Instant
  updatedAt : Instant
  deriving DecidableEq

/-- What the registry was created with, the bindings it looks up among
it. -/
structure Config where
  crypto : Crypto
  key : Option Key
  /-- `createHash('sha256').update(text).digest('hex')` -/
  sha256 : String → Sha256
  bindings : List Binding

namespace Config

/-- `usernameFor` -/
def usernameFor (config : Config) (bindingId : Uuid) : String :=
  String.ofList ("ydb_".toList
    ++ (config.sha256 bindingId.text).text.toList.take 24)

/-- What `getDatabaseBinding` finds. -/
def getBinding (config : Config) (bindingId : Uuid) : Option Binding :=
  config.bindings.find? fun b => b.id == bindingId

end Config

/-- `USERNAME_PATTERN` -/
def isUsername (s : String) : Bool :=
  let head := "ydb_".toList
  head.isPrefixOf s.toList && (s.toList.drop head.length).length == 24
    && (s.toList.drop head.length).all Text.isHex

/-- `PASSWORD_PATTERN` -/
def isPassword (s : String) : Bool :=
  Text.inClass (fun c => Text.isAlnum c || c == '_' || c == '-') 43 43 s

def stateInvalid (message : String) : Failure :=
  refuse "database_credential_state_invalid" message 409

def password (value : String) : Except Failure String := do
  ensure (stateInvalid "Database credential secret is invalid")
    (isPassword value)
  return value

def requireKey (config : Config) : Except Failure Key :=
  demand (refuse "secret_store_unavailable"
    "Secret master key is not configured" 503) config.key

namespace Credential

/-- `aad(record)` -/
def aad (r : Credential) : String :=
  ":".intercalate ["database-credential", r.id.text,
    r.databaseBindingId.text, r.username, r.host]

/-- The tests `decryptPassword` makes of an envelope. -/
def opens (e : Envelope) : Bool :=
  framed e && 24 ≤ e.ciphertext.length && e.ciphertext.length ≤ 128

end Credential

def encryptPassword (config : Config) (nonce : Nonce) (r : Credential)
    (value : String) : Except Failure Envelope := do
  let key ← requireKey config
  let normalized ← password value
  return sealText config.crypto key nonce r.aad normalized

def decryptPassword (config : Config) (r : Credential) :
    Except Failure String := do
  let key ← requireKey config
  let text ← demand (refuse "secret_decryption_failed"
      "Stored database credential could not be decrypted" 500)
    (openText config.crypto key r.aad Credential.opens (fun _ => true)
      r.envelope)
  password text

-- ====== load

/-- `validateEnvelope`: the length of the ciphertext is that of its
base64. -/
def validateEnvelope (e : Envelope) : Except Failure Unit :=
  ensure (stateInvalid "Database credential envelope is invalid")
    (framed e && 32 ≤ base64Length e.ciphertext.length
      && base64Length e.ciphertext.length ≤ 256)

/-- `normalizePersisted` -/
def normalizePersisted (config : Config) (r : Credential) :
    Except Failure Credential := do
  ensure (stateInvalid "Database credential state is invalid")
    (r.databaseName != "" && isSiteUser r.siteUnixUser
      && isUsername r.username && r.host == databaseUserHost
      && r.revision ≤ 9007199254740991 && 1 ≤ r.revision)
  let normalized ← orderedPrivileges r.privileges
  validateEnvelope r.envelope
  ensure (stateInvalid "Database username does not match binding identity")
    (r.username == config.usernameFor r.databaseBindingId)
  return { r with privileges := normalized.entries }

def assertBindingMatches (r : Credential) (b : Binding) :
    Except Failure Unit :=
  ensure (refuse "database_credential_binding_drift"
      ("Database credential ownership no longer matches the database "
        ++ "binding") 409)
    (r.databaseBindingId == b.id && r.serverId == b.serverId
      && r.databaseName == b.databaseName.text
      && r.websiteId == b.websiteId && r.applicationId == b.applicationId
      && r.siteUnixUser == b.unixUser.text)

/-- The checks `init` makes of every record with the binding it names. -/
def verifyPersisted (config : Config) (r : Credential) :
    Except Failure Unit := do
  let binding ← demand
    (stateInvalid "Persisted database credential references a missing binding")
    (config.getBinding r.databaseBindingId)
  assertBindingMatches r binding
  let _ ← decryptPassword config r

/-- `init`, of a file that is a store. -/
def init (config : Config) (stored : List Credential) :
    Except Failure (List Credential) := do
  let credentials ← stored.mapM (normalizePersisted config)
  ensure (stateInvalid "Database credential identities must be unique")
    (decide (credentials.map Credential.id).Nodup
      && decide (credentials.map Credential.databaseBindingId).Nodup
      && decide (credentials.map fun r => r.username ++ "@" ++ r.host).Nodup)
  credentials.forM (verifyPersisted config)
  return credentials

-- ====== memory

/-- The credentials, and the objects that were deleted while the process
runs. -/
structure Memory where
  credentials : List Credential
  detached : List Credential
  deriving DecidableEq

namespace Memory

def ofFile (credentials : List Credential) : Memory := ⟨credentials, []⟩

def objects (m : Memory) : List Credential := m.credentials ++ m.detached

/-- The object a call found by this id. -/
def object? (m : Memory) (id : Uuid) : Option Credential :=
  m.objects.find? fun r => r.id == id

/-- Assign to the object of an id, wherever it is. -/
def assign (m : Memory) (id : Uuid) (f : Credential → Credential) : Memory :=
  let g := fun r : Credential => if r.id = id then f r else r
  ⟨m.credentials.map g, m.detached.map g⟩

/-- `state.credentials.push(record)` -/
def push (m : Memory) (r : Credential) : Memory :=
  { m with credentials := m.credentials ++ [r] }

/-- `state.credentials.splice(index, 1)` -/
def splice (m : Memory) (index : Nat) : Memory :=
  ⟨m.credentials.eraseIdx index, m.detached ++ m.credentials[index]?.toList⟩

end Memory

/-- `publicCredential`, without the fields that never change. -/
structure PublicCredential where
  id : Uuid
  databaseBindingId : Uuid
  username : String
  privileges : List Privilege
  revision : Nat
  passwordUpdatedAt : Instant
  updatedAt : Instant
  deriving DecidableEq

def publicCredential (r : Credential) : PublicCredential :=
  { id := r.id
    databaseBindingId := r.databaseBindingId
    username := r.username
    privileges := r.privileges
    revision := r.revision
    passwordUpdatedAt := r.passwordUpdatedAt
    updatedAt := r.updatedAt }

inductive Reply where
  | credential (c : PublicCredential)
  | deleted (id databaseBindingId : Uuid)

abbrev CredentialEffect := Effect Memory Failure Reply

/-- What is answered of an object once its write has settled. -/
def current (r : Credential) (m : Memory) : Except Failure Reply :=
  .ok (.credential (publicCredential ((m.object? r.id).getD r)))

-- ====== calls

/-- A call that changes something; every argument as the caller sent
it. -/
inductive Call where
  | createCredential (databaseBindingId : Json) (privileges : Option Json)
      (confirmation : Json)
  | setPrivileges (credentialId expectedRevision : Json)
      (privileges : Option Json) (confirmation : Json)
  | rotatePassword (credentialId expectedRevision confirmation : Json)
  | deleteCredential (credentialId expectedRevision confirmation : Json)

/-- What a call waits with for its binding. -/
inductive Lookup where
  | creating (databaseBindingId : Uuid) (privileges : Option Json)
      (confirmation : Json)
  | setting (id : Uuid) (revision : Nat) (privileges : Privileges)
  | rotating (id : Uuid) (revision : Nat)
  | deleting (index : Nat) (id : Uuid) (revision : Nat)
  deriving DecidableEq

inductive Stage where
  | entered (c : Call)
  | looking (l : Lookup)

/-- What a segment finds around it: whether the look-up failed, the clock,
and what the platform draws. -/
structure Env where
  unavailable : Bool
  now : Instant
  randomUUID : Uuid
  nonce : Nonce
  generatePassword : String

def requireId (value : Json) (code field : String) : Except Failure Uuid :=
  demand (refuse code (field ++ " is invalid")) (Uuid.read? value)

def credentialIdOf (value : Json) : Except Failure Uuid :=
  requireId value "invalid_database_credential_id" "databaseCredentialId"

def bindingIdOf (value : Json) : Except Failure Uuid :=
  requireId value "invalid_database_binding_id" "databaseBindingId"

/-- `revision(value)` -/
def revision (value : Json) : Except Failure Nat :=
  demand (refuse "invalid_database_credential_revision"
      "A positive expectedRevision is required")
    (((SafeNat.read? value).map SafeNat.val).filter (1 ≤ ·))

def confirmed (confirmation : Json) (expected what : String) :
    Except Failure Unit :=
  ensure (refuse "database_credential_confirmation_mismatch"
    (what ++ " confirmation does not match") 409)
    (confirmation == .str expected)

/-- `privileges(requestedPrivileges)`, with the default. -/
def requestedPrivileges : Option Json → Except Failure Privileges
  | none => orderedPrivileges defaultPrivileges
  | some value => privileges value

/-- The credential of an id with the revision a call expects, and its
position. -/
def expectCredential (m : Memory) (id : Uuid) (expected : Nat) :
    Except Failure (Nat × Credential) := do
  let (index, r) ← demand (refuse "database_credential_not_found"
      "Database credential not found" 404)
    (locate (fun r => r.id == id) m.credentials)
  ensure (refuse "database_credential_revision_conflict"
      "Database credential changed; refresh and retry" 409)
    (r.revision == expected)
  return (index, r)

/-- What a call does before it looks its binding up. -/
def Call.check (m : Memory) : Call → Except Failure Lookup
  | createCredential databaseBindingId privileges confirmation => do
      let bindingId ← bindingIdOf databaseBindingId
      return .creating bindingId privileges confirmation
  | setPrivileges credentialId expectedRevision requested confirmation => do
      let id ← credentialIdOf credentialId
      let expected ← revision expectedRevision
      let normalized ← requestedPrivileges requested
      let (_, r) ← expectCredential m id expected
      ensure (refuse "database_credential_no_change"
        "Database privileges are unchanged" 409)
        (normalized.entries != r.privileges)
      confirmed confirmation
        s!"update-database-grants:{r.id.text}:{r.revision}"
        "Database grant update"
      return .setting id expected normalized
  | rotatePassword credentialId expectedRevision confirmation => do
      let id ← credentialIdOf credentialId
      let expected ← revision expectedRevision
      let (_, r) ← expectCredential m id expected
      confirmed confirmation
        s!"rotate-database-password:{r.id.text}:{r.revision}"
        "Database password rotation"
      return .rotating id expected
  | deleteCredential credentialId expectedRevision confirmation => do
      let id ← credentialIdOf credentialId
      let expected ← revision expectedRevision
      let (index, r) ← expectCredential m id expected
      confirmed confirmation
        s!"delete-database-credential:{r.id.text}:{r.revision}"
        "Database credential deletion"
      return .deleting index id expected

/-- `requireBinding`, once the look-up has answered. -/
def requireBinding (config : Config) (env : Env) (bindingId : Uuid) :
    Except Failure Binding := do
  ensure (refuse "database_binding_unavailable"
    "Database binding could not be verified" 503) (!env.unavailable)
  demand (refuse "database_binding_not_found" "Database binding not found"
    404) (config.getBinding bindingId)

/-- The record of a new credential, its password sealed. -/
def newCredential (config : Config) (env : Env) (binding : Binding)
    (normalized : Privileges) : Except Failure Credential := do
  let generated ← password env.generatePassword
  let record : Credential :=
    { id := env.randomUUID
      databaseBindingId := binding.id
      serverId := binding.serverId
      databaseName := binding.databaseName.text
      websiteId := binding.websiteId
      applicationId := binding.applicationId
      siteUnixUser := binding.unixUser.text
      username := config.usernameFor binding.id
      host := databaseUserHost
      privileges := normalized.entries
      revision := 1
      envelope := ⟨[], [], []⟩
      passwordUpdatedAt := env.now
      createdAt := env.now
      updatedAt := env.now }
  let envelope ← encryptPassword config env.nonce record generated
  return { record with envelope }

/-- What `createCredential` does once it has its binding. -/
def createRecord (config : Config) (env : Env) (m : Memory)
    (databaseBindingId : Uuid) (requested : Option Json)
    (confirmation : Json) : Except Failure Credential := do
  let binding ← requireBinding config env databaseBindingId
  ensure (refuse "database_credential_exists"
      "Database binding already has a credential" 409)
    (!m.credentials.any fun r => r.databaseBindingId == binding.id)
  let normalized ← requestedPrivileges requested
  let username := config.usernameFor binding.id
  confirmed confirmation
    s!"create-database-credential:{binding.id.text}:{username}"
    "Database credential creation"
  newCredential config env binding normalized

/-- The object a call holds, once its binding was looked up and found to
match. -/
def requireOwned (config : Config) (env : Env) (r : Credential) :
    Except Failure Unit := do
  let binding ← requireBinding config env r.databaseBindingId
  assertBindingMatches r binding

def Credential.granted (now : Instant) (normalized : Privileges)
    (r : Credential) : Credential :=
  { r with
    privileges := normalized.entries
    revision := r.revision + 1
    updatedAt := now }

def Credential.rotated (now : Instant) (envelope : Envelope)
    (r : Credential) : Credential :=
  { r with
    envelope
    revision := r.revision + 1
    passwordUpdatedAt := now
    updatedAt := now }

/-- The new password `rotatePassword` seals. -/
def rotatedEnvelope (config : Config) (env : Env) (r : Credential) :
    Except Failure Envelope := do
  requireOwned config env r
  let generated ← password env.generatePassword
  encryptPassword config env.nonce r generated

/-- What a call does once its look-up was answered. A call that was held
up by an object finds that object again, stored or not. -/
def Lookup.effect (config : Config) (env : Env) (m : Memory) :
    Lookup → CredentialEffect
  | creating databaseBindingId requested confirmation =>
      match createRecord config env m databaseBindingId requested
          confirmation with
      | .error e => .refused e
      | .ok r => .written (m.push r) (current r)
  | setting id _ normalized =>
      match m.object? id with
      | none => .refused .store
      | some r =>
          match requireOwned config env r with
          | .error e => .refused e
          | .ok _ =>
              .written (m.assign id (Credential.granted env.now normalized))
                (current r)
  | rotating id _ =>
      match m.object? id with
      | none => .refused .store
      | some r =>
          match rotatedEnvelope config env r with
          | .error e => .refused e
          | .ok envelope =>
              .written (m.assign id (Credential.rotated env.now envelope))
                (current r)
  | deleting index id _ =>
      match m.object? id with
      | none => .refused .store
      | some r =>
          match requireOwned config env r with
          | .error e => .refused e
          | .ok _ =>
              .written (m.splice index) fun _ =>
                .ok (.deleted r.id r.databaseBindingId)

-- ====== runs

/-- The registry, what `init` threw when the process last started, and how
often it was started again. -/
structure Panel where
  store : Store Memory Failure Reply
  refusal : Option Failure
  life : Nat

namespace Panel

/-- A process that starts on a file. -/
def started (config : Config) (life : Nat) (stored : List Credential) :
    Panel :=
  match init config stored with
  | .ok credentials =>
      { store := .opened (.ofFile credentials), refusal := none, life }
  | .error e =>
      { store := .opened (.ofFile stored), refusal := some e, life }

def mem (s : Panel) : Memory := s.store.mem

end Panel

/-- What a call did: it changed the list of credentials, or it threw. -/
inductive Note where
  | applied (life : Nat) (l : Lookup) (before after : List Credential)
  | refused (e : Failure)

/-- The environment between two segments: the write at the head of the
chain settles. -/
inductive World where
  | settle (ok : Bool)

/-- One segment of a call. -/
def resume (config : Config) (s : Panel) :
    Stage → Env → Panel × Option Stage × List Note
  | .entered c, _ =>
      match s.refusal with
      | some e => (s, none, [.refused e])
      | none =>
          match c.check s.mem with
          | .error e => (s, none, [.refused e])
          | .ok l => (s, some (.looking l), [])
  | .looking l, env =>
      match l.effect config env s.mem with
      | .written m reply =>
          ({ s with store := (s.store.call fun _ => .written m reply).1 },
            none,
            [.applied s.life l s.mem.credentials m.credentials])
      | .refused e | .spoiled _ e => (s, none, [.refused e])
      | .replied _ => (s, none, [])

def protocol (config : Config) :
    Protocol Panel Call Stage Env World Note where
  enter := .entered
  resume := resume config
  world s
    | .settle ok => { s with store := (s.store.settle .store ok).1 }
  reopen s :=
    Panel.started config (s.life + 1) s.store.file.credentials

end Yunpanel.Databases
