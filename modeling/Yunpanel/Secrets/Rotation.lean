/-
The rotation of the master key.

# The call

`rotateSecretMasterKey` copies the auth database and the store files to a
backup directory, seals every secret it knows anew in memory, and writes a
manifest. Then it opens a transaction, updates the tables of second
factors, replaces the files one by one, commits, and writes the manifest
again. Where a step throws it rolls the transaction back, restores the
files it had replaced from the backups, and writes a manifest that says
`failed`, or `rollback_required` where a file could not be restored.

# What can go wrong

`Rotation.fails` says which calls of the platform fail, and with which
code: every call the source awaits has an `Op`. A call that fails leaves
what it would have changed as it was: files are replaced by renaming, and
a transaction whose commit fails is gone when the database is closed.
Nothing else writes to the stores meanwhile: the panel is stopped.
-/
import Yunpanel.Lib.Exec
import Yunpanel.Secrets.Stores

namespace Yunpanel.Secrets

open Lib Json Exec

-- ====== stores

/-- The store files the rotation takes, in its order. -/
inductive StoreFile where
  | environment
  | dnsProvider
  | mailbox
  deriving DecidableEq

namespace StoreFile

def all : List StoreFile := [environment, dnsProvider, mailbox]

/-- A store file and those before it. -/
def upTo : StoreFile → List StoreFile
  | environment => [environment]
  | dnsProvider => [environment, dnsProvider]
  | mailbox => [environment, dnsProvider, mailbox]

/-- What is stored in each. -/
def Store : StoreFile → Type
  | environment => EnvironmentStore
  | dnsProvider => List DnsCredential
  | mailbox => List Mailbox

instance (f : StoreFile) : DecidableEq f.Store :=
  match f with
  | environment => inferInstanceAs (DecidableEq EnvironmentStore)
  | dnsProvider => inferInstanceAs (DecidableEq (List DnsCredential))
  | mailbox => inferInstanceAs (DecidableEq (List Mailbox))

end StoreFile

/-- What a file holds: a store, a JSON value that is none, or no JSON. -/
inductive Content (α : Type) where
  | stored (value : α)
  | invalid (value : Json)
  | notJson (text : String)
  deriving DecidableEq

-- ====== rewrapping

/-- Seal every record of a list anew, each with a nonce of its own. -/
def rewrapAll {α β : Type} (rewrap : Nonce → α → Except Failure β) :
    (Nat → Nonce) → List α → Except Failure (List β)
  | _, [] => .ok []
  | nonces, r :: rs => do
      let r' ← rewrap (nonces 0) r
      let rs' ← rewrapAll rewrap (fun i => nonces (i + 1)) rs
      .ok (r' :: rs')

section Rewrapping

variable (crypto : Crypto) (current next : Key)

/-- `decryptEnvironmentSecret` -/
def decryptEnvironmentSecret (r : Variable) (e : Envelope) :
    Except Failure String :=
  match openText crypto current r.aad framed (fun _ => true) e with
  | some value => .ok value
  | none => .error (.rotation "application_secret_decryption_failed"
      ("Application secret " ++ r.applicationId ++ ":" ++ r.key
        ++ " cannot be decrypted with the current key"))

/-- One record of `rewrapApplicationEnvironmentSnapshot`. -/
def rewrapVariable (nonce : Nonce) (r : Variable) :
    Except Failure Variable :=
  match r.value with
  | .plain _ => .ok r
  | .secret e => do
      let value ← decryptEnvironmentSecret crypto current r e
      .ok { r with value := .secret (sealText crypto next nonce r.aad
        value) }

/-- `rewrapApplicationEnvironmentSnapshot` -/
def rewrapApplicationEnvironmentSnapshot (nonces : Nat → Nonce)
    (store : EnvironmentStore) : Except Failure EnvironmentStore := do
  let vars ← rewrapAll (rewrapVariable crypto current next) nonces
    store.vars
  .ok { store with vars := vars }

/-- One record of `rewrapDnsProviderCredentialSnapshot`; the rotation
gives its own code to whatever it throws. -/
def rewrapDnsCredential (nonce : Nonce) (r : DnsCredential) :
    Except Failure DnsCredential :=
  match r.decryptToken crypto current with
  | some token =>
      .ok { r with envelope := sealText crypto next nonce r.aad token }
  | none => .error (.rotation "dns_provider_secret_decryption_failed"
      "DNS provider credentials cannot be decrypted with the current key")

/-- One record of `rewrapMailboxSnapshot`. -/
def rewrapMailbox (nonce : Nonce) (r : Mailbox) : Except Failure Mailbox :=
  match r.decryptPasswordHash crypto current with
  | some hash =>
      .ok { r with envelope := sealText crypto next nonce r.aad hash }
  | none => .error (.rotation "mailbox_secret_decryption_failed"
      "Mailbox credentials cannot be decrypted with the current key")

/-- The snapshot of each store, sealed anew. -/
def rewrapStore (nonces : Nat → Nonce) :
    (f : StoreFile) → f.Store → Except Failure f.Store
  | .environment, store =>
      rewrapApplicationEnvironmentSnapshot crypto current next nonces store
  | .dnsProvider, store =>
      rewrapAll (rewrapDnsCredential crypto current next) nonces store
  | .mailbox, store =>
      rewrapAll (rewrapMailbox crypto current next) nonces store

/-- What is thrown at a file with no JSON in it. -/
def notJsonFailure : StoreFile → Failure
  | .environment => .rotation "invalid_application_environment_store"
      "Application environment store is not valid JSON"
  | .dnsProvider => .rotation "invalid_dns_provider_credential_store"
      "DNS provider credential store is not valid JSON"
  | .mailbox => .rotation "invalid_mailbox_store"
      "Mailbox store is not valid JSON"

/-- What is thrown at a file with some other JSON in it. -/
def invalidFailure : StoreFile → Failure
  | .environment => .rotation "invalid_application_environment_store"
      "Application environment store is invalid or unsupported"
  | .dnsProvider => .rotation "dns_provider_secret_decryption_failed"
      "DNS provider credentials cannot be decrypted with the current key"
  | .mailbox => .rotation "mailbox_secret_decryption_failed"
      "Mailbox credentials cannot be decrypted with the current key"

/-- What a file will hold: its store sealed anew. -/
def rewrapContent (nonces : Nat → Nonce) (f : StoreFile) :
    Content f.Store → Except Failure (Content f.Store)
  | .stored store =>
      (rewrapStore crypto current next nonces f store).map .stored
  | .invalid _ => .error (invalidFailure f)
  | .notJson _ => .error (notJsonFailure f)

/-- `rewrapMfaEnvelope`, with the row it is for. -/
def rewrapMfaRow (nonce : Nonce) (row : MfaRow) :
    Except Failure (MfaRow × Envelope) :=
  if row.userId = "" then
    .error (.rotation "invalid_mfa_record" "MFA record is missing a user id")
  else
    match vaultDecrypt crypto current row.userId row.secret with
    | some secret =>
        .ok (row, vaultEncrypt crypto next nonce row.userId secret)
    | none => .error (.rotation "mfa_secret_decryption_failed"
        ("MFA secret for user " ++ row.userId
          ++ " cannot be decrypted with the current key"))

end Rewrapping

-- ====== the auth database

/-- `MFA_TABLES` -/
inductive TableName where
  | active
  | pending
  deriving DecidableEq

/-- A row of `auth_events`. -/
structure AuditEvent where
  action : String
  createdAt : Instant
  deriving DecidableEq

/-- What the auth database holds of this: tables that need not exist. -/
structure AuthDb where
  table : TableName → Option MfaTable
  events : Option (List AuditEvent)

namespace AuthDb

@[ext] theorem ext' {a b : AuthDb} (ht : ∀ t, a.table t = b.table t)
    (he : a.events = b.events) : a = b := by
  cases a
  cases b
  obtain rfl := funext ht
  cases he
  rfl

/-- `readMfaRows` -/
def rows (db : AuthDb) (t : TableName) : List MfaRow :=
  (db.table t).elim [] MfaTable.rows

/-- A row whose user and secret are these, with another secret. -/
def reseal (userId : String) (secret : Option Envelope) (next : Envelope)
    (row : MfaRow) : MfaRow :=
  if row.userId = userId ∧ row.secret = secret then
    { row with secret := some next }
  else row

theorem reseal_userId (userId : String) (secret : Option Envelope)
    (next : Envelope) (row : MfaRow) :
    (reseal userId secret next row).userId = row.userId := by
  unfold reseal
  split <;> rfl

/-- `UPDATE … SET secret = ? WHERE user_id = ? AND secret = ?` -/
def updateSecret (table : MfaTable) (row : MfaRow) (next : Envelope) :
    MfaTable where
  rows := table.rows.map (reseal row.userId row.secret next)
  keyed := by
    rw [List.map_map]
    rw [show MfaRow.userId ∘ reseal row.userId row.secret next
      = MfaRow.userId from funext (reseal_userId _ _ _)]
    exact table.keyed

/-- How many rows the update changes. -/
def changes (table : MfaTable) (row : MfaRow) : Nat :=
  table.rows.countP fun r => r.userId == row.userId && r.secret == row.secret

/-- The updates of `updateMfaRows`, one after another. -/
def updateSecrets : MfaTable → List (MfaRow × Envelope) → Option MfaTable
  | table, [] => some table
  | table, (row, next) :: rest =>
      if changes table row = 1 then
        updateSecrets (updateSecret table row next) rest
      else none

end AuthDb

-- ====== manifests

inductive ManifestStatus where
  | preparing
  | prepared
  | applied
  | rollbackRequired
  | failed
  deriving DecidableEq

structure Counts where
  mfa : TableName → Nat
  secrets : StoreFile → Nat

/-- The manifest of a rotation. -/
structure Manifest where
  status : ManifestStatus
  createdAt : Instant
  backups : StoreFile → Bool
  counts : Counts
  appliedAt : Option Instant
  failedAt : Option Instant
  error : Option String

-- ====== the call

/-- The calls of the platform that may fail. -/
inductive Op where
  | lstatAuth
  | lstat (f : StoreFile)
  | makeDirectory
  | openDatabase
  | backupAuth
  | hashAuth
  | copy (f : StoreFile)
  | hash (f : StoreFile)
  | readFile (f : StoreFile)
  | readRows (t : TableName)
  | writePrepared
  | begin
  | rereadRows (t : TableName)
  | reread (f : StoreFile)
  | update (t : TableName)
  | insertEvent
  | write (f : StoreFile)
  | commit
  | writeApplied
  | restore (f : StoreFile)
  | writeFailed
  deriving DecidableEq

/-- One call of the rotation: its arguments, and what the platform makes
of it. -/
structure Rotation where
  authDbPath : String
  applicationEnvironmentStorePath : String
  backupDirectory : String
  dnsProviderCredentialStorePath : Option String
  mailboxStorePath : Option String
  currentMasterKey : MasterKey
  nextMasterKey : MasterKey
  crypto : Crypto
  nonces : StoreFile ⊕ TableName → Nat → Nonce
  createdAt : Instant
  eventAt : Instant
  finishedAt : Instant
  fails : Op → Option String

/-- The stores, the backup directory, and the variables of the call. -/
structure World where
  auth : AuthDb
  file : (f : StoreFile) → Option (Content f.Store)
  others : List (OtherSecret × Envelope)
  backupAuth : Option AuthDb
  backupFile : (f : StoreFile) → Option (Content f.Store)
  backupManifest : Option Manifest
  transaction : Option AuthDb
  replaced : StoreFile → Bool
  manifest : Manifest

/-- The stores before a rotation, and no backup directory yet. -/
def World.before (auth : AuthDb)
    (file : (f : StoreFile) → Option (Content f.Store))
    (others : List (OtherSecret × Envelope)) : World where
  auth := auth
  file := file
  others := others
  backupAuth := none
  backupFile := fun _ => none
  backupManifest := none
  transaction := none
  replaced := fun _ => false
  manifest := ⟨.preparing, ⟨0⟩, fun _ => false, ⟨fun _ => 0, fun _ => 0⟩,
    none, none, none⟩

/-- What the preflight found, and what it made of it. -/
structure Prepared where
  text : (f : StoreFile) → Option (Content f.Store)
  next : (f : StoreFile) → Option (Content f.Store)
  rows : TableName → List MfaRow
  nextRows : TableName → List (MfaRow × Envelope)

/-- How many secrets a store has. -/
def secretsOf : (f : StoreFile) → Content f.Store → Nat
  | .environment, .stored store =>
      store.vars.countP fun r =>
        match r.value with
        | .plain _ => false
        | .secret _ => true
  | .dnsProvider, .stored (store : List DnsCredential) => store.length
  | .mailbox, .stored (store : List Mailbox) => store.length
  | _, _ => 0

namespace Rotation

variable (c : Rotation)

/-- A path that is not given, or empty, is none. -/
def given : StoreFile → Bool
  | .environment => true
  | .dnsProvider => c.dnsProviderCredentialStorePath.any (· != "")
  | .mailbox => c.mailboxStorePath.any (· != "")

/-- A call of the platform. -/
def io (op : Op) : Exec World Failure Unit :=
  match c.fails op with
  | some code => fail (.platform code)
  | none => pure ⟨⟩

/-- Whether the file is one of a path that is given. -/
def present (w : World) (f : StoreFile) : Bool :=
  c.given f && (w.file f).isSome

/-- `writeManifest` -/
def writeManifest (op : Op) : Exec World Failure Unit := do
  c.io op
  modify fun w => { w with backupManifest := some w.manifest }

/-- Change the manifest in memory. -/
def setManifest (change : Manifest → Manifest) :
    Exec World Failure Unit :=
  modify fun w => { w with manifest := change w.manifest }

/-- The backup of one store file. -/
def backupFile (f : StoreFile) : Exec World Failure Unit := do
  let present ← read (c.present · f)
  onlyIf present do
    c.io (.copy f)
    modify fun w => { w with
      backupFile := Function.update w.backupFile f (w.file f) }
    c.io (.hash f)

/-- Read one store file, and seal it anew. -/
def prepareFile (current next : Key) (f : StoreFile) :
    Exec World Failure
      (Option (Content f.Store) × Option (Content f.Store)) := do
  let present ← read (c.present · f)
  if present then do
    c.io (.readFile f)
    let text ← read (World.file · f)
    match text with
    | none => pure (none, none)
    | some content => do
        let rewrapped ← ofExcept (rewrapContent c.crypto current next
          (c.nonces (.inl f)) f content)
        setManifest fun m => { m with counts := { m.counts with
          secrets := Function.update m.counts.secrets f
            (secretsOf f content) } }
        pure (some content, some rewrapped)
  else pure (none, none)

/-- `rewrapMfaRows` -/
def rewrapMfaRows (current next : Key) (t : TableName)
    (rows : List MfaRow) : Except Failure (List (MfaRow × Envelope)) :=
  rewrapAll (rewrapMfaRow c.crypto current next) (c.nonces (.inr t)) rows

/-- What comes before the transaction. -/
def preflight (current next : Key) : Exec World Failure Prepared := do
  c.io .backupAuth
  modify fun w => { w with backupAuth := some w.auth }
  c.io .hashAuth
  forEach c.backupFile StoreFile.all
  let environment ← c.prepareFile current next .environment
  let dnsProvider ← c.prepareFile current next .dnsProvider
  let mailbox ← c.prepareFile current next .mailbox
  c.io (.readRows .active)
  let active ← read (AuthDb.rows ·.auth .active)
  c.io (.readRows .pending)
  let pending ← read (AuthDb.rows ·.auth .pending)
  let nextActive ← ofExcept (c.rewrapMfaRows current next .active active)
  let nextPending ← ofExcept
    (c.rewrapMfaRows current next .pending pending)
  setManifest fun m => { m with
    counts := { m.counts with
      mfa := fun
        | .active => active.length
        | .pending => pending.length }
    status := .prepared }
  c.writeManifest .writePrepared
  pure
    { text := fun
        | .environment => environment.1
        | .dnsProvider => dnsProvider.1
        | .mailbox => mailbox.1
      next := fun
        | .environment => environment.2
        | .dnsProvider => dnsProvider.2
        | .mailbox => mailbox.2
      rows := fun
        | .active => active
        | .pending => pending
      nextRows := fun
        | .active => nextActive
        | .pending => nextPending }

/-- What is thrown at a store that changed after the preflight. -/
def concurrentChange : StoreFile → Failure
  | .environment => .rotation "concurrent_environment_change"
      "Application environment state changed after rotation preflight"
  | .dnsProvider => .rotation "concurrent_dns_provider_change"
      "DNS provider credential state changed after rotation preflight"
  | .mailbox => .rotation "concurrent_mailbox_change"
      "Mailbox credential state changed after rotation preflight"

/-- A table is read again inside the transaction: `sameRows`. -/
def rereadRows (p : Prepared) (t : TableName) :
    Exec World Failure Unit := do
  c.io (.rereadRows t)
  let rows ← read fun w => (w.transaction.getD w.auth).rows t
  if rows = p.rows t then pure ⟨⟩
  else fail (.rotation "concurrent_auth_change"
    "MFA state changed after rotation preflight")

/-- A store file is read again. -/
def reread (p : Prepared) (f : StoreFile) : Exec World Failure Unit :=
  onlyIf (p.text f).isSome do
    c.io (.reread f)
    let text ← read (World.file · f)
    if text = p.text f then pure ⟨⟩ else fail (concurrentChange f)

/-- `updateMfaRows` -/
def updateMfaRows (t : TableName) (rows : List (MfaRow × Envelope)) :
    Exec World Failure Unit :=
  match rows with
  | [] => pure ⟨⟩
  | _ => do
      c.io (.update t)
      let db ← read fun w => w.transaction.getD w.auth
      match (db.table t).bind (AuthDb.updateSecrets · rows) with
      | some table =>
          modify fun w => { w with transaction := some { db with
            table := Function.update db.table t (some table) } }
      | none => fail (.rotation "concurrent_auth_change"
          "MFA state changed while rotating the table")

/-- The record of the rotation, where events are kept. -/
def insertEvent : Exec World Failure Unit := do
  let db ← read fun w => w.transaction.getD w.auth
  match db.events with
  | none => pure ⟨⟩
  | some events => do
      c.io .insertEvent
      modify fun w => { w with transaction := some { db with
        events := some (events
          ++ [⟨"secret_master_key.rotated", c.eventAt⟩]) } }

/-- One store file is replaced. -/
def replaceFile (p : Prepared) (f : StoreFile) :
    Exec World Failure Unit :=
  match p.next f with
  | none => pure ⟨⟩
  | some content => do
      c.io (.write f)
      modify fun w => { w with
        file := Function.update w.file f (some content)
        replaced := Function.update w.replaced f true }

/-- The transaction, up to where the files are replaced. -/
def stage (p : Prepared) : Exec World Failure Unit := do
  c.io .begin
  modify fun w => { w with transaction := some w.auth }
  c.rereadRows p .active
  c.rereadRows p .pending
  forEach (c.reread p) StoreFile.all
  c.updateMfaRows .active (p.nextRows .active)
  c.updateMfaRows .pending (p.nextRows .pending)
  c.insertEvent

/-- The transaction, with the files inside it. -/
def apply (p : Prepared) : Exec World Failure Unit := do
  c.stage p
  forEach (c.replaceFile p) StoreFile.all
  c.io .commit
  modify fun w => { w with
    auth := w.transaction.getD w.auth
    transaction := none }

/-- The manifest after the commit. -/
def finish : Exec World Failure Unit := do
  setManifest fun m => { m with
    status := .applied
    appliedAt := some c.finishedAt }
  c.writeManifest .writeApplied

/-- `restoreFileFromBackup`, where the file was replaced; what it throws is
dropped. -/
def restoreFile (f : StoreFile) : Exec World Failure Unit := do
  let replaced ← read (World.replaced · f)
  onlyIf replaced (attempt
    (do
      c.io (.restore f)
      modify fun w => { w with
        file := Function.update w.file f (w.backupFile f)
        replaced := Function.update w.replaced f false })
    fun _ => pure ⟨⟩)

/-- The `catch` of the call. -/
def recover (e : Failure) : Exec World Failure Unit := do
  modify fun w => { w with transaction := none }
  forEach c.restoreFile StoreFile.all
  let left ← read fun w => StoreFile.all.any w.replaced
  setManifest fun m => { m with
    status := if left then .rollbackRequired else .failed
    failedAt := some c.finishedAt
    error := some e.code }
  attempt (c.writeManifest .writeFailed) fun _ => pure ⟨⟩
  fail e

/-- The database is closed whatever happens: an open transaction is
gone. -/
def closing {α : Type} (x : Exec World Failure α) :
    Exec World Failure α :=
  fun w => ((x w).1, { (x w).2 with transaction := none })

/-- The manifest a rotation starts with. -/
def startManifest (w : World) : Manifest where
  status := .preparing
  createdAt := c.createdAt
  backups := c.present w
  counts := ⟨fun _ => 0, fun _ => 0⟩
  appliedAt := none
  failedAt := none
  error := none

/-- The part of the call that is tried. -/
def body (current next : Key) : Exec World Failure Unit := do
  let p ← c.preflight current next
  c.apply p
  c.finish

/-- The arguments, as they are checked: the two keys. -/
def keys : Except Failure (Key × Key) :=
  if c.authDbPath = "" ∨ c.applicationEnvironmentStorePath = ""
      ∨ c.backupDirectory = "" then
    .error (.rotation "rotation_paths_required" ("Auth DB, "
      ++ "application environment store and backup directory paths are "
      ++ "required"))
  else do
    let current ← c.currentMasterKey.rootKey "Current"
    let next ← c.nextMasterKey.rootKey "Next"
    if current = next then
      .error (.rotation "secret_master_key_unchanged"
        "The next master key must differ from the current key")
    else .ok (current, next)

/-- `rotateSecretMasterKey` -/
def rotateSecretMasterKey : Exec World Failure Unit := do
  let keys ← ofExcept c.keys
  c.io .lstatAuth
  forEach (fun f => onlyIf (c.given f) (c.io (.lstat f))) StoreFile.all
  c.io .makeDirectory
  c.io .openDatabase
  modify fun w => { w with manifest := c.startManifest w }
  closing (attempt (c.body keys.1 keys.2) c.recover)

-- ====== what it does

/-- What a store file will hold, where there is one to seal anew. -/
def nextFile (current next : Key) (w : World) (f : StoreFile) :
    Except Failure (Option (Content f.Store)) :=
  if c.present w f then
    match w.file f with
    | none => .ok none
    | some content =>
        (rewrapContent c.crypto current next (c.nonces (.inl f)) f
          content).map some
  else .ok none

/-- What the preflight prepares, where nothing fails. -/
def prepared (w : World) : Except Failure Prepared := do
  let (current, next) ← c.keys
  let environment ← c.nextFile current next w .environment
  let dnsProvider ← c.nextFile current next w .dnsProvider
  let mailbox ← c.nextFile current next w .mailbox
  let active ← c.rewrapMfaRows current next .active (w.auth.rows .active)
  let pending ← c.rewrapMfaRows current next .pending
    (w.auth.rows .pending)
  .ok
    { text := fun f => if c.present w f then w.file f else none
      next := fun
        | .environment => environment
        | .dnsProvider => dnsProvider
        | .mailbox => mailbox
      rows := w.auth.rows
      nextRows := fun
        | .active => active
        | .pending => pending }

/-- What a commit leaves in the auth database. -/
def nextAuth (w : World) (p : Prepared) : AuthDb where
  table t := (w.auth.table t).bind (AuthDb.updateSecrets · (p.nextRows t))
  events := w.auth.events.map
    (· ++ [⟨"secret_master_key.rotated", c.eventAt⟩])

/-- None of these calls fails. -/
def clear (ops : List Op) : Bool :=
  ops.all fun op => (c.fails op).isNone

/-- The store files there are. -/
def presentFiles (w : World) : List StoreFile :=
  StoreFile.all.filter (c.present w)

/-- The calls before the first file is replaced. -/
def opsBeforeWrites (w : World) : List Op :=
  [.lstatAuth] ++ (StoreFile.all.filter c.given).map .lstat
    ++ [.makeDirectory, .openDatabase, .backupAuth, .hashAuth]
    ++ (c.presentFiles w).map .copy ++ (c.presentFiles w).map .hash
    ++ (c.presentFiles w).map .readFile
    ++ [.readRows .active, .readRows .pending, .writePrepared, .begin,
      .rereadRows .active, .rereadRows .pending]
    ++ (c.presentFiles w).map .reread
    ++ ([.active, .pending].filter fun t => w.auth.rows t != []).map .update
    ++ (if w.auth.events.isSome then [.insertEvent] else [])

/-- Whether the call gets as far as replacing files. -/
def reaches (w : World) : Bool :=
  (c.prepared w).toBool && c.clear (c.opsBeforeWrites w)

/-- Whether a file is replaced. -/
def replaces (w : World) (f : StoreFile) : Bool :=
  c.reaches w && c.present w f
    && c.clear (((f.upTo).filter (c.present w)).map .write)

/-- Whether the transaction is committed. -/
def commits (w : World) : Bool :=
  c.reaches w && c.clear ((c.presentFiles w).map .write)
    && (c.fails .commit).isNone

end Rotation

end Yunpanel.Secrets
