/-
The stores that hold sealed secrets, and how each component opens its own.

Every component seals with AES-256-GCM under a key derived from the master
key, and binds an envelope to its record with associated data of its own.
The rotation takes five places: the two tables of second factors in the
auth database, the application environments, the DNS provider credentials
and the mailboxes. The other components are here with what they need to
open their secrets (`OtherSecret`), and with nothing else of their records.

In a file the parts of an envelope are written in base64; here they are
the bytes. A file that no reader of its store accepts is `malformed`.
-/
import Yunpanel.Js.Fields
import Yunpanel.Secrets.Keys

namespace Yunpanel.Secrets

open Lib Json

-- ====== envelopes

/-- Seal a text with a fresh nonce. -/
def sealText (crypto : Crypto) (key : Key) (nonce : Nonce)
    (aad value : String) : Envelope :=
  crypto.cipher.encrypt key nonce.bytes aad value

/-- `iv.length === 12 && tag.length === 16` -/
def framed (e : Envelope) : Bool :=
  e.iv.length == 12 && e.tag.length == 16

/-- What a component does to open an envelope: its test of the envelope,
the cipher, its test of the text. -/
def openText (crypto : Crypto) (key : Key) (aad : String)
    (accepts : Envelope → Bool) (valid : String → Bool) (e : Envelope) :
    Option String :=
  if accepts e then (crypto.cipher.decrypt key aad e).filter valid
  else none

-- ====== second factors

/-- `JSON.stringify` of an envelope has its punctuation and names, and the
three parts. -/
def vaultLength (e : Envelope) : Nat :=
  46 + base64Length e.iv.length + base64Length e.tag.length
    + base64Length e.ciphertext.length

/-- A row of `auth_mfa` or `auth_mfa_pending`; a secret that is not the
JSON of an envelope is none. -/
structure MfaRow where
  userId : String
  secret : Option Envelope
  rest : Json
  deriving DecidableEq

/-- A table with its primary key. -/
structure MfaTable where
  rows : List MfaRow
  keyed : (rows.map MfaRow.userId).Nodup
  deriving DecidableEq

def vaultAad (userId : String) : String := "yunpanel:mfa:v1:" ++ userId

/-- `createMfaVault(key).decrypt(userId, envelope)` -/
def vaultDecrypt (crypto : Crypto) (key : Key) (userId : String)
    (secret : Option Envelope) : Option String :=
  secret.bind (openText crypto (crypto.vaultKey key) (vaultAad userId)
    (fun e => framed e && vaultLength e ≤ 1024) fun _ => true)

/-- `createMfaVault(key).encrypt(userId, secret)` -/
def vaultEncrypt (crypto : Crypto) (key : Key) (nonce : Nonce)
    (userId secret : String) : Envelope :=
  sealText crypto (crypto.vaultKey key) nonce (vaultAad userId) secret

-- ====== application environments

/-- A value in the clear, or sealed. -/
inductive VariableValue where
  | plain (value : String)
  | secret (envelope : Envelope)
  deriving DecidableEq

/-- A record of the application environment store: a variable, or one of
the internal keys. -/
structure Variable where
  applicationId : String
  key : String
  value : VariableValue
  rest : Json
  deriving DecidableEq

/-- `ENV_STORE_VERSIONS` -/
inductive EnvironmentVersion where
  | one
  | two
  deriving DecidableEq

/-- The store: its variables, and what a store of the second version has
besides. -/
structure EnvironmentStore where
  version : EnvironmentVersion
  vars : List Variable
  environments : Json
  deriving DecidableEq

def Variable.aad (r : Variable) : String := r.applicationId ++ ":" ++ r.key

/-- `decryptValue` -/
def Variable.decryptValue (crypto : Crypto) (key : Key) (r : Variable) :
    Option String :=
  match r.value with
  | .plain _ => none
  | .secret e => openText crypto key r.aad (fun _ => true) (fun _ => true) e

-- ====== DNS provider credentials

/-- `TOKEN_PATTERN` -/
def isProviderToken (s : String) : Bool :=
  Text.inClass (fun c => Text.isAlnum c || ['.', '_', '~', '-'].contains c)
    20 256 s

/-- `PROVIDERS` -/
inductive Provider where
  | cloudflare
  deriving DecidableEq

def Provider.text : Provider → String
  | cloudflare => "cloudflare"

structure DnsCredential where
  id : Uuid
  dnsZoneId : Uuid
  provider : Provider
  envelope : Envelope
  createdAt : Instant
  updatedAt : Instant
  deriving DecidableEq

namespace DnsCredential

def aad (r : DnsCredential) : String :=
  ":".intercalate ["dns-provider", r.id.text, r.dnsZoneId.text,
    r.provider.text]

/-- `validatePersisted`, of the envelope. -/
def persisted (e : Envelope) : Bool :=
  framed e && 1 ≤ base64Length e.ciphertext.length
    && base64Length e.ciphertext.length ≤ 512

/-- `decryptToken`, of a record that was read. -/
def decryptToken (crypto : Crypto) (key : Key) (r : DnsCredential) :
    Option String :=
  openText crypto key r.aad persisted isProviderToken r.envelope

end DnsCredential

-- ====== mailboxes

/-- `[A-Za-z0-9+/]` -/
def isBase64Char (c : Char) : Bool :=
  Text.isAlnum c || c == '+' || c == '/'

/-- Base64 without padding that ends in no stray bits: `decode`. -/
def isUnpadded (size bits : Nat) (cs : List Char) : Bool :=
  cs.length == size && cs.all isBase64Char
    && cs.getLast?.any fun c => (sextet? c).any (· % bits == 0)

/-- `parseHash` -/
def isPasswordHash (s : String) : Bool :=
  let head := "$argon2id$v=19$m=65536,t=3,p=1$".toList
  let body := s.toList.drop head.length
  s.toList.take head.length == head
    && isUnpadded 22 16 (body.take 22)
    && (body.drop 22).take 1 == ['$']
    && isUnpadded 43 4 (body.drop 23)

structure Mailbox where
  id : Uuid
  mailDomainId : Uuid
  address : String
  enabled : Bool
  revision : SafeNat
  envelope : Envelope
  passwordUpdatedAt : Instant
  createdAt : Instant
  updatedAt : Instant
  deriving DecidableEq

namespace Mailbox

def aad (r : Mailbox) : String :=
  ":".intercalate ["mailbox", r.id.text, r.mailDomainId.text, r.address]

/-- `validateEnvelope`, and the test of `decryptPasswordHash`. -/
def persisted (e : Envelope) : Bool :=
  framed e && 64 ≤ base64Length e.ciphertext.length
    && base64Length e.ciphertext.length ≤ 768
    && 64 ≤ e.ciphertext.length && e.ciphertext.length ≤ 512

/-- `decryptPasswordHash`, of a record that was read. -/
def decryptPasswordHash (crypto : Crypto) (key : Key) (r : Mailbox) :
    Option String :=
  openText crypto key r.aad persisted isPasswordHash r.envelope

end Mailbox

-- ====== other components

/-- A sealed secret of a component the rotation does not know, with the
fields its associated data is made of. -/
inductive OtherSecret where
  /-- `database-credential-registry` -/
  | databaseCredential (id databaseBindingId username host : String)
  /-- `docker-compose-project-registry` -/
  | composeDocument (id : String) (revision : Nat)
  /-- `docker-compose-environment-registry` -/
  | composeVariable (id : String) (revision : Nat) (key : String)
  /-- `docker-registry-credential-registry` -/
  | registryCredential (projectId registryHost : String) (revision : Nat)
  /-- `ai-provider-registry` -/
  | aiProvider (id type : String)
  /-- `powerdns-secret-registry` -/
  | powerDns (serverId : String)
  /-- `mail-srs-secret-registry` -/
  | mailSrs (serverId : String) (revision : Nat)
  /-- `website-cache-policy-registry` -/
  | cachePolicy (websiteId : String)
  /-- `rclone-remote-registry` -/
  | rcloneRemote (id : String)
  /-- `restic-repository-registry` -/
  | resticRepository (id : String)
  deriving DecidableEq

namespace OtherSecret

/-- The associated data of each component; the cache policies have
none. -/
def aad : OtherSecret → String
  | databaseCredential id databaseBindingId username host =>
      ":".intercalate ["database-credential", id, databaseBindingId,
        username, host]
  | composeDocument id revision =>
      id ++ ":compose:" ++ toString revision
  | composeVariable id revision key =>
      id ++ ":env:" ++ toString revision ++ ":" ++ key
  | registryCredential projectId registryHost revision =>
      projectId ++ ":registry:" ++ registryHost ++ ":" ++ toString revision
  | aiProvider id type => "ai-provider:" ++ id ++ ":" ++ type
  | powerDns serverId => "powerdns-api-key:" ++ serverId
  | mailSrs serverId revision =>
      "mail-srs:" ++ serverId ++ ":" ++ toString revision
  | cachePolicy _ => ""
  | rcloneRemote id => id ++ ":rclone-credentials"
  | resticRepository id => id ++ ":restic-password"

/-- The key each component uses. -/
def keyOf (master : MasterKey) : OtherSecret → Option Key
  | cachePolicy _ => master.deriveKey
  | _ => master.key?

/-- What each component asks of an envelope. -/
def accepts : OtherSecret → Envelope → Bool
  | databaseCredential _ _ _ _, e =>
      framed e && 24 ≤ e.ciphertext.length
        && e.ciphertext.length ≤ 128
  | powerDns _, e =>
      framed e && 32 ≤ e.ciphertext.length
        && e.ciphertext.length ≤ 128
  | aiProvider _ _, e => framed e && e.ciphertext.length != 0
  | rcloneRemote _, _ => true
  | resticRepository _, _ => true
  | _, e => framed e

/-- The text a component gets out of its envelope, before it reads it. -/
def decrypt (crypto : Crypto) (master : MasterKey) (s : OtherSecret)
    (e : Envelope) : Option String :=
  (s.keyOf master).bind fun key =>
    openText crypto key s.aad s.accepts (fun _ => true) e

end OtherSecret

end Yunpanel.Secrets
