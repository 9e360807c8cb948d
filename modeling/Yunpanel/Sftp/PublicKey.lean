/-
Public keys of OpenSSH, and the file they are written to.

A key is submitted as one line: its type, its payload in base64, perhaps a
comment. The payload names the type again and is taken apart far enough to
be sure of its shape. The file of a website is a header and one line a key,
in the order of their fingerprints.
-/
import Yunpanel.Js.Collation
import Yunpanel.Js.Fields
import Yunpanel.Lib.Result
import Yunpanel.Secrets.Keys

namespace Yunpanel.Sftp

open Json Lib Lib.Result
open Secrets (bytesOfBase64)

-- ====== failures

/-- An error with a code, of the registry, the service or the host. -/
structure Failure where
  code : String
  message : String
  status : Nat
  deriving DecidableEq, Repr

def refuse (code message : String) (status : Nat := 400) : Failure :=
  ⟨code, message, status⟩

def invalidKey (message : String) : Failure :=
  refuse "sftp_public_key_invalid" message

-- ====== base64

/-- A character of the standard alphabet. -/
def base64Char (n : Nat) : Char :=
  if n < 26 then Char.ofNat ('A'.toNat + n)
  else if n < 52 then Char.ofNat ('a'.toNat + (n - 26))
  else if n < 62 then Char.ofNat ('0'.toNat + (n - 52))
  else if n = 62 then '+' else '/'

/-- `buffer.toString('base64')` -/
def toBase64 : Bytes → List Char
  | a :: b :: c :: rest =>
      base64Char (a.toNat / 4)
        :: base64Char (16 * (a.toNat % 4) + b.toNat / 16)
        :: base64Char (4 * (b.toNat % 16) + c.toNat / 64)
        :: base64Char (c.toNat % 64) :: toBase64 rest
  | [a, b] =>
      [base64Char (a.toNat / 4), base64Char (16 * (a.toNat % 4) + b.toNat / 16),
        base64Char (4 * (b.toNat % 16)), '=']
  | [a] =>
      [base64Char (a.toNat / 4), base64Char (16 * (a.toNat % 4)), '=', '=']
  | [] => []

/-- `value.replace(/=+$/u, '')` -/
def withoutPadding (cs : List Char) : List Char :=
  cs.rdropWhile (· == '=')

/-- `/^[A-Za-z0-9+\/]+={0,2}$/` -/
def isBase64 (cs : List Char) : Bool :=
  withoutPadding cs != []
    && (withoutPadding cs).all (fun c => Text.isAlnum c || c == '+' || c == '/')
    && cs.length ≤ (withoutPadding cs).length + 2

/-- `canonicalBase64(value)`: the bytes and the canonical text. -/
def canonicalBase64 (cs : List Char) : Except Failure (Bytes × List Char) := do
  let invalid := invalidKey "SFTP public key payload is invalid"
  ensure invalid (16 ≤ cs.length && cs.length ≤ 8192 && isBase64 cs)
  let decoded := bytesOfBase64 cs
  let canonical := toBase64 decoded
  ensure invalid (16 ≤ decoded.length
    && withoutPadding canonical == withoutPadding cs)
  return (decoded, canonical)

-- ====== blobs

/-- `readUInt32BE` and the bytes it announces, and what is left. -/
def readSshString (field : String) : Bytes → Except Failure (Bytes × Bytes)
  | a :: b :: c :: d :: rest =>
      let length := a.toNat * 16777216 + b.toNat * 65536 + c.toNat * 256
        + d.toNat
      if length ≤ 8192 ∧ length ≤ rest.length then
        .ok (rest.take length, rest.drop length)
      else .error (invalidKey (field ++ " is invalid"))
  | _ => .error (invalidKey (field ++ " is truncated"))

/-- The bytes of a text of ASCII. -/
def asciiBytes (s : String) : Bytes :=
  s.toList.map fun c => UInt8.ofNat c.toNat

/-- `normalizedRsaModulus(value)` -/
def normalizedRsaModulus : Bytes → Bytes
  | 0 :: b :: rest => b :: rest
  | value => value

/-- `KEY_TYPES` -/
inductive KeyType where
  | ed25519 | ecdsa | rsa
  deriving DecidableEq, Repr

def KeyType.text : KeyType → String
  | ed25519 => "ssh-ed25519"
  | ecdsa => "ecdsa-sha2-nistp256"
  | rsa => "ssh-rsa"

def KeyType.ofText? (s : List Char) : Option KeyType :=
  [KeyType.ed25519, .ecdsa, .rsa].find? fun type => type.text.toList == s

def validateKeyBlob (type : KeyType) (blob : Bytes) :
    Except Failure Unit := do
  let (name, rest) ← readSshString "SFTP key type" blob
  ensure (refuse "sftp_public_key_type_mismatch"
      "SFTP public key type does not match its payload")
    (name == asciiBytes type.text)
  match type with
  | .ed25519 => do
      let (key, rest) ← readSshString "Ed25519 public key" rest
      ensure (invalidKey "Ed25519 public key payload is invalid")
        (key.length == 32 && rest.isEmpty)
  | .ecdsa => do
      let (curve, rest) ← readSshString "ECDSA curve" rest
      let (point, rest) ← readSshString "ECDSA public point" rest
      ensure (invalidKey "ECDSA P-256 public key payload is invalid")
        (curve == asciiBytes "nistp256" && point.length == 65
          && point.head? == some 4 && rest.isEmpty)
  | .rsa => do
      let (exponent, rest) ← readSshString "RSA exponent" rest
      let (modulus, rest) ← readSshString "RSA modulus" rest
      ensure (refuse "sftp_public_key_weak"
          "RSA SFTP keys must be at least 2048 bits")
        (1 ≤ exponent.length && exponent.length ≤ 8
          && 256 ≤ (normalizedRsaModulus modulus).length && rest.isEmpty)

-- ====== keys

/-- The hashes the platform computes: of a text, in hexadecimal, and of
bytes. -/
structure Hashes where
  sha256 : String → Sha256
  digest : Bytes → Bytes

/-- `SHA256:` and the hash of the payload in base64 without padding. -/
def Hashes.fingerprint (hashes : Hashes) (blob : Bytes) : String :=
  String.ofList ("SHA256:".toList
    ++ withoutPadding (toBase64 (hashes.digest blob)))

structure PublicKey where
  type : KeyType
  keyData : String
  fingerprint : String
  deriving DecidableEq

/-- `value.trim().split(/[ \t]+/u)` -/
def fieldsOf (s : String) : List (List Char) :=
  ((Text.trim s.toList).splitOnP fun c => c == ' ' || c == '\t').filter
    (· ≠ [])

/-- `/PRIVATE KEY/i` -/
def mentionsPrivateKey (s : String) : Bool :=
  (Text.lower s.toList).tails.any fun rest =>
    "private key".toList.isPrefixOf rest

def parsePublicKey (hashes : Hashes) (value : Json) :
    Except Failure PublicKey := do
  ensure (refuse "sftp_private_key_rejected"
      "Private keys must never be submitted to YunPanel")
    (!value.str?.any mentionsPrivateKey)
  let s ← demand (invalidKey
      "SFTP public key must be one OpenSSH public-key line")
    (value.str?.filter fun s => 32 ≤ Text.length s && Text.length s ≤ 12000
      && !s.toList.any fun c => c == '\r' || c == '\n' || c.toNat == 0)
  let unsupported := refuse "sftp_public_key_type_unsupported"
    "SFTP public key type is not supported"
  match fieldsOf s with
  | name :: payload :: _ => do
      let type ← demand unsupported (KeyType.ofText? name)
      let (decoded, canonical) ← canonicalBase64 payload
      validateKeyBlob type decoded
      return { type, keyData := String.ofList canonical,
               fingerprint := hashes.fingerprint decoded }
  | _ => .error unsupported

-- ====== the file

/-- A key as the registry hands it out. -/
structure Material where
  id : Uuid
  publicKey : String
  fingerprint : String
  revision : Ranged 1 9007199254740991
  deriving DecidableEq

/-- `canonicalPublicKey(value)`: the line and its fingerprint. -/
def canonicalPublicKey (hashes : Hashes) (value : String) :
    Except Failure (String × String) := do
  let invalid := refuse "sftp_authorized_key_invalid"
    "Managed SFTP public key is invalid"
  ensure invalid
    (!value.toList.any fun c => c == '\r' || c == '\n' || c.toNat == 0)
  match fieldsOf value with
  | [name, payload] => do
      ensure invalid ((KeyType.ofText? name).isSome && isBase64 payload)
      let blob := bytesOfBase64 payload
      ensure (refuse "sftp_authorized_key_invalid"
          "Managed SFTP public key payload is invalid")
        (16 ≤ blob.length
          && withoutPadding (toBase64 blob) == withoutPadding payload)
      return (String.ofList (name ++ ' ' :: toBase64 blob),
        hashes.fingerprint blob)
  | _ => .error invalid

/-- `normalizeKey(value)` -/
def normalizeKey (hashes : Hashes) (value : Material) :
    Except Failure Material := do
  let (publicKey, fingerprint) ← canonicalPublicKey hashes value.publicKey
  ensure (refuse "sftp_authorized_key_fingerprint_mismatch"
      "Managed SFTP key fingerprint does not match its public key")
    (value.fingerprint == fingerprint)
  return { value with publicKey, fingerprint }

/-- By fingerprint, then by identifier. -/
def sortMaterial (keys : List Material) : List Material :=
  keys.insertionSort fun a b =>
    (Text.localeCompare a.fingerprint b.fingerprint).then
      (Text.localeCompare a.id.text b.id.text) ≠ .gt

/-- `MANAGED_HEADER` -/
def managedHeader : String := "# Managed by YunPanel SFTP public keys v1\n"

/-- The content of the file of some keys. -/
def authorizedKeys (keys : List Material) : String :=
  managedHeader ++ "\n".intercalate (keys.map Material.publicKey)
    ++ (if keys.isEmpty then "" else "\n")

end Yunpanel.Sftp
