/-
Master keys, and what a component derives from one.

The master key is configured as a text; the rotation also takes it as
bytes. Most components use the 32 bytes it stands for. The vault of the
second factors derives its own key from these, and the cache policies take
the first 32 characters of the text as their key, whatever they encode.
-/
import Yunpanel.Js.Text
import Yunpanel.Lib.Aead

namespace Yunpanel.Secrets

open Lib

-- ====== failures

/-- Why the rotation throws: `SecretMasterKeyRotationError`, or a call of
the platform that failed with a code. -/
inductive Failure where
  | rotation (code message : String)
  | platform (code : String)
  deriving DecidableEq, Repr

namespace Failure

/-- `safeManifestError` -/
def code : Failure → String
  | rotation code _ => code
  | platform code => code

end Failure

-- ====== bytes

/-- The value of a hexadecimal digit, of either case. -/
def hexDigit (c : Char) : Nat :=
  if Text.isDigit c then c.toNat - '0'.toNat
  else if Text.isLower c then c.toNat - 'a'.toNat + 10
  else c.toNat - 'A'.toNat + 10

/-- `Buffer.from(value, 'hex')` of an even number of digits. -/
def bytesOfHex : List Char → Bytes
  | c :: d :: rest =>
      UInt8.ofNat (16 * hexDigit c + hexDigit d) :: bytesOfHex rest
  | _ => []

/-- The six bits a character of base64 stands for, in either alphabet. -/
def sextet? (c : Char) : Option Nat :=
  if Text.isUpper c then some (c.toNat - 'A'.toNat)
  else if Text.isLower c then some (c.toNat - 'a'.toNat + 26)
  else if Text.isDigit c then some (c.toNat - '0'.toNat + 52)
  else if c = '+' ∨ c = '-' then some 62
  else if c = '/' ∨ c = '_' then some 63
  else none

/-- Four sextets are three bytes; a rest of less than eight bits is
dropped. -/
def bytesOfSextets : List Nat → Bytes
  | a :: b :: c :: d :: rest =>
      UInt8.ofNat (4 * a + b / 16) :: UInt8.ofNat (16 * (b % 16) + c / 4)
        :: UInt8.ofNat (64 * (c % 4) + d) :: bytesOfSextets rest
  | [a, b, c] =>
      [UInt8.ofNat (4 * a + b / 16), UInt8.ofNat (16 * (b % 16) + c / 4)]
  | [a, b] => [UInt8.ofNat (4 * a + b / 16)]
  | _ => []

/-- `Buffer.from(value, 'base64')`: up to the first `=`, and over what is
not of the alphabet. -/
def bytesOfBase64 (cs : List Char) : Bytes :=
  bytesOfSextets ((cs.takeWhile (· != '=')).filterMap sextet?)

/-- How many characters `toString('base64')` writes for so many bytes. -/
def base64Length (n : Nat) : Nat := 4 * ((n + 2) / 3)

-- ====== keys

/-- A key of AES-256. -/
structure Key where
  bytes : Bytes
  sized : bytes.length = 32
  deriving DecidableEq

def Key.ofBytes? (bytes : Bytes) : Option Key :=
  if h : bytes.length = 32 then some ⟨bytes, h⟩ else none

/-- A configured master key. -/
inductive MasterKey where
  | missing
  | buffer (bytes : Bytes)
  | text (value : String)
  deriving DecidableEq

/-- `/^[a-f0-9]{64}$/i` -/
def isHexKey (s : String) : Bool :=
  Text.inClass (fun c => Text.isHex c || ('A' ≤ c && c ≤ 'F')) 64 64 s

namespace MasterKey

def normalizeEnvironmentMasterKey : MasterKey → Except Failure (Option Key)
  | missing => .ok none
  | buffer bytes =>
      match Key.ofBytes? bytes with
      | some key => .ok (some key)
      | none => .error (.rotation "invalid_secret_master_key"
          "Secret master key must be exactly 32 bytes")
  | text value =>
      if value = "" then .ok none
      else
        let decoded :=
          if isHexKey value then bytesOfHex value.toList
          else bytesOfBase64 value.toList
        match Key.ofBytes? decoded with
        | some key => .ok (some key)
        | none => .error (.rotation "invalid_secret_master_key"
            "YUNPANEL_SECRET_MASTER_KEY must encode exactly 32 bytes")

/-- `rootKey` -/
def rootKey (value : MasterKey) (label : String) : Except Failure Key :=
  match value.normalizeEnvironmentMasterKey with
  | .error e => .error e
  | .ok (some key) => .ok key
  | .ok none => .error (.rotation "secret_master_key_required"
      (label ++ " master key is required"))

/-- The key a component uses that was given this master key. -/
def key? (value : MasterKey) : Option Key :=
  match value.normalizeEnvironmentMasterKey with
  | .ok key => key
  | .error _ => none

/-- `/^[A-Za-z0-9+/]{43}=$/` -/
def isBase64Key (cs : List Char) : Bool :=
  cs.length == 44 && cs.getLast? == some '='
    && cs.dropLast.all fun c =>
      (sextet? c).isSome && c != '-' && c != '_'

/-- The key `createMfaVault` takes from the master key, which it reads more
strictly. -/
def vaultKey? : MasterKey → Option Key
  | missing => none
  | buffer bytes => Key.ofBytes? bytes
  | text value =>
      if isHexKey value then Key.ofBytes? (bytesOfHex value.toList)
      else if isBase64Key value.toList then
        Key.ofBytes? (bytesOfBase64 value.toList)
      else none

/-- `deriveKey` of the cache policies: the first 32 characters of the
text. A character of more than one byte makes too long a key, which the
cipher refuses. -/
def deriveKey : MasterKey → Option Key
  | text value =>
      let head := value.toList.take 32
      if head.all (fun c => c.toNat < 128) then
        Key.ofBytes? (head.map fun c => UInt8.ofNat c.toNat)
      else none
  | _ => none

variable {value : MasterKey} {key : Key}

theorem key?_of_rootKey {label : String} (h : value.rootKey label = .ok key) :
    value.key? = some key := by
  unfold rootKey at h
  unfold key?
  split at h
  · cases h
  · rename_i heq
    rw [heq, Except.ok.inj h]
  · cases h

/-- The vault takes the key the other components use, or none. -/
theorem key?_of_vaultKey? (h : value.vaultKey? = some key) :
    value.key? = some key := by
  unfold key?
  cases value with
  | missing => cases h
  | buffer bytes =>
      have hbytes : Key.ofBytes? bytes = some key := h
      simp [normalizeEnvironmentMasterKey, hbytes]
  | text value =>
      simp only [vaultKey?] at h
      have hne : value ≠ "" := by
        rintro rfl
        cases h
      simp only [normalizeEnvironmentMasterKey, if_neg hne]
      by_cases hhex : isHexKey value = true
      · rw [if_pos hhex] at h ⊢
        simp [h]
      · rw [if_neg hhex] at h ⊢
        by_cases hbase : isBase64Key value.toList = true
        · rw [if_pos hbase] at h
          simp [h]
        · rw [if_neg hbase] at h
          cases h

end MasterKey

-- ====== ciphers

/-- Twelve random bytes. -/
structure Nonce where
  bytes : Bytes
  sized : bytes.length = 12

/-- What the platform computes: AES-256-GCM over texts, and the key the
vault derives with HKDF. -/
structure Crypto where
  cipher : Aead Key
  vaultKey : Key → Key

-- ====== samples

/-- Four bytes for each character. -/
def sampleBytes : List Char → Bytes
  | [] => []
  | ch :: cs =>
      UInt8.ofNat (ch.toNat / 16777216) :: UInt8.ofNat (ch.toNat / 65536)
        :: UInt8.ofNat (ch.toNat / 256) :: UInt8.ofNat ch.toNat
        :: sampleBytes cs

def sampleChars : Bytes → Option (List Char)
  | [] => some []
  | a :: b :: c :: d :: rest =>
      (sampleChars rest).map fun cs =>
        Char.ofNat (16777216 * a.toNat + 65536 * b.toNat + 256 * c.toNat
          + d.toNat) :: cs
  | _ => none

theorem sampleChars_sampleBytes (cs : List Char) :
    sampleChars (sampleBytes cs) = some cs := by
  induction cs with
  | nil => rfl
  | cons ch cs ih =>
      have hch : ch.toNat < 1114112 := by
        have hvalid := ch.valid
        unfold Char.toNat
        rcases hvalid with h | ⟨-, h⟩
        · have hlt : ch.val.toNat < 55296 := h
          omega
        · exact h
      rw [sampleBytes, sampleChars, ih]
      simp only [Option.map_some, UInt8.toNat_ofNat']
      have hsum : 16777216 * (ch.toNat / 16777216 % 2 ^ 8)
          + 65536 * (ch.toNat / 65536 % 2 ^ 8)
          + 256 * (ch.toNat / 256 % 2 ^ 8) + ch.toNat % 2 ^ 8
          = ch.toNat := by omega
      rw [hsum, Char.ofNat_toNat]

theorem length_sampleBytes (cs : List Char) :
    (sampleBytes cs).length = 4 * cs.length := by
  induction cs with
  | nil => rfl
  | cons ch cs ih =>
      simp only [sampleBytes, List.length_cons, ih]
      omega

theorem length_of_sampleChars {bytes : Bytes} {cs : List Char}
    (h : sampleChars bytes = some cs) : bytes.length = 4 * cs.length := by
  fun_induction sampleChars bytes generalizing cs with
  | case1 =>
      obtain rfl := Option.some.inj h
      rfl
  | case2 a b c d rest ih =>
      obtain ⟨cs', hrest, rfl⟩ := Option.map_eq_some_iff.mp h
      simp only [List.length_cons, ih hrest]
      omega
  | case3 => cases h

/-- A cipher that only names the key a text is sealed with. -/
def sampleCipher : Aead Key where
  encrypt key iv _ text :=
    ⟨iv, key.bytes.take 16, sampleBytes text.toList⟩
  decrypt key _ e :=
    if e.tag = key.bytes.take 16 then
      (sampleChars e.ciphertext).map String.ofList
    else none
  size text := 4 * text.toList.length
  decrypt_encrypt key iv aad text := by
    show (if _ then _ else _) = _
    rw [if_pos rfl, sampleChars_sampleBytes]
    simp
  encrypt_iv _ _ _ _ := rfl
  encrypt_tag key _ _ _ := by
    show (key.bytes.take 16).length = 16
    rw [List.length_take, key.sized]
    rfl
  encrypt_size _ _ _ text := length_sampleBytes text.toList
  decrypt_size key aad e text h := by
    split at h
    · obtain ⟨cs, hcs, rfl⟩ := Option.map_eq_some_iff.mp h
      rw [String.toList_ofList]
      exact length_of_sampleChars hcs
    · cases h

def sampleCrypto : Crypto := ⟨sampleCipher, id⟩

end Yunpanel.Secrets
