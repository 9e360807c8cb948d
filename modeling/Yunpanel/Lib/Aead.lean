/-
Authenticated encryption of texts.

A cipher seals a text under a key, with a nonce and with associated data
that is checked but not stored, into an envelope. What is assumed of it is
what a caller relies on: a sealed text opens under its key with the same
associated data, and the sizes of the parts of an envelope, of which only
that of the ciphertext depends on the text. That an
envelope does not open under another key is no law here, for no cipher has
it at all pairs of keys: it is said of the two keys at hand (`Apart`).
-/

namespace Lib

universe u

abbrev Bytes := List UInt8

/-- What a text is sealed in. -/
structure Envelope where
  iv : Bytes
  tag : Bytes
  ciphertext : Bytes
  deriving DecidableEq

structure Aead (Key : Type u) where
  encrypt : Key → Bytes → String → String → Envelope
  decrypt : Key → String → Envelope → Option String
  /-- How many bytes a text is sealed in. -/
  size : String → Nat
  decrypt_encrypt : ∀ key iv aad text,
    decrypt key aad (encrypt key iv aad text) = some text
  encrypt_iv : ∀ key iv aad text, (encrypt key iv aad text).iv = iv
  encrypt_tag : ∀ key iv aad text, (encrypt key iv aad text).tag.length = 16
  encrypt_size : ∀ key iv aad text,
    (encrypt key iv aad text).ciphertext.length = size text
  decrypt_size : ∀ key aad envelope text,
    decrypt key aad envelope = some text →
      envelope.ciphertext.length = size text

namespace Aead

variable {Key : Type u} (c : Aead Key)

attribute [simp] decrypt_encrypt encrypt_iv encrypt_tag

/-- A stream cipher: a text of ASCII characters is sealed in one byte for
each. -/
def Streams : Prop :=
  ∀ text : String, (∀ ch ∈ text.toList, ch.toNat < 128) →
    c.size text = text.toList.length

/-- What opens under one key does not open under the other. -/
def Apart (a b : Key) : Prop :=
  ∀ aad envelope text, c.decrypt a aad envelope = some text →
    c.decrypt b aad envelope = none

/-- The ciphertext of a text that is sealed anew keeps its size. -/
theorem size_of_decrypt {key key' : Key} {aad : String}
    {envelope : Envelope} {text : String}
    (h : c.decrypt key aad envelope = some text) (iv : Bytes) :
    (c.encrypt key' iv aad text).ciphertext.length
      = envelope.ciphertext.length := by
  rw [c.encrypt_size, c.decrypt_size _ _ _ _ h]

end Aead

end Lib
