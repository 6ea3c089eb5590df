import KeyExchange.Cipher.Aead
import KeyExchange.Envelope.Fault
import KeyExchange.Keys

/-!
# Sealed values

A value that must not travel in the clear is encrypted under a fresh nonce.
What is sealed is bound to its associated data: it opens only together with
the same data, so it cannot be moved to another place.
-/

namespace KeyExchange

namespace SymmetricKey

/-- The message encrypted under a nonce, with its tag. -/
def encrypt (key : SymmetricKey) (nonce : Nonce) (aad message : Bytes) :
    Except EnvelopeFault Bytes :=
  match Aead.encrypt key.octets nonce.octets aad message with
  | some ciphertext => .ok ciphertext
  | none => .error (.encryption .messageTooLong)

/-- The message of a ciphertext, when nothing was altered. -/
def decrypt (key : SymmetricKey) (nonce : Nonce) (aad ciphertext : Bytes) :
    Except EnvelopeFault Bytes :=
  match Aead.decrypt key.octets nonce.octets aad ciphertext with
  | some message => .ok message
  | none => .error (.decryption .tagMismatch)

end SymmetricKey

/-- The ways in which a value can be sealed. -/
inductive SealFormat where
  | chacha20Poly1305
deriving DecidableEq

namespace SealFormat

/-- The number of a format. -/
def toNat : SealFormat → Nat
  | .chacha20Poly1305 => 1

/-- The format with a number. -/
def ofNat? : Nat → Option SealFormat
  | 1 => some .chacha20Poly1305
  | _ => none

/-- The name of a format. -/
def describe : SealFormat → String
  | .chacha20Poly1305 => "ChaCha20Poly1305"

end SealFormat

/-- A sealed value with what is needed to open it. -/
structure SealedValue where
  format : SealFormat
  nonce : Nonce
  ciphertext : Bytes
deriving DecidableEq

namespace SealedValue

/-- `message` sealed under `key` and bound to `aad`. -/
def create (message aad : Bytes) (key : SymmetricKey) : Drawing EnvelopeFault SealedValue := do
  let nonce ← Nonce.generate
  let ciphertext ← liftExcept (key.encrypt nonce aad message)
  return ⟨.chacha20Poly1305, nonce, ciphertext⟩

/-- The message of a sealed value. -/
def reveal (v : SealedValue) (aad : Bytes) (key : SymmetricKey) : Except EnvelopeFault Bytes :=
  match v.format with
  | .chacha20Poly1305 => key.decrypt v.nonce aad v.ciphertext

end SealedValue

end KeyExchange
