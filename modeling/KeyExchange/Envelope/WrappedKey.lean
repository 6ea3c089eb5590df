import KeyExchange.Certificate
import KeyExchange.Envelope.SealedValue

/-!
# Wrapped keys

A symmetric key reaches one recipient in a wrapped entry.  The sender makes
an ephemeral secret and agrees with the recipient's encryption key; from what
was agreed on, the recipient's fingerprint and the ephemeral public key comes
the key under which the wrapped key is sealed.  The fingerprint also stands
in the entry, as its address, and is bound into the seal.

An entry with another address is none of a credential's business: `unwrap`
gives nothing then.  It fails only when the entry is addressed to the
credential and does not open.
-/

namespace KeyExchange

/-- A symmetric key wrapped for one recipient. -/
structure WrappedKey where
  /-- The fingerprint of the recipient's certificate. -/
  recipient : Fingerprint
  /-- The sender's side of the agreement. -/
  ephemeralKey : AgreementKey
  nonce : Nonce
  ciphertext : Bytes
deriving DecidableEq

namespace WrappedKey

/-- The context in which keys for wrapping are derived. -/
def wrapContext : String := "cpix 2024 document key wrap v1"

/-- The key that seals a wrapped key. -/
def wrappingKey (shared : SharedSecret) (recipient : Fingerprint) (ephemeral : AgreementKey) :
    SymmetricKey :=
  ⟨shared.deriveKey (Text.Utf8.ofString wrapContext)
    (recipient.octets.toList ++ ephemeral.octets.toList)⟩

/-- `key` wrapped for the holder of `recipient`. -/
def wrap (recipient : Certificate) (key : SymmetricKey) : Drawing EnvelopeFault WrappedKey := do
  let address ← liftExcept (recipient.fingerprint.mapError .basic)
  let ephemeral ← AgreementSecret.generate
  let shared := ephemeral.agree recipient.encryptionKey
  if shared.isContributory then
    let wrapping := wrappingKey shared address ephemeral.publicKey
    let nonce ← Nonce.generate
    let ciphertext ← liftExcept
      (wrapping.encrypt nonce address.octets.toList key.octets.toList)
    return ⟨address, ephemeral.publicKey, nonce, ciphertext⟩
  else
    throw (.encryption .lowOrderRecipient)

/-- The entry is addressed to the certificate with this fingerprint. -/
def isFor (w : WrappedKey) (address : Fingerprint) : Bool := w.recipient == address

/-- The wrapped key, opened with the private key of its recipient. -/
def reveal (w : WrappedKey) (credential : Credential) : Except EnvelopeFault SymmetricKey :=
  let shared := credential.agree w.ephemeralKey
  if shared.isContributory then do
    let wrapping := wrappingKey shared w.recipient w.ephemeralKey
    let key ← wrapping.decrypt w.nonce w.recipient.octets.toList w.ciphertext
    match Octets.ofList? 32 key with
    | some octets => return ⟨octets⟩
    | none => throw (.decryption (.keyLength key.length))
  else
    throw (.decryption .lowOrderEphemeral)

/-- The wrapped key, if the entry is addressed to `credential`. -/
def unwrap (w : WrappedKey) (credential : Credential) :
    Except EnvelopeFault (Option SymmetricKey) := do
  let address ← credential.fingerprint.mapError .basic
  if w.isFor address then
    return some (← w.reveal credential)
  else
    return none

/-- The key from the first entry that is addressed to the first credential
with such an entry; nothing when no credential is addressed. -/
def unwrapAny (entries : List WrappedKey) :
    List Credential → Except EnvelopeFault (Option SymmetricKey)
  | [] => .ok none
  | credential :: others => do
      let address ← credential.fingerprint.mapError .basic
      match entries.find? fun e => e.isFor address with
      | some entry => entry.unwrap credential
      | none => unwrapAny entries others

end WrappedKey

end KeyExchange
