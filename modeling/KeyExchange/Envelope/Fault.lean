import KeyExchange.KeyId

/-!
# Faults of sealing and opening

Opening fails for a reason that says the material was damaged or tampered
with; that it was meant for somebody else is no fault.
-/

namespace KeyExchange

/-- Why key material could not be sealed. -/
inductive EncryptionCause where
  /-- The agreement with the recipient's key gives the same secret to everybody. -/
  | lowOrderRecipient
  /-- The message is longer than one nonce can serve. -/
  | messageTooLong
deriving DecidableEq

def EncryptionCause.message : EncryptionCause → String
  | .lowOrderRecipient => "recipient encryption key is a low-order point"
  | .messageTooLong => "aead::Error"

/-- Why sealed key material could not be opened. -/
inductive DecryptionCause where
  | lowOrderEphemeral
  | tagMismatch
  /-- What was opened as a key is not as long as a key. -/
  | keyLength (actual : Nat)
  /-- What was opened as the value of a content key is not as long as one. -/
  | valueLength (id : KeyId) (actual : Nat)
deriving DecidableEq

def DecryptionCause.message : DecryptionCause → String
  | .lowOrderEphemeral => "ephemeral key is a low-order point"
  | .tagMismatch => "authentication tag mismatch"
  | .keyLength actual => "invalid key length: expected 32, got " ++ toString actual
  | .valueLength id actual =>
      "content key " ++ id.toText ++ " decrypted to " ++ toString actual ++ " bytes"

/-- Why sealing or opening failed. -/
inductive EnvelopeFault where
  | encryption (cause : EncryptionCause)
  | decryption (cause : DecryptionCause)
  | basic (fault : BasicFault)
deriving DecidableEq

def EnvelopeFault.message : EnvelopeFault → String
  | .encryption cause => "encryption error: " ++ cause.message
  | .decryption cause => "decryption error: " ++ cause.message
  | .basic fault => "core error: " ++ fault.message

end KeyExchange
