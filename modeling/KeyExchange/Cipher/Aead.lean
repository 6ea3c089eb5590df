import KeyExchange.Cipher.ChaCha
import KeyExchange.Cipher.Poly1305

/-!
# Authenticated encryption

A message is sealed by combining it with the keystream of its key and nonce
and appending a tag.  The tag covers the associated data and the ciphertext,
each padded to a multiple of sixteen octets, and their lengths; its one-time
key is the start of keystream block 0, which encrypts nothing.

Opening recomputes the tag of the ciphertext and compares it in full before
anything is decrypted.
-/

namespace KeyExchange.Aead

/-- Length of a tag in octets. -/
def tagLength : Nat := 16

/-- A message of this many keystream blocks or more has no encryption: its
block counter would come round. -/
def blockLimit : Nat := 1 <<< 32 - 1

/-- The message is short enough to be encrypted under one nonce. -/
def fits (data : Bytes) : Bool :=
  data.length / 64 < blockLimit

/-- `data` with zeros up to a multiple of sixteen octets. -/
def padded (data : Bytes) : Bytes :=
  data ++ List.replicate ((16 - data.length % 16) % 16) 0

/-- What the tag of a ciphertext is computed over. -/
def authenticated (aad ciphertext : Bytes) : Bytes :=
  padded aad ++ (padded ciphertext ++ (ofNatLE 8 aad.length ++ ofNatLE 8 ciphertext.length))

/-- The one-time key of a nonce. -/
def tagKey (key : ChaCha.Key) (nonce : Octets 12) : Octets 32 :=
  Octets.ofListPadded 32 (ChaCha.block 10 key (ChaCha.noncePosition 0 nonce))

/-- The tag of a ciphertext and its associated data. -/
def tagOf (key : ChaCha.Key) (nonce : Octets 12) (aad ciphertext : Bytes) : Bytes :=
  Poly1305.tag (tagKey key nonce) (authenticated aad ciphertext)

/-- The message encrypted and tagged; nothing when it is too long. -/
def encrypt (key : Octets 32) (nonce : Octets 12) (aad message : Bytes) : Option Bytes :=
  let key := ChaCha.Key.ofOctets key
  if fits message then
    let ciphertext := ChaCha.apply key nonce message
    some (ciphertext ++ tagOf key nonce aad ciphertext)
  else none

/-- The message that was sealed, if the last sixteen octets are the tag of
what stands before them. -/
def decrypt (key : Octets 32) (nonce : Octets 12) (aad sealedMessage : Bytes) : Option Bytes :=
  let key := ChaCha.Key.ofOctets key
  let length := sealedMessage.length
  if length < tagLength then none
  else
    let ciphertext := sealedMessage.take (length - tagLength)
    let tag := sealedMessage.drop (length - tagLength)
    if fits ciphertext && tagOf key nonce aad ciphertext == tag then
      some (ChaCha.apply key nonce ciphertext)
    else none

end KeyExchange.Aead
