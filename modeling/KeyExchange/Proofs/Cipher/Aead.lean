import Mathlib.Algebra.Group.Nat.Defs
import KeyExchange.Cipher.Aead

/-!
# Opening what was sealed

The keystream is as long as the message at least, and an octet combined twice
with the same octet is itself.  The tag stands behind the ciphertext, so it is
found by its length, and it is the tag of what stands before it.

* `ChaCha.apply_apply`: the keystream applied twice changes nothing;
* `Aead.decrypt_encrypt`: what was sealed opens, and to what it was;
* `Aead.encrypt_of_decrypt`: nothing else opens, so what opens to a message is what
  sealing makes of it;
* `Aead.Spoiled`: with another tag, or without one, `decrypt_of_spoiled`: it does not open.
-/

namespace KeyExchange

namespace ChaCha

/-- The key stream comes in blocks of 64 octets. -/
theorem length_keystream (key : Key) (nonce : Octets 12) (counter count : Nat) :
    (keystream key nonce counter count).length = 64 * count := by
  induction count generalizing counter with
  | zero => rfl
  | succ count ih =>
      rw [keystream, List.length_append, length_block, ih]
      omega

/-- A stream at least as long as the data gives the data back. -/
theorem zipWith_xor_cancel {data stream : Bytes} (h : data.length ≤ stream.length) :
    List.zipWith (· ^^^ ·) (List.zipWith (· ^^^ ·) data stream) stream = data := by
  induction data generalizing stream with
  | nil => rfl
  | cons b data ih =>
      cases stream with
      | nil => simp at h
      | cons k stream =>
          have hrest : data.length ≤ stream.length := by simpa using h
          have hbyte : b ^^^ k ^^^ k = b := by
            rw [UInt8.xor_assoc, UInt8.xor_self, UInt8.xor_zero]
          simp only [List.zipWith_cons_cons, ih hrest, hbyte]

/-- The blocks that are made for some data are enough for it. -/
theorem length_le_keystream (key : Key) (nonce : Octets 12) (data : Bytes) :
    data.length ≤ (keystream key nonce 1 (data.length / 64 + 1)).length := by
  rw [length_keystream]
  omega

/-- A ciphertext is as long as its message. -/
@[simp] theorem length_apply (key : Key) (nonce : Octets 12) (data : Bytes) :
    (apply key nonce data).length = data.length := by
  have hle := length_le_keystream key nonce data
  rw [apply, List.length_zipWith]
  omega

/-- **Twice is nothing.** -/
theorem apply_apply (key : Key) (nonce : Octets 12) (data : Bytes) :
    apply key nonce (apply key nonce data) = data := by
  have hcancel := zipWith_xor_cancel (length_le_keystream key nonce data)
  rw [apply, length_apply]
  exact hcancel

end ChaCha

namespace Aead

/-- A tag has its fixed length. -/
@[simp] theorem length_tagOf (key : ChaCha.Key) (nonce : Octets 12) (aad ciphertext : Bytes) :
    (tagOf key nonce aad ciphertext).length = tagLength :=
  Poly1305.length_tag _ _

/-- A ciphertext is as long as its message, so it fits when that does. -/
theorem fits_apply (key : ChaCha.Key) (nonce : Octets 12) (data : Bytes) :
    fits (ChaCha.apply key nonce data) = fits data := by
  rw [fits, fits, ChaCha.length_apply]

/-- **What was sealed opens**, and to what it was. -/
theorem decrypt_encrypt {key : Octets 32} {nonce : Octets 12} {aad message sealedMessage : Bytes}
    (h : encrypt key nonce aad message = some sealedMessage) :
    decrypt key nonce aad sealedMessage = some message := by
  unfold encrypt at h
  by_cases hfits : fits message
  · simp only [hfits, if_true, Option.some.injEq] at h
    subst h
    generalize hk : ChaCha.Key.ofOctets key = k
    let ciphertext := ChaCha.apply k nonce message
    let tag := tagOf k nonce aad ciphertext
    have htag : tag.length = tagLength := length_tagOf k nonce aad ciphertext
    have hlength : (ciphertext ++ tag).length - tagLength = ciphertext.length := by
      rw [List.length_append, htag, Nat.add_sub_cancel]
    have hlong : ¬ (ciphertext ++ tag).length < tagLength := by
      rw [List.length_append, htag]
      omega
    have hopen : fits ciphertext && tag == tag := by
      rw [fits_apply, hfits, beq_self_eq_true, Bool.and_self]
    unfold decrypt
    simp only [hk]
    rw [if_neg hlong, hlength, List.take_left, List.drop_left, if_pos hopen, ChaCha.apply_apply]
  · simp [hfits] at h

/-- What sealing makes of a message is the ciphertext and its tag. -/
theorem encrypt_eq_some_iff {key nonce} {aad message sealedMessage : Bytes} :
    encrypt key nonce aad message = some sealedMessage ↔
      fits message = true ∧
        sealedMessage = ChaCha.apply (.ofOctets key) nonce message
          ++ tagOf (.ofOctets key) nonce aad (ChaCha.apply (.ofOctets key) nonce message) := by
  unfold encrypt
  by_cases hfits : fits message = true
  · simp only [hfits, if_true, Option.some.injEq, true_and, eq_comm]
  · simp only [hfits, if_false, reduceCtorEq, false_and]

/-- **What opens was sealed.**  The tag is compared with that of what stands before it,
and the keystream gives the ciphertext back. -/
theorem encrypt_of_decrypt {key nonce} {aad message sealedMessage : Bytes}
    (h : decrypt key nonce aad sealedMessage = some message) :
    encrypt key nonce aad message = some sealedMessage := by
  unfold decrypt at h
  by_cases hshort : sealedMessage.length < tagLength
  · rw [if_pos hshort] at h
    cases h
  · rw [if_neg hshort] at h
    let ciphertext := sealedMessage.take (sealedMessage.length - tagLength)
    let tag := sealedMessage.drop (sealedMessage.length - tagLength)
    by_cases hopen : (fits ciphertext && tagOf (.ofOctets key) nonce aad ciphertext == tag) = true
    · rw [if_pos hopen, Option.some.injEq] at h
      obtain ⟨hfits, htag⟩ := Bool.and_eq_true_iff.1 hopen
      have hback : ChaCha.apply (.ofOctets key) nonce message = ciphertext := by
        rw [← h]
        exact ChaCha.apply_apply _ _ _
      rw [encrypt_eq_some_iff, hback, eq_of_beq htag]
      refine ⟨?_, (List.take_append_drop _ _).symm⟩
      rw [← h, fits_apply]
      exact hfits
    · rw [if_neg hopen] at h
      cases h

/-- The ciphertext with another tag, or what is too short to have one. -/
inductive Spoiled (sealedMessage : Bytes) : Bytes → Prop
  | retagged {tag : Bytes} (hlength : tag.length = tagLength)
      (hother : tag ≠ sealedMessage.drop (sealedMessage.length - tagLength)) :
      Spoiled sealedMessage (sealedMessage.take (sealedMessage.length - tagLength) ++ tag)
  | cut {short : Bytes} (hshort : short.length < tagLength) : Spoiled sealedMessage short

/-- **What was spoiled does not open.**  Its ciphertext would be the same, and so would
be its tag. -/
theorem decrypt_of_spoiled {key nonce} {aad message sealedMessage spoiled : Bytes}
    (h : decrypt key nonce aad sealedMessage = some message)
    (hspoiled : Spoiled sealedMessage spoiled) : decrypt key nonce aad spoiled = none := by
  obtain ⟨-, hsealed⟩ := encrypt_eq_some_iff.1 (encrypt_of_decrypt h)
  rcases h' : decrypt key nonce aad spoiled with _ | message'
  · rfl
  · obtain ⟨-, hsealed'⟩ := encrypt_eq_some_iff.1 (encrypt_of_decrypt h')
    generalize ChaCha.apply (.ofOctets key) nonce message = ciphertext at hsealed
    generalize ChaCha.apply (.ofOctets key) nonce message' = ciphertext' at hsealed'
    have htag := length_tagOf (.ofOctets key) nonce aad ciphertext
    have htag' := length_tagOf (.ofOctets key) nonce aad ciphertext'
    have hlength : sealedMessage.length - tagLength = ciphertext.length := by
      rw [hsealed, List.length_append, htag, Nat.add_sub_cancel]
    cases hspoiled with
    | @retagged tag htagLength hother =>
        rw [hlength] at hother hsealed'
        rw [hsealed, List.drop_left] at hother
        rw [hsealed, List.take_left] at hsealed'
        obtain ⟨rfl, rfl⟩ := List.append_inj' hsealed' (htagLength.trans htag'.symm)
        exact absurd rfl hother
    | cut hshort =>
        rw [hsealed', List.length_append, htag'] at hshort
        omega

end Aead

end KeyExchange
