import KeyExchange.Proofs.ScopeContents

/-!
# Fingerprints tell certificates apart

A certificate is told by its canonical encoding, however long its subject: the
two keys behind the subject have a fixed length, so the subject ends where they
begin.  Its fingerprint is a hash of that encoding.  Two certificates with one
fingerprint are therefore one certificate, or the hash has a collision.

* `encoding_injective`: the encoding of a certificate tells it;
* `Collide`: two encodings with one hash;
* `eq_of_fingerprint`: without that, fingerprints tell certificates.
-/

namespace KeyExchange.Certificate

open Cbor Outcome

/-- The field of a certificate that holds a key. -/
def keyField (number : UInt64) (key : Octets 32) : Bytes :=
  head 0 number.toNat ++ (head 2 32 ++ key.toList)

/-- The field of a key has the same length for every key. -/
theorem length_keyField (number : UInt64) (a b : Octets 32) :
    (keyField number a).length = (keyField number b).length := by
  simp only [keyField, List.length_append, a.length_toList, b.length_toList]

/-- The field of a key tells the key. -/
theorem keyField_inj {number : UInt64} {a b : Octets 32}
    (h : keyField number a = keyField number b) : a = b := by
  simp only [keyField, List.append_cancel_left_eq] at h
  exact Octets.ext h

/-- The encoding of a certificate: its subject and then its two keys. -/
def encoding (c : Certificate) : Bytes :=
  let subject := Text.Utf8.ofString c.subject
  head 5 3 ++ (head 0 0 ++ (head 3 subject.length ++ (subject ++
    (keyField 1 c.signingKey.octets ++ keyField 2 c.encryptionKey.octets))))

/-- The encoding is the canonical form of the content. -/
theorem canonicalBytes_toCbor (c : Certificate) : canonicalBytes c.toCbor = .ok c.encoding := by
  let subject := Text.Utf8.ofString c.subject
  let fields : List (UInt64 × Cbor) := [(0, .text c.subject), (1, .octets c.signingKey.octets),
    (2, .octets c.encryptionKey.octets)]
  let pieces : List (Bytes × Bytes) :=
    [(head 0 0, head 3 subject.length ++ subject),
      (head 0 1, head 2 c.signingKey.octets.toList.length ++ c.signingKey.octets.toList),
      (head 0 2, head 2 c.encryptionKey.octets.toList.length ++ c.encryptionKey.octets.toList)]
  have hascending : Ascending (fields.map Prod.fst) := (by decide : Ascending [0, 1, 2])
  have hpieces : FieldPieces fields pieces :=
    .cons ⟨rfl, rfl⟩ (.cons ⟨rfl, rfl⟩ (.cons ⟨rfl, rfl⟩ .nil))
  have hcanonical := (canonical_record_eq_ok_iff hascending).2 ⟨pieces, hpieces, rfl⟩
  have hencoding : head 5 pieces.length ++ pieces.flatMap (fun p => p.1 ++ p.2) = c.encoding := by
    simp [pieces, encoding, keyField, subject, Octets.length_toList]
  rw [hencoding] at hcanonical
  exact mapError_eq_ok_iff.2 hcanonical

/-- **The encoding of a certificate tells it.** -/
theorem encoding_injective {c c' : Certificate} (h : c.encoding = c'.encoding) : c = c' := by
  obtain ⟨subject, ⟨signing⟩, ⟨encryption⟩⟩ := c
  obtain ⟨subject', ⟨signing'⟩, ⟨encryption'⟩⟩ := c'
  simp only [encoding, List.append_cancel_left_eq] at h
  obtain ⟨-, -, hrest⟩ := head_append_inj (by decide) (by decide) h
  have hkeys : (keyField 1 signing ++ keyField 2 encryption).length
      = (keyField 1 signing' ++ keyField 2 encryption').length := by
    rw [List.length_append, List.length_append, length_keyField 1 signing signing',
      length_keyField 2 encryption encryption']
  obtain ⟨hsubject, hbehind⟩ := List.append_inj' hrest hkeys
  obtain ⟨hsigning, hencryption⟩ := List.append_inj hbehind (length_keyField 1 signing signing')
  rw [Text.Utf8.ofString_injective hsubject, keyField_inj hsigning, keyField_inj hencryption]

/-- The hash of fingerprints takes the encodings of two different certificates to
one value. -/
def Collide (c c' : Certificate) : Prop :=
  ∃ x y, canonicalBytes c.toCbor = .ok x ∧ canonicalBytes c'.toCbor = .ok y ∧ x ≠ y ∧
    Blake3.deriveKey (Text.Utf8.ofString fingerprintContext) x
      = Blake3.deriveKey (Text.Utf8.ofString fingerprintContext) y

/-- A certificate does not collide with itself. -/
theorem not_collide_self (c : Certificate) : ¬c.Collide c := by
  intro hcollide
  obtain ⟨x, y, hx, hy, hne, -⟩ := hcollide
  rw [hx] at hy
  exact hne (Except.ok.inj hy)

/-- Certificates with two fingerprints do not collide. -/
theorem not_collide_of_ne {c c' : Certificate} (h : c.fingerprint ≠ c'.fingerprint) :
    ¬c.Collide c' := by
  intro hcollide
  obtain ⟨x, y, hx, hy, -, hhash⟩ := hcollide
  apply h
  rw [fingerprint, fingerprint, hx, hy, ok_bind, ok_bind, hhash]

/-- **Fingerprints.**  Unless the hash has a collision, a fingerprint belongs to one
certificate. -/
theorem eq_of_fingerprint {c c' : Certificate} (hclean : ¬c.Collide c')
    (h : c.fingerprint = c'.fingerprint) : c = c' := by
  by_contra hne
  apply hclean
  have hencodings : c.encoding ≠ c'.encoding := fun heq => hne (encoding_injective heq)
  rw [fingerprint, fingerprint, canonicalBytes_toCbor, canonicalBytes_toCbor] at h
  have hhash := congrArg Fingerprint.octets (Except.ok.inj h)
  exact ⟨c.encoding, c'.encoding, canonicalBytes_toCbor c, canonicalBytes_toCbor c', hencodings,
    hhash⟩

end KeyExchange.Certificate
