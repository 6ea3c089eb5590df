import KeyExchange.Proofs.Curve.Agreement
import KeyExchange.Proofs.Curve.EdDsa
import KeyExchange.Proofs.Curve.Torsion

/-!
# One signature for two messages

A signature holds for a message when it answers for the multiple of the key that
the digest of the message calls for.  If it holds for two messages, their digests
call for the same multiple.  For the key of a seed this means that the digests
agree modulo the order of the generator; only keys of small order, which no seed
has, leave them more room.  The neutral key leaves all the room there is: one
signature holds for every message under it.

* `challenge`: the multiple that a message calls for;
* `verify_iff_of_verify`: when a signature holds for a second message;
* `isSmall`: the key is a point of small order, `isSmall_publicKey`: which no seed
  has;
* `verify_iff_challenge_eq`: a second message under any other key;
* `verify_neutral`: what holds under the neutral key.
-/

namespace KeyExchange.EdDsa

open Edwards

variable {key : Octets 32} {signature : Octets 64} {m m' : Bytes} {a b : Affine curve}

/-! ## Verification in the group -/

/-- The octets of a key are read as this point. -/
def Denotes (key : Octets 32) (a : Affine curve) : Prop :=
  ∃ p, decompress? key = some p ∧ Represents p a

/-- The octets of a key are read as one point at most. -/
theorem Denotes.unique (ha : Denotes key a) (hb : Denotes key b) : a = b := by
  obtain ⟨p, hp, hrep⟩ := ha
  obtain ⟨q, hq, hrep'⟩ := hb
  rw [hp] at hq
  cases hq
  exact hrep.unique hrep'

/-- The spelling of a point denotes it. -/
theorem denotes_spelling (a : Affine curve) : Denotes (spelling a) a := decompress?_spelling a

/-- The multiple of the key that a signature on a message has to answer for. -/
def challenge (key : Octets 32) (signature : Octets 64) (message : Bytes) : Nat :=
  scalarOf (Sha512.hash (signature.toList.take 32 ++ key.toList ++ message))

/-- The multiple that is called for is below the order. -/
theorem challenge_lt (key : Octets 32) (signature : Octets 64) (message : Bytes) :
    challenge key signature message < order := scalarOf_lt _

/-- The number with which it answers. -/
def response (signature : Octets 64) : Nat := littleEndian (signature.toList.drop 32)

/-- The point that a signature on a message has to name. -/
def awaited (a : Affine curve) (key : Octets 32) (signature : Octets 64) (message : Bytes) :
    Affine curve :=
  response signature • generator + challenge key signature message • -a

/-- A signature is valid when its number is reduced and it names the point that is awaited. -/
theorem judge_eq_valid_iff {p : Point} (hp : Represents p a) :
    judge p key m signature = .valid ↔ response signature < order ∧
      (spelling (awaited a key signature m)).toList = signature.toList.take 32 := by
  have hjudge : judge p key m signature
      = if order ≤ response signature then .badSignature
        else if ((base.scale (response signature)).add
            (p.neg.scale (challenge key signature m))).compress.toList = signature.toList.take 32
          then .valid else .badSignature := rfl
  rw [hjudge]
  by_cases hlarge : order ≤ response signature
  · simp [hlarge]
  · have hlt : response signature < order := Nat.not_le.1 hlarge
    have hresponse := represents_base.scale (hlt.trans order_lt)
    have hchallenge := hp.neg.scale ((challenge_lt key signature m).trans order_lt)
    rw [if_neg hlarge, (hresponse.add hchallenge).compress_eq, awaited]
    simp [hlt]

/-- **Verification**, in terms of the group. -/
theorem verify_eq_valid_iff :
    verify key m signature = .valid ↔
      ∃ a, Denotes key a ∧ response signature < order ∧
        (spelling (awaited a key signature m)).toList = signature.toList.take 32 := by
  unfold verify
  rcases hread : decompress? key with _ | p
  · simp [Denotes, hread]
  · obtain ⟨a, ha⟩ := represents_of_decompress? hread
    rw [Option.map_some, Option.getD_some, judge_eq_valid_iff ha]
    constructor
    · exact fun hvalid => ⟨a, ⟨p, hread, ha⟩, hvalid⟩
    · intro hparts
      obtain ⟨b, hb, hvalid⟩ := hparts
      rwa [hb.unique ⟨p, hread, ha⟩] at hvalid

/-! ## Two messages -/

/-- **A second message.**  A signature that holds for one message holds for another
exactly when both call for the same multiple of the key. -/
theorem verify_iff_of_verify (ha : Denotes key a) (h : verify key m signature = .valid) :
    verify key m' signature = .valid ↔
      challenge key signature m' • a = challenge key signature m • a := by
  obtain ⟨b, hb, hresponse, hclaimed⟩ := verify_eq_valid_iff.1 h
  obtain rfl := hb.unique ha
  have hsame : verify key m' signature = .valid ↔
      awaited b key signature m' = awaited b key signature m := by
    rw [verify_eq_valid_iff, ← hclaimed]
    constructor
    · intro hparts
      obtain ⟨c, hc, -, hspelled⟩ := hparts
      obtain rfl := hc.unique ha
      exact spelling_injective (Octets.ext hspelled)
    · intro hequal
      exact ⟨b, ha, hresponse, by rw [hequal]⟩
  rw [hsame, awaited, awaited, add_right_inj, smul_neg, smul_neg, neg_inj]

/-- Below the order of the generator, two different multiples of a point agree only
when its order is small. -/
theorem eq_or_eight_smul {k n : Nat} (hk : k < order) (hn : n < order) (h : k • a = n • a) :
    k = n ∨ 8 • a = 0 := by
  wlog hle : k ≤ n generalizing k n
  · exact (this hn hk h.symm (Nat.le_of_not_le hle)).imp_left Eq.symm
  · rcases hle.eq_or_lt with hsame | hlt
    · exact .inl hsame
    · have hdifference : (n - k) • a = 0 := by
        have hsplit : n • a = k • a + (n - k) • a := by
          rw [← add_nsmul, Nat.add_sub_cancel' hle]
        rw [← h] at hsplit
        exact left_eq_add.1 hsplit
      exact .inr (eight_smul_of_smul (by omega) (by omega) hdifference)

/-! ## Small keys -/

/-- The key is a point of small order: eight times it is the neutral element. -/
def isSmall (key : Octets 32) : Bool :=
  (decompress? key).any fun p => p.double.double.double.compress == identity.compress

/-- A key is of small order when eight times its point is the neutral point. -/
theorem isSmall_iff (ha : Denotes key a) : isSmall key = true ↔ 8 • a = 0 := by
  obtain ⟨p, hp, hrep⟩ := ha
  have height : a + a + (a + a) + (a + a + (a + a)) = 8 • a := by abel
  rw [isSmall, hp, Option.any_some, beq_iff_eq,
    hrep.double.double.double.compress_eq_iff represents_identity, height]

/-- The key of a seed. -/
theorem publicKey_eq (seed : Octets 32) :
    publicKey seed = spelling (secretScalar seed • generator) :=
  compress_scale ((clamp_lt _).trans (by decide))

/-- **No seed has a small key.** -/
theorem isSmall_publicKey (seed : Octets 32) : isSmall (publicKey seed) = false := by
  have hdenotes : Denotes (publicKey seed) (secretScalar seed • generator) := by
    rw [publicKey_eq]
    exact denotes_spelling _
  rw [← Bool.not_eq_true, isSmall_iff hdenotes]
  intro hzero
  rw [← mul_smul] at hzero
  rcases order_prime.dvd_mul.1 (order_dvd_of_smul hzero) with height | hscalar
  · exact absurd (Nat.le_of_dvd (by decide) height) (by decide)
  · let digest : Octets 32 := ⟨(Sha512.hash seed.toList).toList.take 32, by
      rw [List.length_take, Octets.length_toList]
      rfl⟩
    exact Agreement.order_not_dvd digest (Dvd.dvd.mul_left hscalar 2)

/-- **A second message under a key that is not small**: a signature holds for it too
exactly when it calls for the same multiple as the first. -/
theorem verify_iff_challenge_eq (hkey : isSmall key = false) (h : verify key m signature = .valid) :
    verify key m' signature = .valid ↔ challenge key signature m = challenge key signature m' := by
  obtain ⟨a, ha, -⟩ := verify_eq_valid_iff.1 h
  rw [verify_iff_of_verify ha h]
  constructor
  · intro hsame
    rcases eq_or_eight_smul (challenge_lt _ _ _) (challenge_lt _ _ _) hsame with heq | hzero
    · exact heq.symm
    · rw [(isSmall_iff ha).2 hzero] at hkey
      cases hkey
  · intro heq
    rw [heq]

/-- The neutral element as a key. -/
def neutralKey : Octets 32 := identity.compress

/-- The neutral element and the number zero as a signature. -/
def neutralSignature : Octets 64 :=
  ⟨identity.compress.toList ++ List.replicate 32 0, by simp [Octets.length_toList]⟩

/-- **Under the neutral key one signature holds for every message.** -/
theorem verify_neutral (m : Bytes) : verify neutralKey m neutralSignature = .valid := by
  have hspelling : identity.compress = spelling 0 := represents_identity.compress_eq
  have hdenotes : Denotes neutralKey 0 := by
    rw [neutralKey, hspelling]
    exact denotes_spelling 0
  obtain ⟨hclaimed, hnumber⟩ := @halves identity.compress (List.replicate 32 0)
  have hresponse : response neutralSignature = 0 := by
    rw [response, neutralSignature, hnumber]
    decide
  refine verify_eq_valid_iff.2 ⟨0, hdenotes, ?_, ?_⟩
  · rw [hresponse]
    exact order_prime.pos
  · rw [awaited, hresponse, zero_smul, neg_zero, smul_zero, add_zero, neutralSignature, hclaimed,
      hspelling]

end KeyExchange.EdDsa
