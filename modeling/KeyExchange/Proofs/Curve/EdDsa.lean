import KeyExchange.Curve.EdDsa
import KeyExchange.Proofs.Curve.Spelling

/-!
# Honest signatures hold

Whoever signs with a seed is believed under the public key of that seed: the
equation that verification checks is `S • B = R + k • A`, and the signer chose
`S` so that it holds.  The number `S` is reduced modulo the order of `B`,
which changes no multiple of `B`.

* `mod_order_smul`: what is reduced modulo the order has the same multiple;
* `verify_sign`: the signature of a seed holds under its public key.
-/

namespace KeyExchange.EdDsa

open Edwards

/-- The order fits 32 octets. -/
theorem order_lt : order < 2 ^ 256 := by decide

/-- A digest as a scalar is below the order. -/
theorem scalarOf_lt (digest : Octets 64) : scalarOf digest < order :=
  Nat.mod_lt _ order_prime.pos

/-- The bits of a secret scalar are within its width. -/
theorem clamp_lt (n : Nat) : clamp n < 2 ^ 255 := by
  unfold clamp
  rw [Nat.one_shiftLeft]
  omega

/-- What is reduced modulo the order has the same multiple. -/
theorem mod_order_smul (n : Nat) : (n % order) • generator = n • generator := by
  have hsplit := Nat.mod_add_div n order
  have hmultiple : (order * (n / order)) • generator = 0 := by
    rw [mul_comm, mul_smul, order_smul, smul_zero]
  calc (n % order) • generator
      = (n % order) • generator + (order * (n / order)) • generator := by
        rw [hmultiple, add_zero]
    _ = n • generator := by rw [← add_smul, hsplit]

/-- A multiple of the generator, written. -/
theorem compress_scale {k : Nat} (hk : k < 2 ^ 256) :
    (base.scale k).compress = spelling (k • generator) :=
  (represents_base.scale hk).compress_eq

/-- The left side of what verification computes, from the key of a scalar. -/
theorem expected_eq {p : Point} {a r k : Nat} (hp : Represents p (a • generator))
    (hk : k < 2 ^ 256) :
    ((base.scale ((k * a + r) % order)).add (p.neg.scale k)).compress
      = spelling (r • generator) := by
  have hlt : (k * a + r) % order < 2 ^ 256 :=
    (Nat.mod_lt _ order_prime.pos).trans order_lt
  have hsum := (represents_base.scale hlt).add (hp.neg.scale hk)
  have hgroup : ((k * a + r) % order) • generator + k • -(a • generator) = r • generator := by
    rw [mod_order_smul, add_smul, mul_smul, smul_neg]
    abel
  rw [hgroup] at hsum
  exact hsum.compress_eq

/-- The two halves of a signature. -/
theorem halves {r : Octets 32} {s : Bytes} :
    (r.toList ++ s).take 32 = r.toList ∧ (r.toList ++ s).drop 32 = s := by
  have hlength := r.length_toList
  exact ⟨List.take_left' hlength, List.drop_left' hlength⟩

/-- What verification asks of a signature. -/
theorem judge_eq_valid {point : Point} {key : Octets 32} {message : Bytes}
    {signature : Octets 64} {claimed : Bytes} {s : Nat}
    (hclaimed : signature.toList.take 32 = claimed)
    (hs : littleEndian (signature.toList.drop 32) = s) (hlt : s < order)
    (hexpected :
      ((base.scale s).add (point.neg.scale
        (scalarOf (Sha512.hash (claimed ++ key.toList ++ message))))).compress.toList = claimed) :
    judge point key message signature = .valid := by
  have hnot : ¬ order ≤ s := Nat.not_le.2 hlt
  unfold judge
  rw [hclaimed, hs, if_neg hnot, if_pos hexpected]

/-- The number that the digest of a secret string and a message leads to. -/
def commitment (seed : Octets 32) (message : Bytes) : Nat :=
  scalarOf (Sha512.hash ((Sha512.hash seed.toList).toList.drop 32 ++ message))

/-- What a signature consists of. -/
theorem toList_sign (seed : Octets 32) (message : Bytes) :
    let claimed := (base.scale (commitment seed message)).compress.toList
    let k := scalarOf (Sha512.hash (claimed ++ (publicKey seed).toList ++ message))
    (sign seed message).toList
      = claimed ++ ofNatLE 32 ((k * secretScalar seed + commitment seed message) % order) := rfl

/-- **Honest signatures hold.** -/
theorem verify_sign (seed : Octets 32) (message : Bytes) :
    verify (publicKey seed) message (sign seed message) = .valid := by
  have ha : secretScalar seed < 2 ^ 256 := (clamp_lt _).trans (by decide)
  have hr : commitment seed message < 2 ^ 256 := (scalarOf_lt _).trans order_lt
  have hkey : publicKey seed = spelling (secretScalar seed • generator) := compress_scale ha
  have hpoint := compress_scale hr
  have hsigned := toList_sign seed message
  dsimp only at hsigned
  obtain ⟨p, hread, hp⟩ := decompress?_spelling (secretScalar seed • generator)
  generalize hk : scalarOf (Sha512.hash ((base.scale (commitment seed message)).compress.toList
    ++ (publicKey seed).toList ++ message)) = k at hsigned
  have hklt : k < 2 ^ 256 := hk ▸ (scalarOf_lt _).trans order_lt
  have hs : (k * secretScalar seed + commitment seed message) % order < order :=
    Nat.mod_lt _ order_prime.pos
  have hclaimed : (sign seed message).toList.take 32
      = (base.scale (commitment seed message)).compress.toList := by
    rw [hsigned, halves.1]
  have hnumber : littleEndian ((sign seed message).toList.drop 32)
      = (k * secretScalar seed + commitment seed message) % order := by
    rw [hsigned, halves.2, littleEndian_ofNatLE]
    exact Nat.mod_eq_of_lt (hs.trans (order_lt.trans_eq (by decide)))
  have hvalid : judge p (publicKey seed) message (sign seed message) = .valid := by
    apply judge_eq_valid hclaimed hnumber hs
    rw [hk, expected_eq hp hklt, hpoint]
  unfold verify
  rw [hkey, hread, ← hkey, Option.map_some, Option.getD_some, hvalid]

end KeyExchange.EdDsa
