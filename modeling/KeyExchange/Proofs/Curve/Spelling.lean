import KeyExchange.Proofs.Curve.Edwards

/-!
# The spelling of a point

What is written of a point depends on the point of the group only, not on the
coordinates that it was computed in, and reading it gives that point back.
The parity in the top bit chooses between the two roots, which have different
parities unless both are zero.

* `Represents.compress_eq`: what is written;
* `decompress?_spelling`: a point is read as it was written.
-/

namespace KeyExchange.Edwards

open CurveField

variable {p : Point} {a : Affine curve}

/-- The octets of a point of the group: its y coordinate with the parity of x. -/
def spelling (a : Affine curve) : Octets 32 :=
  Octets.ofNatLE 32 (a.y.val + a.x.val % 2 * (1 <<< 255))

/-- **Writing.**  The coordinates in which a point was computed leave no trace. -/
theorem Represents.compress_eq (hp : Represents p a) : p.compress = spelling a := by
  obtain ⟨hz, hx, hy, -⟩ := hp
  have hxval : mul p.x (inv p.z) = a.x.val := by
    apply eq_val (mul_lt _ _)
    rw [cast_mul, cast_inv, hx, mul_inv_cancel_right₀ hz]
  have hyval : mul p.y (inv p.z) = a.y.val := by
    apply eq_val (mul_lt _ _)
    rw [cast_mul, cast_inv, hy, mul_inv_cancel_right₀ hz]
  rw [Point.compress, spelling, hxval, hyval]

/-- The number that the octets spell. -/
theorem littleEndian_spelling (a : Affine curve) :
    littleEndian (spelling a).toList = a.y.val + a.x.val % 2 * (1 <<< 255) := by
  have hprime := prime_lt
  have hy := ZMod.val_lt a.y
  have hfits : a.y.val + a.x.val % 2 * (1 <<< 255) < 256 ^ 32 := by
    have hwidth : 256 ^ 32 = 2 * 2 ^ 255 := by decide
    rw [hwidth, Nat.one_shiftLeft]
    omega
  exact littleEndian_octets hfits

/-- Of the two roots, the parity tells which was written. -/
theorem root_of_parity {e : Nat} {x : Element} (he : e < prime) (heven : e % 2 = 0)
    (hroot : (e : Element) = x ∨ (e : Element) = -x) :
    (((if x.val % 2 = 1 then neg e else e : Nat)) : Element) = x := by
  have hval : x.val < prime := ZMod.val_lt x
  by_cases hodd : x.val % 2 = 1
  · rw [if_pos hodd, cast_neg]
    rcases hroot with hsame | hminus
    · have heq : e = x.val := eq_val he hsame
      omega
    · rw [hminus, neg_neg]
  · rw [if_neg hodd]
    rcases hroot with hsame | hminus
    · exact hsame
    · -- The two roots have different parities, unless both are zero.
      by_cases hzero : e = 0
      · rw [hzero, Nat.cast_zero] at hminus ⊢
        exact (neg_eq_zero.1 hminus.symm).symm
      · have hneg : neg e = x.val := by
          apply eq_val (neg_lt e)
          rw [cast_neg, hminus, neg_neg]
        have hprime := prime_odd
        rw [neg_of_ne_zero he hzero] at hneg
        omega

/-- **Reading.**  A point is read as it was written. -/
theorem decompress?_spelling (a : Affine curve) :
    ∃ p, decompress? (spelling a) = some p ∧ Represents p a := by
  have hprime := prime_lt
  have hyval := ZMod.val_lt a.y
  have hycast : ((a.y.val : Nat) : Element) = a.y := ZMod.natCast_zmod_val a.y
  have htop : a.y.val < 1 <<< 255 := by
    rw [Nat.one_shiftLeft]
    omega
  have hlow : littleEndian (spelling a).toList % (1 <<< 255) % prime = a.y.val := by
    rw [littleEndian_spelling, Nat.add_mul_mod_self_right, Nat.mod_eq_of_lt htop,
      Nat.mod_eq_of_lt hyval]
  have hhigh : littleEndian (spelling a).toList / (1 <<< 255) % 2 = a.x.val % 2 := by
    rw [littleEndian_spelling, Nat.add_mul_div_right _ _ (Nat.zero_lt_of_lt htop),
      Nat.div_eq_of_lt htop, Nat.zero_add, Nat.mod_mod]
  let yy := mul a.y.val a.y.val
  have hyy : (yy : Element) = a.y * a.y := by rw [cast_mul, hycast]
  have hv : ((add (mul yy coefficient) 1 : Nat) : Element) = a.y * a.y * coefficient + 1 := by
    rw [cast_add, cast_mul, hyy, Nat.cast_one]
  have hu : ((sub yy 1 : Nat) : Element) = (add (mul yy coefficient) 1 : Nat) * a.x ^ 2 := by
    rw [hv, cast_sub, hyy, Nat.cast_one, on_curve_ratio]
  obtain ⟨e, he, hbound, heven, hroot⟩ := ratioRoot?_of_square (hv ▸ ratio_ne_zero a) hu
  have hx := root_of_parity hbound heven hroot
  let x := if a.x.val % 2 = 1 then neg e else e
  refine ⟨⟨x, a.y.val, 1, mul x a.y.val⟩, ?_, ?_⟩
  · unfold decompress?
    simp only [hlow, hhigh]
    rw [he, Option.map_some]
  · constructor
    · rw [Nat.cast_one]
      exact one_ne_zero
    · rw [hx, Nat.cast_one, mul_one]
    · rw [hycast, Nat.cast_one, mul_one]
    · rw [cast_mul, hx, hycast, Nat.cast_one, mul_one]

end KeyExchange.Edwards
