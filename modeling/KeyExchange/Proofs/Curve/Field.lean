import Mathlib.NumberTheory.LegendreSymbol.Basic
import Mathlib.Tactic.FieldSimp
import Mathlib.Tactic.LinearCombination
import KeyExchange.Proofs.Curve.Prime

/-!
# The numbers as elements of the field

The operations on numbers below the prime are those of the field of that many
elements, powers and inverses included.  A square root of a quotient is found
whenever there is one.

* `cast_add`, `cast_mul`, `cast_pow`, `cast_inv` and their like: the operations;
* `cast_inj`: numbers below the prime are told by their elements;
* `ratioRoot?_of_square`: the root that is found is the even one of the two.
-/

namespace KeyExchange.CurveField

instance : Fact (Nat.Prime prime) := ⟨prime_prime⟩

/-- An element of the field. -/
abbrev Element : Type := ZMod prime

/-! ## Operations -/

/-- The modulus is positive. -/
theorem prime_pos : 0 < prime := prime_prime.pos

/-- The modulus is zero in the field. -/
@[simp] theorem cast_prime : ((prime : Nat) : Element) = 0 := ZMod.natCast_self prime

/-- Reducing a number does not change its element. -/
theorem cast_mod (a : Nat) : ((a % prime : Nat) : Element) = a := ZMod.natCast_mod a prime

/-- Numbers below the prime are told by their elements. -/
theorem cast_inj {a b : Nat} (ha : a < prime) (hb : b < prime) (h : (a : Element) = b) :
    a = b := by
  have hmod := (ZMod.natCast_eq_natCast_iff' a b prime).1 h
  rwa [Nat.mod_eq_of_lt ha, Nat.mod_eq_of_lt hb] at hmod

/-- A number below the prime is the one that its element has. -/
theorem eq_val {n : Nat} {e : Element} (hn : n < prime) (h : (n : Element) = e) : n = e.val := by
  rw [← h, ZMod.val_cast_of_lt hn]

/-- Sums of numbers are sums in the field. -/
@[simp] theorem cast_add (a b : Nat) : ((add a b : Nat) : Element) = a + b := by
  rw [add, cast_mod, Nat.cast_add]

/-- Differences of numbers are differences in the field. -/
@[simp] theorem cast_sub (a b : Nat) : ((sub a b : Nat) : Element) = a - b := by
  have hle : b % prime ≤ prime := (Nat.mod_lt b prime_pos).le
  rw [sub, cast_mod, Nat.cast_add, Nat.cast_sub hle, cast_prime, cast_mod]
  ring

/-- Products of numbers are products in the field. -/
@[simp] theorem cast_mul (a b : Nat) : ((mul a b : Nat) : Element) = a * b := by
  rw [mul, cast_mod, Nat.cast_mul]

/-- The opposite of a number is the opposite in the field. -/
@[simp] theorem cast_neg (a : Nat) : ((neg a : Nat) : Element) = -a := by
  rw [neg, cast_sub, Nat.cast_zero, zero_sub]

/-- A difference is reduced. -/
theorem sub_lt (a b : Nat) : sub a b < prime := Nat.mod_lt _ prime_pos

/-- A product is reduced. -/
theorem mul_lt (a b : Nat) : mul a b < prime := Nat.mod_lt _ prime_pos

/-- An opposite is reduced. -/
theorem neg_lt (a : Nat) : neg a < prime := sub_lt 0 a

/-- Squaring computes powers. -/
theorem cast_powBits {bits e : Nat} (a : Nat) (he : e < 2 ^ bits) :
    ((powBits bits a e : Nat) : Element) = (a : Element) ^ e := by
  induction bits generalizing a e with
  | zero =>
      have hzero : e = 0 := by simpa using he
      rw [hzero, powBits, Nat.cast_one, pow_zero]
  | succ bits ih =>
      have hhalf : e / 2 < 2 ^ bits := by
        rw [pow_succ] at he
        omega
      have hsquare : ((a : Element) * a) ^ (e / 2) = (a : Element) ^ (2 * (e / 2)) := by
        rw [pow_mul, pow_two]
      have hsplit := Nat.div_add_mod e 2
      rw [powBits]
      by_cases hodd : e % 2 = 1
      · rw [if_pos hodd, cast_mul, ih (mul a a) hhalf, cast_mul, hsquare, ← pow_succ']
        congr 1
        omega
      · rw [if_neg hodd, ih (mul a a) hhalf, cast_mul, hsquare]
        congr 1
        omega

/-- The modulus has 255 bits. -/
theorem prime_lt : prime < 2 ^ 255 := by decide

/-- The modulus is above 5. -/
theorem prime_gt : 5 < prime := by decide

/-- Powers with exponents of 255 bits are powers in the field. -/
theorem cast_pow {e : Nat} (a : Nat) (he : e < 2 ^ 255) :
    ((pow a e : Nat) : Element) = (a : Element) ^ e := cast_powBits a he

/-- The inverse is that of the field, also of zero. -/
@[simp] theorem cast_inv (a : Nat) : ((inv a : Nat) : Element) = (a : Element)⁻¹ := by
  have hlt := prime_lt
  have hgt := prime_gt
  rw [inv, cast_pow a (by omega)]
  by_cases hzero : (a : Element) = 0
  · rw [hzero, inv_zero, zero_pow (by omega)]
  · have hone := ZMod.pow_card_sub_one_eq_one hzero
    have hsplit : prime - 1 = (prime - 2) + 1 := by omega
    rw [hsplit, pow_succ] at hone
    exact eq_inv_of_mul_eq_one_left hone

/-! ## Roots -/

/-- The root of minus one. -/
theorem root_mul_root : (rootOfMinusOne : Element) * rootOfMinusOne = -1 := by
  have hnat : mul rootOfMinusOne rootOfMinusOne = neg 1 := by decide
  have hcast := congrArg (Nat.cast : Nat → Element) hnat
  rwa [cast_mul, cast_neg, Nat.cast_one] at hcast

/-- Two is not zero in the field. -/
theorem two_ne_zero : (2 : Element) ≠ 0 := by
  intro h
  have hgt := prime_gt
  have hnat : 2 = 0 := cast_inj (by omega) (by omega) (by exact_mod_cast h)
  omega

/-- So the parity of a number is that of its negative turned over. -/
theorem neg_of_ne_zero {r : Nat} (hr : r < prime) (hne : r ≠ 0) : neg r = prime - r := by
  rw [neg, sub, Nat.mod_eq_of_lt hr, Nat.zero_add, Nat.mod_eq_of_lt (by omega)]

/-- The modulus is odd. -/
theorem prime_odd : prime % 2 = 1 := by decide

/-- Of a root and its negative the even one. -/
theorem even_root {r : Nat} (hr : r < prime) :
    ∃ e, (if r % 2 = 1 then neg r else r) = e ∧ e < prime ∧ e % 2 = 0 ∧
      ((e : Element) = r ∨ (e : Element) = -r) := by
  by_cases hodd : r % 2 = 1
  · refine ⟨neg r, if_pos hodd, neg_lt r, ?_, .inr (cast_neg r)⟩
    have hprime := prime_odd
    rw [neg_of_ne_zero hr (by omega)]
    omega
  · exact ⟨r, if_neg hodd, hr, by omega, .inl rfl⟩

/-- The first guess at a root of `u / v` is one up to the sign of the square. -/
theorem guess_of_square {u v : Nat} {x : Element} (h : (u : Element) = v * x ^ 2) :
    let r := (u : Element) * v ^ 3 * (u * v ^ 7) ^ ((prime - 5) / 8)
    (v : Element) * r ^ 2 = u ∨ (v : Element) * r ^ 2 = -u := by
  intro r
  have hexponent : 2 * ((prime - 5) / 8) + 1 = prime / 4 := by decide
  have hhalf : 2 * (prime / 4) = prime / 2 := by decide
  have hpower : (v : Element) * r ^ 2 = u * (v ^ 4 * x) ^ (prime / 2) := by
    rw [← hhalf, ← hexponent]
    simp only [r, h]
    generalize (prime - 5) / 8 = e
    ring
  by_cases hzero : (v : Element) ^ 4 * x = 0
  · left
    have hu : (u : Element) = 0 := by
      rcases mul_eq_zero.1 hzero with hv | hx
      · rw [h, pow_eq_zero_iff (by decide) |>.1 hv, zero_mul]
      · rw [h, hx, zero_pow (by decide), mul_zero]
    rw [hpower, hu, zero_mul]
  · rcases ZMod.pow_div_two_eq_neg_one_or_one prime hzero with hone | hminus
    · left
      rw [hpower, hone, mul_one]
    · right
      rw [hpower, hminus, mul_neg_one]

/-- The even one of a root and its negative is a root. -/
theorem even_of_square {r v : Nat} {x : Element} (hr : r < prime) (hv : (v : Element) ≠ 0)
    (hsquare : (v : Element) * (r : Element) ^ 2 = v * x ^ 2) :
    ∃ e, (if r % 2 = 1 then neg r else r) = e ∧ e < prime ∧ e % 2 = 0 ∧
      ((e : Element) = x ∨ (e : Element) = -x) := by
  have hroot : (r : Element) = x ∨ (r : Element) = -x :=
    sq_eq_sq_iff_eq_or_eq_neg.1 (mul_left_cancel₀ hv hsquare)
  obtain ⟨e, he, hbound, hparity, hsign⟩ := even_root hr
  refine ⟨e, he, hbound, hparity, ?_⟩
  rcases hsign with hsign | hsign
  · rw [hsign]
    exact hroot
  · rw [hsign]
    rcases hroot with hx | hx
    · exact .inr (by rw [hx])
    · exact .inl (by rw [hx, neg_neg])

/-- **Roots.**  When `u / v` is the square of `x`, the even one of `x` and its
negative is found. -/
theorem ratioRoot?_of_square {u v : Nat} {x : Element} (hv : (v : Element) ≠ 0)
    (h : (u : Element) = v * x ^ 2) :
    ∃ e, ratioRoot? u v = some e ∧ e < prime ∧ e % 2 = 0 ∧
      ((e : Element) = x ∨ (e : Element) = -x) := by
  let v3 := mul (mul v v) v
  let v7 := mul (mul v3 v3) v
  let r := mul (mul u v3) (pow (mul u v7) ((prime - 5) / 8))
  let check := mul v (mul r r)
  have hlt := prime_lt
  have hr : (r : Element) = u * v ^ 3 * (u * v ^ 7) ^ ((prime - 5) / 8) := by
    simp only [r, v7, v3, cast_mul, cast_pow _ (show (prime - 5) / 8 < 2 ^ 255 by omega)]
    ring
  have hcheck : (check : Element) = v * (r : Element) ^ 2 := by
    simp only [check, cast_mul]
    ring
  have hfound : ratioRoot? u v
      = (if check = u % prime then some r
          else if check = neg u then some (mul r rootOfMinusOne) else none).map
        fun r => if r % 2 = 1 then neg r else r := rfl
  rw [hfound]
  by_cases hpositive : check = u % prime
  · have hsquare : (v : Element) * (r : Element) ^ 2 = v * x ^ 2 := by
      rw [← hcheck, hpositive, cast_mod, h]
    obtain ⟨e, he, hrest⟩ := even_of_square (mul_lt _ _) hv hsquare
    exact ⟨e, by rw [if_pos hpositive, Option.map_some, he], hrest⟩
  · have hsign : (v : Element) * (r : Element) ^ 2 = -u := by
      rcases guess_of_square h with hsame | hminus
      · rw [← hr, ← hcheck] at hsame
        refine absurd (cast_inj (mul_lt _ _) (Nat.mod_lt u prime_pos) ?_) hpositive
        rw [hsame, cast_mod]
      · rwa [← hr] at hminus
    have hnegative : check = neg u := by
      refine cast_inj (mul_lt _ _) (neg_lt u) ?_
      rw [hcheck, hsign, cast_neg]
    have hsquare : (v : Element) * ((mul r rootOfMinusOne : Nat) : Element) ^ 2 = v * x ^ 2 := by
      have hi := root_mul_root
      rw [cast_mul, ← h]
      linear_combination (v : Element) * (r : Element) ^ 2 * hi - hsign
    obtain ⟨e, he, hrest⟩ := even_of_square (mul_lt _ _) hv hsquare
    exact ⟨e, by rw [if_neg hpositive, if_pos hnegative, Option.map_some, he], hrest⟩

end KeyExchange.CurveField
