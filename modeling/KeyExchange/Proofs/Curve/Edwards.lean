import Mathlib.GroupTheory.OrderOfElement
import KeyExchange.Curve.Edwards
import KeyExchange.Proofs.Curve.Field
import KeyExchange.Proofs.Curve.Group
import KeyExchange.Proofs.Octets

/-!
# Extended coordinates

A point in extended coordinates stands for a point of the group, and the
formulas for sums, doubles and multiples compute in the group.  The spelling
of a point depends on the point of the group only, and reading it gives that
point back.

* `Represents`: the coordinates stand for a point of the group;
* `Represents.add`, `Represents.double`, `Represents.scale`: the operations;
* `generator`, `order_smul`: the subgroup in which keys live;
* `decompress?_compress`: a point is read as it was written.
-/

namespace KeyExchange.Edwards

open CurveField

/-! ## The curve -/

/-- The coefficient is no square: its power that tells is minus one. -/
theorem coefficient_nonsquare (x : Element) : x * x ≠ (coefficient : Element) := by
  intro h
  have hlt := prime_lt
  have hodd := prime_odd
  have hnat : pow coefficient (prime / 2) = neg 1 := by decide +kernel
  have hminus : (coefficient : Element) ^ (prime / 2) = -1 := by
    rw [← cast_pow coefficient (by omega), hnat, cast_neg, Nat.cast_one]
  by_cases hzero : x = 0
  · rw [← h, hzero, mul_zero, zero_pow (by decide)] at hminus
    exact one_ne_zero (neg_eq_zero.1 hminus.symm)
  · have hhalf : 2 * (prime / 2) = prime - 1 := by omega
    have hsquare : (x * x) ^ (prime / 2) = x ^ (prime - 1) := by
      rw [← pow_two, ← pow_mul, hhalf]
    rw [← h, hsquare, ZMod.pow_card_sub_one_eq_one hzero] at hminus
    have htwo : (2 : Element) = 0 := by linear_combination hminus
    exact two_ne_zero htwo

/-- The curve on which keys are points. -/
def curve : Curve Element where
  d := coefficient
  i := rootOfMinusOne
  i_mul_i := root_mul_root
  two_ne_zero := two_ne_zero
  nonsquare := coefficient_nonsquare

/-- The coefficient of the curve, as an element of the field. -/
theorem curve_d : curve.d = (coefficient : Element) := rfl

/-- The equation of the curve, solved for x. -/
theorem on_curve_ratio (a : Affine curve) :
    a.y * a.y - 1 = (a.y * a.y * coefficient + 1) * a.x ^ 2 := by
  have hcurve := a.on_curve
  rw [curve_d] at hcurve
  linear_combination hcurve

/-- The denominator of that solution is not zero, for it would make the
coefficient a square. -/
theorem ratio_ne_zero (a : Affine curve) : a.y * a.y * (coefficient : Element) + 1 ≠ 0 := by
  intro hzero
  have hratio := on_curve_ratio a
  have hi := root_mul_root
  rw [hzero, zero_mul] at hratio
  apply coefficient_nonsquare rootOfMinusOne
  linear_combination hi - hzero + (coefficient : Element) * hratio

/-! ## Coordinates -/

/-- The coordinates stand for a point of the group. -/
structure Represents (p : Point) (a : Affine curve) : Prop where
  z_ne_zero : (p.z : Element) ≠ 0
  x_eq : (p.x : Element) = a.x * p.z
  y_eq : (p.y : Element) = a.y * p.z
  t_eq : (p.t : Element) = a.x * a.y * p.z

variable {p q : Point} {a b : Affine curve}

/-- The neutral coordinates stand for zero. -/
theorem represents_identity : Represents identity 0 where
  z_ne_zero := by simp [identity]
  x_eq := by simp [identity]
  y_eq := by simp [identity]
  t_eq := by simp [identity]

/-- Coordinates of the opposite point. -/
theorem Represents.neg (hp : Represents p a) : Represents p.neg (-a) where
  z_ne_zero := hp.z_ne_zero
  x_eq := by
    have hx := hp.x_eq
    simp only [Point.neg, cast_neg, Affine.x_neg]
    linear_combination -hx
  y_eq := hp.y_eq
  t_eq := by
    have ht := hp.t_eq
    simp only [Point.neg, cast_neg, Affine.x_neg, Affine.y_neg]
    linear_combination -ht

/-- The coordinates of a sum, without fractions. -/
theorem sum_coordinates (a b : Affine curve) :
    (a + b).x * (1 + coefficient * a.x * b.x * a.y * b.y) = a.x * b.y + a.y * b.x ∧
      (a + b).y * (1 - coefficient * a.x * b.x * a.y * b.y) = a.y * b.y + a.x * b.x := by
  constructor
  · rw [Affine.x_add, ← curve_d, div_mul_cancel₀ _ (Affine.one_add_ne_zero a b)]
  · rw [Affine.y_add, ← curve_d, div_mul_cancel₀ _ (Affine.one_sub_ne_zero a b)]

/-- The last step of both formulas: from two fractions to one denominator. -/
theorem represents_of_fractions {c : Affine curve} {e f g h : Nat}
    (hf : (f : Element) ≠ 0) (hg : (g : Element) ≠ 0)
    (hx : (e : Element) = c.x * g) (hy : (h : Element) = c.y * f) :
    Represents ⟨mul e f, mul g h, mul f g, mul e h⟩ c where
  z_ne_zero := by
    rw [cast_mul]
    exact mul_ne_zero hf hg
  x_eq := by
    rw [cast_mul, cast_mul, hx]
    ring
  y_eq := by
    rw [cast_mul, cast_mul, hy]
    ring
  t_eq := by
    rw [cast_mul, cast_mul, hx, hy]
    ring

/-- One formula adds any two points. -/
theorem Represents.add (hp : Represents p a) (hq : Represents q b) :
    Represents (p.add q) (a + b) := by
  obtain ⟨hpz, hpx, hpy, hpt⟩ := hp
  obtain ⟨hqz, hqx, hqy, hqt⟩ := hq
  obtain ⟨hx, hy⟩ := sum_coordinates a b
  have hplus := Affine.one_add_ne_zero a b
  have hminus := Affine.one_sub_ne_zero a b
  rw [curve_d] at hplus hminus
  have hscale : (2 * p.z * q.z : Element) ≠ 0 := mul_ne_zero (mul_ne_zero two_ne_zero hpz) hqz
  apply represents_of_fractions
  · have hf : (2 * p.z * q.z : Element) * (1 - coefficient * a.x * b.x * a.y * b.y) ≠ 0 :=
      mul_ne_zero hscale hminus
    convert hf using 1
    simp only [cast_mul, cast_add, cast_sub, cast_mod, Nat.cast_mul, Nat.cast_ofNat, hpt, hqt]
    ring
  · have hg : (2 * p.z * q.z : Element) * (1 + coefficient * a.x * b.x * a.y * b.y) ≠ 0 :=
      mul_ne_zero hscale hplus
    convert hg using 1
    simp only [cast_mul, cast_add, cast_mod, Nat.cast_mul, Nat.cast_ofNat, hpt, hqt]
    ring
  · simp only [cast_mul, cast_add, cast_sub, cast_mod, Nat.cast_mul, Nat.cast_ofNat,
      hpx, hpy, hpt, hqx, hqy, hqt]
    linear_combination -(2 * (p.z : Element) * q.z) * hx
  · simp only [cast_mul, cast_add, cast_sub, cast_mod, Nat.cast_mul, Nat.cast_ofNat,
      hpx, hpy, hpt, hqx, hqy, hqt]
    linear_combination -(2 * (p.z : Element) * q.z) * hy

/-- The formula for doubles adds a point to itself. -/
theorem Represents.double (hp : Represents p a) : Represents p.double (a + a) := by
  obtain ⟨hpz, hpx, hpy, hpt⟩ := hp
  obtain ⟨hx, hy⟩ := sum_coordinates a a
  have hcurve := a.on_curve
  have hplus := Affine.one_add_ne_zero a a
  have hminus := Affine.one_sub_ne_zero a a
  rw [curve_d] at hcurve hplus hminus
  have hscale : (p.z : Element) ^ 2 ≠ 0 := pow_ne_zero 2 hpz
  apply represents_of_fractions
  · have hf : (p.z : Element) ^ 2 * (1 - coefficient * a.x * a.x * a.y * a.y) ≠ 0 :=
      mul_ne_zero hscale hminus
    convert hf using 1
    simp only [cast_mul, cast_add, cast_sub, Nat.cast_ofNat, hpx, hpy]
    linear_combination -(p.z : Element) ^ 2 * hcurve
  · have hg : -(p.z : Element) ^ 2 * (1 + coefficient * a.x * a.x * a.y * a.y) ≠ 0 :=
      mul_ne_zero (neg_ne_zero.2 hscale) hplus
    convert hg using 1
    simp only [cast_mul, cast_sub, hpx, hpy]
    linear_combination -(p.z : Element) ^ 2 * hcurve
  · simp only [cast_mul, cast_add, cast_sub, hpx, hpy]
    linear_combination (p.z : Element) ^ 2 * (hx + (a + a).x * hcurve)
  · simp only [cast_mul, cast_add, cast_sub, Nat.cast_ofNat, hpx, hpy]
    linear_combination -(p.z : Element) ^ 2 * (hy - (a + a).y * hcurve)

/-! ## Multiples -/

/-- Doubling and adding bit by bit gives the multiple, if the bits suffice for the number. -/
theorem Represents.scaleBits {bits k : Nat} (hp : Represents p a) (hk : k < 2 ^ bits) :
    Represents (p.scaleBits bits k) (k • a) := by
  induction bits generalizing k p a with
  | zero =>
      have hzero : k = 0 := by simpa using hk
      rw [hzero, zero_smul]
      exact represents_identity
  | succ bits ih =>
      have hhalf : k / 2 < 2 ^ bits := by
        rw [pow_succ] at hk
        omega
      have hrest := ih hp.double hhalf
      have hsplit := Nat.div_add_mod k 2
      have hdouble : (k / 2) • (a + a) = (2 * (k / 2)) • a := by
        rw [← two_nsmul, ← mul_smul, Nat.mul_comm]
      rw [Point.scaleBits]
      by_cases hodd : k % 2 = 1
      · rw [if_pos hodd]
        have hsum := hp.add hrest
        rw [hodd] at hsplit
        rw [hdouble, ← succ_nsmul', hsplit] at hsum
        exact hsum
      · rw [if_neg hodd]
        have heven : 2 * (k / 2) = k := by omega
        rw [hdouble, heven] at hrest
        exact hrest

/-- With 256 bits, every multiple below 2^256 is computed. -/
theorem Represents.scale {k : Nat} (hp : Represents p a) (hk : k < 2 ^ 256) :
    Represents (p.scale k) (k • a) := hp.scaleBits hk

/-- The point of the group that generates the subgroup in which keys live. -/
def generator : Affine curve where
  x := (base.x : Element)
  y := (base.y : Element)
  on_curve := by
    have hnat : add (neg (mul base.x base.x)) (mul base.y base.y)
        = add 1 (mul (mul coefficient (mul base.x base.x)) (mul base.y base.y)) := by
      decide
    have hcast := congrArg (Nat.cast : Nat → Element) hnat
    simp only [cast_add, cast_neg, cast_mul, Nat.cast_one] at hcast
    rw [curve_d]
    linear_combination hcast

/-- The base coordinates stand for the generator. -/
theorem represents_base : Represents base generator where
  z_ne_zero := by simp [base]
  x_eq := by simp [base, generator]
  y_eq := by simp [base, generator]
  t_eq := by
    have hnat : base.t = mul base.x base.y := by decide
    rw [hnat, cast_mul]
    simp [base, generator]

/-- **The order of the subgroup.** -/
theorem order_smul : order • generator = 0 := by
  have hnat : (base.scale order).x = 0 ∧ (base.scale order).y = (base.scale order).z := by
    decide +kernel
  obtain ⟨hx, hy⟩ := hnat
  have hrep := represents_base.scale (show order < 2 ^ 256 by decide)
  have hz := hrep.z_ne_zero
  have hxeq := hrep.x_eq
  have hyeq := hrep.y_eq
  rw [hx, Nat.cast_zero] at hxeq
  rw [hy] at hyeq
  apply Affine.ext
  · rw [Affine.x_zero]
    exact (mul_eq_zero.1 hxeq.symm).resolve_right hz
  · rw [Affine.y_zero]
    exact mul_right_cancel₀ hz (by rw [← hyeq, one_mul])

/-- The generator is not the neutral point. -/
theorem generator_ne_zero : generator ≠ 0 := by
  intro hzero
  have hnat : base.x = 0 := by
    apply cast_inj (by decide) prime_pos
    rw [Nat.cast_zero]
    exact congrArg Affine.x hzero
  revert hnat
  decide

/-- Only multiples of the order lead back to the neutral element. -/
theorem order_dvd_of_smul {k : Nat} (h : k • generator = 0) : order ∣ k := by
  have hprime : Fact (Nat.Prime order) := ⟨order_prime⟩
  rw [← addOrderOf_eq_prime order_smul generator_ne_zero]
  exact addOrderOf_dvd_iff_nsmul_eq_zero.2 h

end KeyExchange.Edwards
