import Mathlib.Algebra.Field.Basic
import Mathlib.Tactic.FieldSimp
import Mathlib.Tactic.LinearCombination
import Mathlib.Tactic.Ring

/-!
# The group of points

On the curve -x² + y² = 1 + d x² y² one formula adds any two points, provided
that minus one is a square and `d` is none: then its denominators are never
zero.  So the points are a group, and every law of it is an identity between
fractions.

* `one_add_ne_zero`, `one_sub_ne_zero`: no denominator is zero;
* `sum_sum_x`, `sum_sum_y`: a sum of three points as one fraction, from which
  `sum_assoc` is an identity between polynomials;
* the instance of an additive commutative group on `Affine`.
-/

namespace KeyExchange.Edwards

/-- The constants of a curve whose addition has no exceptions. -/
structure Curve (K : Type) [Field K] where
  d : K
  /-- A square root of minus one. -/
  i : K
  i_mul_i : i * i = -1
  two_ne_zero : (2 : K) ≠ 0
  nonsquare : ∀ x, x * x ≠ d

variable {K : Type} [Field K] {E : Curve K}

/-- A point of the curve. -/
@[ext]
structure Affine (E : Curve K) where
  x : K
  y : K
  on_curve : -x ^ 2 + y ^ 2 = 1 + E.d * x ^ 2 * y ^ 2

namespace Affine

/-! ## Denominators -/

/-- A square is not `d` times another, unless that is zero. -/
theorem eq_zero_of_square {a b : K} (h : a ^ 2 = -E.d * b ^ 2) : b = 0 := by
  by_contra hb
  have hsquare : (E.i * (a / b)) * (E.i * (a / b)) = E.d := by
    have hi := E.i_mul_i
    field_simp
    linear_combination a ^ 2 * hi - h
  exact E.nonsquare _ hsquare

/-- If the product in the denominators were a sign, `d` times a square would be one,
in two ways. -/
theorem square_of_product (p q : Affine E) {s e : K} (hs : s ^ 2 = 1) (he : e ^ 2 = 1)
    (h : E.d * p.x * q.x * p.y * q.y = s) :
    (E.i * p.x + e * s * p.y) ^ 2 = -E.d * (E.i * p.x * p.y * (E.i * q.x + e * q.y)) ^ 2 := by
  have hi := E.i_mul_i
  have hp := p.on_curve
  have hq := q.on_curve
  linear_combination
    (p.x ^ 2 + E.d * p.x ^ 2 * p.y ^ 2 * ((E.i * q.x + e * q.y) ^ 2 - q.x ^ 2)) * hi
      + (p.y ^ 2 * s ^ 2 - E.d * p.x ^ 2 * p.y ^ 2 * q.y ^ 2) * he + (p.y ^ 2 - 1) * hs + hp
      - E.d * p.x ^ 2 * p.y ^ 2 * hq
      - (E.d * p.x * q.x * p.y * q.y + s + 2 * e * E.i * p.x * p.y) * h

/-- The product that stands in the denominators is no sign. -/
theorem product_ne_sign (p q : Affine E) {s : K} (hs : s ^ 2 = 1) :
    E.d * p.x * q.x * p.y * q.y ≠ s := by
  intro h
  have hi := E.i_mul_i
  have hproduct : E.d * p.x * q.x * p.y * q.y ≠ 0 := by
    intro hzero
    rw [← h, hzero] at hs
    simp at hs
  obtain ⟨hleft, hqy⟩ := mul_ne_zero_iff.1 hproduct
  obtain ⟨hleft, hpy⟩ := mul_ne_zero_iff.1 hleft
  obtain ⟨hleft, -⟩ := mul_ne_zero_iff.1 hleft
  obtain ⟨-, hpx⟩ := mul_ne_zero_iff.1 hleft
  have hiz : E.i ≠ 0 := by
    intro hzero
    rw [hzero] at hi
    simp at hi
  have hfront : E.i * p.x * p.y ≠ 0 := mul_ne_zero (mul_ne_zero hiz hpx) hpy
  have hvanish : ∀ e : K, e ^ 2 = 1 → E.i * q.x + e * q.y = 0 := by
    intro e he
    have hzero := eq_zero_of_square (square_of_product p q hs he h)
    exact (mul_eq_zero.1 hzero).resolve_left hfront
  have hsum := hvanish 1 (by ring)
  have hdifference := hvanish (-1) (by ring)
  have hdouble : 2 * q.y = 0 := by linear_combination hsum - hdifference
  exact hqy ((mul_eq_zero.1 hdouble).resolve_left E.two_ne_zero)

/-- The denominator of the x coordinate of a sum is not zero. -/
theorem one_add_ne_zero (p q : Affine E) : 1 + E.d * p.x * q.x * p.y * q.y ≠ 0 := by
  intro h
  exact product_ne_sign p q (by ring : (-1 : K) ^ 2 = 1) (by linear_combination h)

/-- The denominator of the y coordinate of a sum is not zero. -/
theorem one_sub_ne_zero (p q : Affine E) : 1 - E.d * p.x * q.x * p.y * q.y ≠ 0 := by
  intro h
  exact product_ne_sign p q (by ring : (1 : K) ^ 2 = 1) (by linear_combination -h)

/-! ## Fractions -/

section fractions

variable {d a b s t x y : K}

/-- Fractions are on the curve when their numerators and denominators satisfy its equation. -/
theorem on_curve_div (hs : s ≠ 0) (ht : t ≠ 0)
    (h : -a ^ 2 * t ^ 2 + b ^ 2 * s ^ 2 = s ^ 2 * t ^ 2 + d * a ^ 2 * b ^ 2) :
    -(a / s) ^ 2 + (b / t) ^ 2 = 1 + d * (a / s) ^ 2 * (b / t) ^ 2 := by
  field_simp
  linear_combination h

/-- The denominator of a sum with a fraction, freed from fractions. -/
theorem denominator_div (hs : s ≠ 0) (ht : t ≠ 0) :
    1 + d * (a / s) * x * (b / t) * y = (s * t + d * a * b * x * y) / (s * t) := by
  field_simp

/-- The numerator of a sum with a fraction, freed from fractions. -/
theorem numerator_div (hs : s ≠ 0) (ht : t ≠ 0) :
    a / s * y + b / t * x = (a * t * y + b * s * x) / (s * t) := by
  field_simp

end fractions

/-! ## The group -/

/-- The neutral point. -/
def neutral (E : Curve K) : Affine E := ⟨0, 1, by ring⟩

/-- The sum of two points. -/
def sum (p q : Affine E) : Affine E where
  x := (p.x * q.y + p.y * q.x) / (1 + E.d * p.x * q.x * p.y * q.y)
  y := (p.y * q.y + p.x * q.x) / (1 - E.d * p.x * q.x * p.y * q.y)
  on_curve := by
    have hp := p.on_curve
    have hq := q.on_curve
    apply on_curve_div (one_add_ne_zero p q) (one_sub_ne_zero p q)
    grind

/-- The opposite of a point. -/
def opposite (p : Affine E) : Affine E where
  x := -p.x
  y := p.y
  on_curve := by linear_combination p.on_curve

/-- The sum does not depend on the order. -/
theorem sum_comm (p q : Affine E) : sum p q = sum q p := by
  apply Affine.ext
  · simp only [sum]
    congr 1 <;> ring
  · simp only [sum]
    congr 1 <;> ring

/-- Adding the neutral point changes nothing. -/
theorem neutral_sum (p : Affine E) : sum (neutral E) p = p := by
  apply Affine.ext
  · simp [sum, neutral]
  · simp [sum, neutral]

/-- A point and its opposite cancel. -/
theorem opposite_sum (p : Affine E) : sum (opposite p) p = neutral E := by
  have hp := p.on_curve
  have hminus := one_sub_ne_zero (opposite p) p
  apply Affine.ext
  · simp only [sum, neutral, opposite]
    rw [div_eq_zero_iff]
    left
    ring
  · simp only [sum, neutral, opposite] at hminus ⊢
    rw [div_eq_one_iff_eq hminus]
    linear_combination hp

/-- The sum of three points, freed from nested fractions. -/
theorem sum_sum_x (p q r : Affine E) :
    let a := p.x * q.y + p.y * q.x
    let b := p.y * q.y + p.x * q.x
    let s := 1 + E.d * p.x * q.x * p.y * q.y
    let t := 1 - E.d * p.x * q.x * p.y * q.y
    s * t + E.d * a * b * r.x * r.y ≠ 0 ∧
      (sum (sum p q) r).x = (a * t * r.y + b * s * r.x) / (s * t + E.d * a * b * r.x * r.y) := by
  intro a b s t
  have hs : s ≠ 0 := one_add_ne_zero p q
  have ht : t ≠ 0 := one_sub_ne_zero p q
  have hden := denominator_div (d := E.d) (a := a) (b := b) (x := r.x) (y := r.y) hs ht
  have hne : 1 + E.d * (a / s) * r.x * (b / t) * r.y ≠ 0 := one_add_ne_zero (sum p q) r
  rw [hden] at hne
  constructor
  · exact (div_ne_zero_iff.1 hne).1
  · change (a / s * r.y + b / t * r.x) / (1 + E.d * (a / s) * r.x * (b / t) * r.y) = _
    rw [hden, numerator_div hs ht, div_div_div_cancel_right₀ (mul_ne_zero hs ht)]

/-- The other coordinate, freed in the same way. -/
theorem sum_sum_y (p q r : Affine E) :
    let a := p.x * q.y + p.y * q.x
    let b := p.y * q.y + p.x * q.x
    let s := 1 + E.d * p.x * q.x * p.y * q.y
    let t := 1 - E.d * p.x * q.x * p.y * q.y
    s * t - E.d * a * b * r.x * r.y ≠ 0 ∧
      (sum (sum p q) r).y = (b * s * r.y + a * t * r.x) / (s * t - E.d * a * b * r.x * r.y) := by
  intro a b s t
  have hs : s ≠ 0 := one_add_ne_zero p q
  have ht : t ≠ 0 := one_sub_ne_zero p q
  have hden : 1 - E.d * (a / s) * r.x * (b / t) * r.y
      = (s * t - E.d * a * b * r.x * r.y) / (s * t) := by field_simp
  have hnum : b / t * r.y + a / s * r.x = (b * s * r.y + a * t * r.x) / (s * t) := by field_simp
  have hne : 1 - E.d * (a / s) * r.x * (b / t) * r.y ≠ 0 := one_sub_ne_zero (sum p q) r
  rw [hden] at hne
  constructor
  · exact (div_ne_zero_iff.1 hne).1
  · change (b / t * r.y + a / s * r.x) / (1 - E.d * (a / s) * r.x * (b / t) * r.y) = _
    rw [hden, hnum, div_div_div_cancel_right₀ (mul_ne_zero hs ht)]

/-- **Associativity.** -/
theorem sum_assoc (p q r : Affine E) : sum (sum p q) r = sum p (sum q r) := by
  have hp := p.on_curve
  have hq := q.on_curve
  have hr := r.on_curve
  rw [sum_comm p (sum q r)]
  -- Without fractions, both coordinates are identities modulo the three curve equations.
  apply Affine.ext
  · obtain ⟨hleft, hx⟩ := sum_sum_x p q r
    obtain ⟨hright, hx'⟩ := sum_sum_x q r p
    rw [hx, hx', div_eq_div_iff hleft hright]
    clear hx hx' hleft hright
    grind
  · obtain ⟨hleft, hy⟩ := sum_sum_y p q r
    obtain ⟨hright, hy'⟩ := sum_sum_y q r p
    rw [hy, hy', div_eq_div_iff hleft hright]
    clear hy hy' hleft hright
    grind

instance : Add (Affine E) := ⟨sum⟩

instance : Zero (Affine E) := ⟨neutral E⟩

instance : Neg (Affine E) := ⟨opposite⟩

instance : AddCommGroup (Affine E) where
  add_assoc := sum_assoc
  zero_add := neutral_sum
  add_zero p := (sum_comm p (neutral E)).trans (neutral_sum p)
  neg_add_cancel := opposite_sum
  add_comm := sum_comm
  nsmul := nsmulRec
  zsmul := zsmulRec

@[simp] theorem x_zero : (0 : Affine E).x = 0 := rfl

@[simp] theorem y_zero : (0 : Affine E).y = 1 := rfl

@[simp] theorem x_neg (p : Affine E) : (-p).x = -p.x := rfl

@[simp] theorem y_neg (p : Affine E) : (-p).y = p.y := rfl

/-- The x coordinate of a sum. -/
theorem x_add (p q : Affine E) :
    (p + q).x = (p.x * q.y + p.y * q.x) / (1 + E.d * p.x * q.x * p.y * q.y) := rfl

/-- The y coordinate of a sum. -/
theorem y_add (p q : Affine E) :
    (p + q).y = (p.y * q.y + p.x * q.x) / (1 - E.d * p.x * q.x * p.y * q.y) := rfl

end Affine

end KeyExchange.Edwards
