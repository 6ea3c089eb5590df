import Mathlib.SetTheory.Cardinal.Finite
import Mathlib.GroupTheory.OrderOfElement
import KeyExchange.Proofs.Curve.Spelling

/-!
# Points of small order

The generator has a prime number of multiples, and the curve has eight times as
many points: at most two for each y coordinate, which is less than sixteen times
that prime, and among them one of order eight.  So a point that some number
below the prime takes to the neutral element is taken there by eight.

* `Represents.unique`, `spelling_injective`: coordinates and spellings tell the
  point;
* `represents_of_decompress?`: whatever is read is a point of the curve;
* `card_points`: the number of points;
* `eight_smul_of_smul`: small multiples vanish for points of small order only.
-/

namespace KeyExchange.CurveField

/-- **What is found is a root.** -/
theorem square_of_ratioRoot? {u v e : Nat} (h : ratioRoot? u v = some e) :
    (v : Element) * (e : Element) ^ 2 = u := by
  have hsign (r : Nat) :
      ((if r % 2 = 1 then neg r else r : Nat) : Element) ^ 2 = (r : Element) ^ 2 := by
    by_cases hodd : r % 2 = 1
    · rw [if_pos hodd, cast_neg, neg_sq]
    · rw [if_neg hodd]
  let v3 := mul (mul v v) v
  let v7 := mul (mul v3 v3) v
  let r := mul (mul u v3) (pow (mul u v7) ((prime - 5) / 8))
  let check := mul v (mul r r)
  have hcheck : (check : Element) = v * (r : Element) ^ 2 := by
    simp only [check, cast_mul]
    ring
  have hfound : ratioRoot? u v
      = (if check = u % prime then some r
          else if check = neg u then some (mul r rootOfMinusOne) else none).map
        fun r => if r % 2 = 1 then neg r else r := rfl
  rw [hfound] at h
  obtain ⟨root, hroot, rfl⟩ := Option.map_eq_some_iff.1 h
  rw [hsign]
  by_cases hpositive : check = u % prime
  · rw [if_pos hpositive] at hroot
    rw [← Option.some.inj hroot, ← hcheck, hpositive, cast_mod]
  rw [if_neg hpositive] at hroot
  by_cases hnegative : check = neg u
  · rw [if_pos hnegative] at hroot
    have hi := root_mul_root
    have hminus : (v : Element) * (r : Element) ^ 2 = -u := by
      rw [← hcheck, hnegative, cast_neg]
    rw [← Option.some.inj hroot, cast_mul]
    linear_combination (v : Element) * (r : Element) ^ 2 * hi - hminus
  · rw [if_neg hnegative] at hroot
    cases hroot

end KeyExchange.CurveField

namespace KeyExchange.Edwards

open CurveField

variable {p : Point} {a b : Affine curve}

/-! ## Points and what stands for them -/

/-- Coordinates stand for one point. -/
theorem Represents.unique (ha : Represents p a) (hb : Represents p b) : a = b := by
  apply Affine.ext
  · exact mul_right_cancel₀ ha.z_ne_zero (ha.x_eq.symm.trans hb.x_eq)
  · exact mul_right_cancel₀ ha.z_ne_zero (ha.y_eq.symm.trans hb.y_eq)

/-- A point is told by its spelling. -/
theorem spelling_injective : Function.Injective spelling := by
  intro a b h
  obtain ⟨p, hp, ha⟩ := decompress?_spelling a
  obtain ⟨q, hq, hb⟩ := decompress?_spelling b
  rw [h, hq] at hp
  cases hp
  exact ha.unique hb

/-- Two coordinates are written alike exactly when they stand for one point. -/
theorem Represents.compress_eq_iff {q : Point} (ha : Represents p a) (hb : Represents q b) :
    p.compress = q.compress ↔ a = b := by
  rw [ha.compress_eq, hb.compress_eq]
  exact spelling_injective.eq_iff

/-- Coordinates that fulfil the equation of the curve stand for a point. -/
theorem exists_represents {x y : Nat}
    (h : (x : Element) ^ 2 * (y * y * coefficient + 1) = y * y - 1) :
    ∃ a, Represents ⟨x, y, 1, mul x y⟩ a := by
  have hcurve : -(x : Element) ^ 2 + (y : Element) ^ 2
      = 1 + curve.d * (x : Element) ^ 2 * (y : Element) ^ 2 := by
    rw [curve_d]
    linear_combination -h
  exact ⟨⟨x, y, hcurve⟩, by simp, by simp, by simp, by simp⟩

/-- **Whatever is read is a point of the curve.** -/
theorem represents_of_decompress? {s : Octets 32} (h : decompress? s = some p) :
    ∃ a, Represents p a := by
  unfold decompress? at h
  extract_lets n y yy u v at h
  obtain ⟨r, hr, rfl⟩ := Option.map_eq_some_iff.1 h
  have hroot := square_of_ratioRoot? hr
  extract_lets x
  have hx : (x : Element) ^ 2 = (r : Element) ^ 2 := by
    simp only [x]
    by_cases hodd : n / (1 <<< 255) % 2 = 1
    · rw [if_pos hodd, cast_neg, neg_sq]
    · rw [if_neg hodd]
  simp only [u, v, yy, cast_add, cast_sub, cast_mul, Nat.cast_one] at hroot
  exact exists_represents (by rw [hx, ← hroot, mul_comm])

/-! ## How many points there are -/

/-- The y coordinate of a point and the parity of its x coordinate. -/
def outline (a : Affine curve) : Element × Bool := (a.y, a.x.val % 2 == 1)

/-- A point is told by its y coordinate and the sign of its x coordinate. -/
theorem outline_injective : Function.Injective outline := by
  intro a b h
  obtain ⟨hy, hparity⟩ := Prod.mk.inj h
  have hx : a.x.val % 2 = b.x.val % 2 := by
    rw [Bool.eq_iff_iff, beq_iff_eq, beq_iff_eq] at hparity
    omega
  apply spelling_injective
  rw [spelling, spelling, hy, hx]

instance : Finite (Affine curve) := Finite.of_injective outline outline_injective

/-- There are at most two points for each y coordinate. -/
theorem card_points_le : Nat.card (Affine curve) ≤ 2 * prime := by
  have hcard : Nat.card (Element × Bool) = 2 * prime := by
    rw [Nat.card_prod, Nat.card_zmod, Nat.card_eq_fintype_card, Fintype.card_bool, Nat.mul_comm]
  rw [← hcard]
  exact Nat.card_le_card_of_injective outline outline_injective

/-- The coordinates of a point of order eight. -/
def eighthPoint : Point where
  x := 43496726750457979451437558183816721346016168361625936758514574428539776020131
  y := 2707385501144840649318225287225658788936804267575313519463743609750303402022
  z := 1
  t := mul 43496726750457979451437558183816721346016168361625936758514574428539776020131
    2707385501144840649318225287225658788936804267575313519463743609750303402022

/-- The curve has a point of order eight: its double twice is no neutral element,
and its double three times is. -/
theorem exists_order_eight : ∃ a : Affine curve, addOrderOf a = 8 := by
  have hnat : mul (mul eighthPoint.x eighthPoint.x)
      (add (mul (mul eighthPoint.y eighthPoint.y) coefficient) 1)
        = sub (mul eighthPoint.y eighthPoint.y) 1 := by decide
  have hcurve := congrArg (Nat.cast : Nat → Element) hnat
  simp only [cast_add, cast_sub, cast_mul, Nat.cast_one, ← pow_two (eighthPoint.x : Element)]
    at hcurve
  obtain ⟨a, ha⟩ : ∃ a, Represents eighthPoint a := exists_represents hcurve
  have hfour : eighthPoint.double.double.compress ≠ identity.compress := by decide +kernel
  have height : eighthPoint.double.double.double.compress = identity.compress := by decide +kernel
  have hdouble := ha.double.double
  refine ⟨a, addOrderOf_eq_prime_pow (p := 2) (n := 2) ?_ ?_⟩
  · intro hzero
    apply hfour
    rw [hdouble.compress_eq_iff represents_identity]
    rw [← hzero]
    abel
  · have hsum := (hdouble.double.compress_eq_iff represents_identity).1 height
    rw [← hsum]
    abel

/-- **The number of points.**  It is a multiple of both orders, and it is too small for
any multiple of their product but the product. -/
theorem card_points : Nat.card (Affine curve) = 8 * order := by
  have horder : order ∣ Nat.card (Affine curve) := by
    have hprime : Fact (Nat.Prime order) := ⟨order_prime⟩
    rw [← addOrderOf_eq_prime order_smul generator_ne_zero]
    exact addOrderOf_dvd_natCard generator
  have height : 8 ∣ Nat.card (Affine curve) := by
    obtain ⟨a, ha⟩ := exists_order_eight
    rw [← ha]
    exact addOrderOf_dvd_natCard a
  have hcoprime : Nat.Coprime 8 order := by decide
  obtain ⟨m, hm⟩ := hcoprime.mul_dvd_of_dvd_of_dvd height horder
  have hpos : 0 < Nat.card (Affine curve) := Nat.card_pos
  have hle := card_points_le
  have hsmall : 2 * prime < 8 * order * 2 := by decide
  have hone : m = 1 := by
    have hlt : 8 * order * m < 8 * order * 2 := by omega
    have hm2 := Nat.lt_of_mul_lt_mul_left hlt
    have hm0 : m ≠ 0 := by
      intro hzero
      rw [hm, hzero, Nat.mul_zero] at hpos
      exact absurd hpos (Nat.lt_irrefl 0)
    omega
  rw [hm, hone, Nat.mul_one]

/-! ## Small order -/

/-- **Small multiples.**  When a number below the prime order takes a point to the
neutral element, eight does. -/
theorem eight_smul_of_smul {n : Nat} (hpos : 0 < n) (hlt : n < order) (h : n • a = 0) :
    8 • a = 0 := by
  have hdvd : addOrderOf a ∣ n := addOrderOf_dvd_iff_nsmul_eq_zero.2 h
  have hnot : ¬ order ∣ addOrderOf a := fun horder =>
    absurd (Nat.le_of_dvd hpos (horder.trans hdvd)) (Nat.not_le.2 hlt)
  have hcoprime : Nat.Coprime (addOrderOf a) order :=
    ((Nat.Prime.coprime_iff_not_dvd order_prime).2 hnot).symm
  have hcard : addOrderOf a ∣ 8 * order := card_points ▸ addOrderOf_dvd_natCard a
  exact addOrderOf_dvd_iff_nsmul_eq_zero.1 (hcoprime.dvd_of_dvd_mul_right hcard)

end KeyExchange.Edwards
