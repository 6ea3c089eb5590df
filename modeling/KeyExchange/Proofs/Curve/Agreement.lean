import KeyExchange.Curve.Agreement
import KeyExchange.Proofs.Curve.Edwards

/-!
# Both parties agree

The ladder knows a point of the group only by its u coordinate, which is
(1 + y) / (1 - y); a projective pair (x : z) for it says that the difference
of the two is y times their sum.  One step doubles a point and adds two points
whose difference is known, and this never meets an exception as long as that
difference is not among the two points with y = 1 or y = -1.  No public key
is: the order of the subgroup divides neither a secret scalar nor its double.

* `Rung.Holds.step`: what one step preserves;
* `ladder_holds`: what the whole ladder computes;
* `multiply_eq`: so a multiple of a point has the right coordinate;
* `shared_comm`: the two parties reach one secret;
* `isContributory_shared`: which is not one that a key forces.
-/

namespace KeyExchange.Agreement

open CurveField Edwards

/-! ## Coordinates -/

/-- The u coordinate of a point, zero for the neutral one. -/
def coordinate (a : Affine curve) : Element := (1 + a.y) / (1 - a.y)

/-- A projective pair for the u coordinate of a point. -/
structure Marks (x z : Nat) (a : Affine curve) : Prop where
  sum_ne_zero : (x : Element) + z ≠ 0
  difference_eq : (x : Element) - z = a.y * (x + z)

/-- A rung whose two points are known. -/
structure Rung.Holds (r : Rung) (p q : Affine curve) : Prop where
  first : Marks r.x2 r.z2 p
  second : Marks r.x3 r.z3 q

/-- Exchanging the two halves of a rung exchanges the points they stand for. -/
theorem Rung.Holds.swap {r : Rung} {p q : Affine curve} (h : r.Holds p q) : r.swap.Holds q p :=
  ⟨h.second, h.first⟩

/-- The pair of a point leads to its coordinate. -/
theorem Marks.ratio {x z : Nat} {a : Affine curve} (h : Marks x z a) :
    (x : Element) * (z : Element)⁻¹ = coordinate a := by
  obtain ⟨hsum, hdifference⟩ := h
  have hx : (2 : Element) * x = (x + z) * (1 + a.y) := by linear_combination hdifference
  have hz : (2 : Element) * z = (x + z) * (1 - a.y) := by linear_combination -hdifference
  rw [coordinate, ← div_eq_mul_inv, ← mul_div_mul_left _ _ two_ne_zero, hx, hz,
    mul_div_mul_left _ _ hsum]

/-! ## One step -/

/-- The coefficient of the Montgomery form. -/
theorem coefficient_eq : (121666 : Element) * coefficient = -121665 := by
  have hnat : mul 121666 coefficient = neg 121665 := by decide
  have hcast := congrArg (Nat.cast : Nat → Element) hnat
  rw [cast_mul, cast_neg] at hcast
  exact_mod_cast hcast

/-- The denominator of the curve's coefficient is not zero in the field. -/
theorem scale_ne_zero : (121666 : Element) ≠ 0 := by
  intro hzero
  have hnat : (121666 : Nat) = 0 := by
    apply cast_inj (by decide) (by decide)
    exact_mod_cast hzero
  omega

/-- The y coordinate of a double depends on the y coordinate only. -/
theorem y_double (a : Affine curve) :
    1 + 2 * coefficient * a.y ^ 2 - coefficient * a.y ^ 4 ≠ 0 ∧
      (a + a).y * (1 + 2 * coefficient * a.y ^ 2 - coefficient * a.y ^ 4)
        = coefficient * a.y ^ 4 + 2 * a.y ^ 2 - 1 := by
  have hcurve := a.on_curve
  have hminus := Affine.one_sub_ne_zero a a
  have hratio := ratio_ne_zero a
  obtain ⟨-, hy⟩ := sum_coordinates a a
  rw [curve_d] at hcurve hminus
  have hfactor : (a.y * a.y * coefficient + 1) * (1 - coefficient * a.x * a.x * a.y * a.y)
      = 1 + 2 * coefficient * a.y ^ 2 - coefficient * a.y ^ 4 := by
    linear_combination coefficient * a.y ^ 2 * hcurve
  constructor
  · rw [← hfactor]
    exact mul_ne_zero hratio hminus
  · rw [← hfactor]
    linear_combination (a.y * a.y * coefficient + 1) * hy - hcurve

/-- The doubled point of a step. -/
theorem Marks.double {x z : Nat} {a : Affine curve} (h : Marks x z a) :
    let aa := mul (add x z) (add x z)
    let bb := mul (sub x z) (sub x z)
    let e := sub aa bb
    Marks (mul aa bb) (mul e (add aa (mul 121665 e))) (a + a) := by
  intro aa bb e
  obtain ⟨hsum, hdifference⟩ := h
  obtain ⟨hden, hy⟩ := y_double a
  have hd := coefficient_eq
  have haa : (aa : Element) = (x + z) ^ 2 := by
    simp only [aa, cast_mul, cast_add]
    ring
  have hbb : (bb : Element) = a.y ^ 2 * (x + z) ^ 2 := by
    simp only [bb, cast_mul, cast_sub, hdifference]
    ring
  have he : (e : Element) = (1 - a.y ^ 2) * (x + z) ^ 2 := by
    simp only [e, cast_sub, haa, hbb]
    ring
  have hx : ((mul aa bb : Nat) : Element) = a.y ^ 2 * (x + z) ^ 4 := by
    rw [cast_mul, haa, hbb]
    ring
  have hz : ((mul e (add aa (mul 121665 e)) : Nat) : Element)
      = (1 - a.y ^ 2) * (1 + 121665 * (1 - a.y ^ 2)) * (x + z) ^ 4 := by
    rw [cast_mul e, cast_add, cast_mul 121665, haa, he, Nat.cast_ofNat]
    ring
  have htotal : ((mul aa bb : Nat) : Element) + (mul e (add aa (mul 121665 e)) : Nat)
      = 121666 * (x + z) ^ 4 * (1 + 2 * coefficient * a.y ^ 2 - coefficient * a.y ^ 4) := by
    rw [hx, hz]
    linear_combination (x + z : Element) ^ 4 * (a.y ^ 4 - 2 * a.y ^ 2) * hd
  constructor
  · rw [htotal]
    exact mul_ne_zero (mul_ne_zero scale_ne_zero (pow_ne_zero 4 hsum)) hden
  · rw [htotal, hx, hz]
    linear_combination (x + z : Element) ^ 4 * (-121666 * hy - a.y ^ 4 * hd)

/-- The y coordinates of a sum and of the difference, with those of the two
points: what adding in u coordinates rests on. -/
theorem y_sum (p q : Affine curve) :
    2 * (p.y * q.y) * (1 + (p + q).y * (q - p).y)
      = ((p + q).y + (q - p).y) * (p.y ^ 2 + q.y ^ 2) := by
  have hp := p.on_curve
  have hq := q.on_curve
  have hplus := Affine.one_add_ne_zero p q
  have hminus := Affine.one_sub_ne_zero p q
  obtain ⟨-, hsum⟩ := sum_coordinates p q
  obtain ⟨-, hdifference⟩ := sum_coordinates q (-p)
  rw [curve_d] at hp hq hplus hminus
  rw [← sub_eq_add_neg, Affine.x_neg, Affine.y_neg] at hdifference
  apply mul_left_cancel₀ (mul_ne_zero hplus hminus)
  generalize (p + q).y = s at hsum ⊢
  generalize (q - p).y = d at hdifference ⊢
  have hidentity : 1 - (coefficient * p.x * q.x * p.y * q.y) ^ 2
        + (p.y * q.y) ^ 2 - (p.x * q.x) ^ 2
      = (1 + coefficient * (p.x * q.x) ^ 2) * (p.y ^ 2 + q.y ^ 2) := by
    linear_combination (q.y ^ 2 - 1) * hp
      + (p.x ^ 2 + coefficient * p.x ^ 2 * p.y ^ 2) * hq
  linear_combination 2 * (p.y * q.y) * hidentity
    + (2 * (p.y * q.y) * d - (p.y ^ 2 + q.y ^ 2))
      * (1 + coefficient * p.x * q.x * p.y * q.y) * hsum
    + (2 * (p.y * q.y) * (p.y * q.y + p.x * q.x)
      - (p.y ^ 2 + q.y ^ 2) * (1 - coefficient * p.x * q.x * p.y * q.y)) * hdifference

/-- The difference of two points shows in the y coordinates of the points. -/
theorem y_difference_ne_zero {p q : Affine curve} (hd : (q - p).y ^ 2 ≠ 1) :
    p.y ^ 2 + q.y ^ 2 - 2 * (q - p).y * (p.y * q.y) ≠ 0 := by
  intro hzero
  have hsum := y_sum p q
  have hproduct : p.y * q.y = 0 := by
    have hfactor : 2 * (p.y * q.y) * (1 - (q - p).y ^ 2) = 0 := by
      linear_combination hsum + ((p + q).y + (q - p).y) * hzero
    have hone : 1 - (q - p).y ^ 2 ≠ 0 := sub_ne_zero.2 (Ne.symm hd)
    have hdouble := (mul_eq_zero.1 hfactor).resolve_right hone
    exact (mul_eq_zero.1 hdouble).resolve_left two_ne_zero
  have hsquares : p.y ^ 2 + q.y ^ 2 = 0 := by
    linear_combination hzero + 2 * (q - p).y * hproduct
  have hpy : p.y = 0 := by
    have hpower : p.y ^ 4 = 0 := by
      linear_combination p.y ^ 2 * hsquares - p.y * q.y * hproduct
    exact pow_eq_zero_iff (by decide) |>.1 hpower
  have hqy : q.y = 0 := by
    have hpower : q.y ^ 2 = 0 := by linear_combination hsquares - p.y * hpy
    exact pow_eq_zero_iff (by decide) |>.1 hpower
  have hp := p.on_curve
  have hq := q.on_curve
  obtain ⟨-, hdifference⟩ := sum_coordinates q (-p)
  rw [← sub_eq_add_neg, Affine.x_neg, Affine.y_neg, hpy, hqy] at hdifference
  rw [hpy] at hp
  rw [hqy] at hq
  have hvalue : (q - p).y = -(p.x * q.x) := by linear_combination hdifference
  apply hd
  rw [hvalue]
  linear_combination -(q.x ^ 2) * hp + hq

/-- The added points of a step, whose difference has the coordinate `u`. -/
theorem Marks.sum {x2 z2 x3 z3 u : Nat} {p q : Affine curve} (hp : Marks x2 z2 p)
    (hq : Marks x3 z3 q) (hu : (u : Element) * (1 - (q - p).y) = 1 + (q - p).y)
    (hd : (q - p).y ^ 2 ≠ 1) :
    let da := mul (sub x3 z3) (add x2 z2)
    let cb := mul (add x3 z3) (sub x2 z2)
    let s := add da cb
    let d := sub da cb
    Marks (mul s s) (mul u (mul d d)) (p + q) := by
  intro da cb s d
  obtain ⟨hsum2, hdifference2⟩ := hp
  obtain ⟨hsum3, hdifference3⟩ := hq
  have hy := y_sum p q
  have hne := y_difference_ne_zero hd
  have hscale : ((x2 + z2) * (x3 + z3) : Element) ≠ 0 := mul_ne_zero hsum2 hsum3
  have hone : 1 - (q - p).y ≠ 0 := by
    intro hzero
    apply hd
    linear_combination -(1 + (q - p).y) * hzero
  generalize (q - p).y = yd at hu hy hne hone
  have hs : (s : Element) = (x2 + z2) * (x3 + z3) * (q.y + p.y) := by
    simp only [s, da, cb, cast_add, cast_mul, cast_sub, hdifference2, hdifference3]
    ring
  have hdd : (d : Element) = (x2 + z2) * (x3 + z3) * (q.y - p.y) := by
    simp only [d, da, cb, cast_add, cast_mul, cast_sub, hdifference2, hdifference3]
    ring
  -- Scaled by `1 - yd`, the coordinates no longer mention `u`.
  have htotal : (1 - yd) * (((mul s s : Nat) : Element) + (mul u (mul d d) : Nat))
      = 2 * ((x2 + z2) * (x3 + z3)) ^ 2
        * (p.y ^ 2 + q.y ^ 2 - 2 * yd * (p.y * q.y)) := by
    rw [cast_mul, cast_mul, cast_mul, hs, hdd]
    linear_combination ((x2 + z2) * (x3 + z3) * (q.y - p.y)) ^ 2 * hu
  have hspread : (1 - yd) * (((mul s s : Nat) : Element) - (mul u (mul d d) : Nat))
      = 2 * ((x2 + z2) * (x3 + z3)) ^ 2
        * (2 * (p.y * q.y) - yd * (p.y ^ 2 + q.y ^ 2)) := by
    rw [cast_mul, cast_mul, cast_mul, hs, hdd]
    linear_combination -((x2 + z2) * (x3 + z3) * (q.y - p.y)) ^ 2 * hu
  constructor
  · intro hzero
    rw [hzero, mul_zero] at htotal
    exact mul_ne_zero (mul_ne_zero CurveField.two_ne_zero (pow_ne_zero 2 hscale)) hne htotal.symm
  · apply mul_left_cancel₀ hone
    linear_combination hspread - (p + q).y * htotal
      + 2 * ((x2 + z2) * (x3 + z3) : Element) ^ 2 * hy

/-- **One step** doubles the first point and adds the second to it. -/
theorem Rung.Holds.step {r : Rung} {u : Nat} {p q : Affine curve} (h : r.Holds p q)
    (hu : (u : Element) * (1 - (q - p).y) = 1 + (q - p).y) (hd : (q - p).y ^ 2 ≠ 1) :
    (r.step u).Holds (p + p) (p + q) :=
  ⟨h.first.double, h.first.sum h.second hu hd⟩

/-! ## The ladder -/

/-- A point with a u coordinate `u` that the ladder can start from. -/
structure Starts (u : Nat) (a : Affine curve) : Prop where
  coordinate_eq : (u : Element) * (1 - a.y) = 1 + a.y
  square_ne_one : a.y ^ 2 ≠ 1

/-- Multiples add up. -/
theorem smul_add_smul {m n k : Nat} (h : m + n = k) (a : Affine curve) :
    m • a + n • a = k • a := by
  rw [← add_nsmul, h]

/-- One bit of the scalar.  Neighbouring multiples of the start differ by the start, up
to sign, whichever of them is doubled. -/
theorem Starts.step {r : Rung} {u j : Nat} {a : Affine curve} (ha : Starts u a)
    (h : r.Holds (j • a) ((j + 1) • a)) (bit : Nat) (hbit : bit < 2) :
    let next := if bit = 1 then (r.swap.step u).swap else r.step u
    next.Holds ((2 * j + bit) • a) ((2 * j + bit + 1) • a) := by
  intro next
  obtain ⟨hu, hd⟩ := ha
  have hsucc : (j + 1) • a = j • a + a := succ_nsmul a j
  by_cases hone : bit = 1
  · have hdifference : (j • a - (j + 1) • a).y = a.y := by
      rw [hsucc, sub_add_cancel_left, Affine.y_neg]
    have hsum := smul_add_smul (show j + 1 + j = 2 * j + bit by omega) a
    have hdouble := smul_add_smul (show j + 1 + (j + 1) = 2 * j + bit + 1 by omega) a
    have hstep := (h.swap.step (hdifference.symm ▸ hu) (hdifference.symm ▸ hd)).swap
    rw [hsum, hdouble] at hstep
    simp only [next, if_pos hone]
    exact hstep
  · have hdifference : ((j + 1) • a - j • a).y = a.y := by
      rw [hsucc, add_sub_cancel_left]
    have hdouble := smul_add_smul (show j + j = 2 * j + bit by omega) a
    have hsum := smul_add_smul (show j + (j + 1) = 2 * j + bit + 1 by omega) a
    have hstep := h.step (hdifference.symm ▸ hu) (hdifference.symm ▸ hd)
    rw [hdouble, hsum] at hstep
    simp only [next, if_neg hone]
    exact hstep

/-- **The ladder.**  After the bits of `k` the rung holds that multiple of the
start and the next one. -/
theorem ladder_holds {u j : Nat} {r : Rung} {a : Affine curve} (bits k : Nat) (ha : Starts u a)
    (h : r.Holds (j • a) ((j + 1) • a)) :
    (ladder u bits k r).Holds ((j * 2 ^ bits + k % 2 ^ bits) • a)
      ((j * 2 ^ bits + k % 2 ^ bits + 1) • a) := by
  induction bits generalizing j r with
  | zero => simpa [ladder, Nat.mod_one] using h
  | succ bits ih =>
      have hstep := ha.step h (k / 2 ^ bits % 2) (Nat.mod_lt _ (by decide))
      have hmod : k % 2 ^ (bits + 1) = k % 2 ^ bits + 2 ^ bits * (k / 2 ^ bits % 2) :=
        Nat.mod_mul
      have hcount : (2 * j + k / 2 ^ bits % 2) * 2 ^ bits + k % 2 ^ bits
          = j * 2 ^ (bits + 1) + k % 2 ^ (bits + 1) := by
        rw [hmod, pow_succ]
        ring
      rw [← hcount, ladder, Nat.one_shiftLeft]
      exact ih hstep

/-- The neutral point and the start. -/
theorem Starts.bottom {u : Nat} {a : Affine curve} (ha : Starts u a) :
    Rung.Holds ⟨1, 0, u, 1⟩ (0 • a) ((0 + 1) • a) := by
  obtain ⟨hu, hd⟩ := ha
  rw [zero_smul, zero_add, one_smul]
  constructor
  · constructor
    · simp
    · simp
  · constructor
    · intro hzero
      rw [Nat.cast_one] at hzero
      have htwo : (2 : Element) = 0 := by linear_combination (1 - a.y) * hzero - hu
      exact two_ne_zero htwo
    · rw [Nat.cast_one]
      linear_combination hu

/-- **Multiples.**  The octets are those of the coordinate of the multiple. -/
theorem multiply_eq {u k : Nat} {a : Affine curve} (ha : Starts u a) (hk : k < 2 ^ 255) :
    multiply k u = Octets.ofNatLE 32 (coordinate (k • a)).val := by
  have hladder := ladder_holds 255 k ha ha.bottom
  rw [zero_mul, zero_add, Nat.mod_eq_of_lt hk] at hladder
  have hratio := hladder.first.ratio
  unfold multiply
  generalize ladder u 255 k ⟨1, 0, u, 1⟩ = r at hratio ⊢
  have hvalue : mul r.x2 (inv r.z2) = (coordinate (k • a)).val := by
    apply eq_val (mul_lt _ _)
    rw [cast_mul, cast_inv, hratio]
  exact congrArg (Octets.ofNatLE 32) hvalue

/-! ## Secret scalars -/

/-- The bits of a secret scalar are within its width. -/
theorem scalarOf_lt (secret : Octets 32) : scalarOf secret < 2 ^ 255 := by
  unfold scalarOf
  rw [Nat.one_shiftLeft]
  omega

/-- The order of the subgroup does not divide the double of a secret scalar,
which is sixteen times a smaller number. -/
theorem order_not_dvd (secret : Octets 32) : ¬ order ∣ 2 * scalarOf secret := by
  let m := littleEndian secret.toList % (1 <<< 254) / 8 + 1 <<< 251
  have hscalar : 2 * scalarOf secret = 16 * m := by
    simp only [m, scalarOf, Nat.one_shiftLeft]
    omega
  have hpos : 0 < m := by
    simp only [m, Nat.one_shiftLeft]
    omega
  have hlt : m < order := by
    have horder : 2 ^ 252 < order := by decide
    simp only [m, Nat.one_shiftLeft]
    omega
  intro hdvd
  rw [hscalar] at hdvd
  rcases order_prime.dvd_mul.1 hdvd with hsmall | hm
  · have hle := Nat.le_of_dvd (by decide) hsmall
    have horder : 16 < order := by decide
    omega
  · have hle := Nat.le_of_dvd hpos hm
    omega

/-- A point with y = 1 or y = -1 is its own opposite. -/
theorem two_smul_of_square {a : Affine curve} (h : a.y ^ 2 = 1) : 2 • a = 0 := by
  have hcurve := a.on_curve
  have hi := root_mul_root
  rw [curve_d, h] at hcurve
  have hcoefficient : (coefficient : Element) + 1 ≠ 0 := by
    intro hzero
    apply coefficient_nonsquare rootOfMinusOne
    linear_combination hi - hzero
  have hx : a.x = 0 := by
    have hproduct : a.x ^ 2 * ((coefficient : Element) + 1) = 0 := by
      linear_combination -hcurve
    exact pow_eq_zero_iff (by decide) |>.1 ((mul_eq_zero.1 hproduct).resolve_right hcoefficient)
  obtain ⟨hsumx, hsumy⟩ := sum_coordinates a a
  rw [hx] at hsumx hsumy
  rw [two_nsmul]
  apply Affine.ext
  · rw [Affine.x_zero]
    linear_combination hsumx
  · rw [Affine.y_zero]
    linear_combination hsumy + h

/-- A point whose y coordinate is neither 1 nor -1 has a u coordinate. -/
theorem starts_of_square {a : Affine curve} (h : a.y ^ 2 ≠ 1) :
    Starts (coordinate a).val a where
  coordinate_eq := by
    have hone : 1 - a.y ≠ 0 := by
      intro hzero
      apply h
      linear_combination -(1 + a.y) * hzero
    rw [ZMod.natCast_zmod_val, coordinate, div_mul_cancel₀ _ hone]
  square_ne_one := h

/-- The generator starts with the coordinate nine. -/
theorem starts_generator : Starts 9 generator where
  coordinate_eq := by
    have hnat : mul 9 (sub 1 base.y) = add 1 base.y := by decide
    have hcast := congrArg (Nat.cast : Nat → Element) hnat
    rw [cast_mul, cast_sub, cast_add, Nat.cast_one] at hcast
    exact hcast
  square_ne_one := by
    intro hone
    have hdvd := order_dvd_of_smul (two_smul_of_square hone)
    have hle := Nat.le_of_dvd (by decide) hdvd
    have horder : 2 < order := by decide
    omega

/-! ## Agreement -/

/-- The public key of a secret. -/
theorem publicKey_eq (secret : Octets 32) :
    publicKey secret
      = Octets.ofNatLE 32 (coordinate (scalarOf secret • generator)).val :=
  multiply_eq starts_generator (scalarOf_lt secret)

/-- Coordinates fit the octets of a key. -/
theorem val_lt_octets (x : Element) : x.val < 256 ^ 32 :=
  (ZMod.val_lt x).trans (prime_lt.trans (by decide))

/-- What a party reaches with the public key of another. -/
theorem shared_publicKey (secret other : Octets 32) :
    shared secret (publicKey other)
      = Octets.ofNatLE 32
          (coordinate (scalarOf secret • scalarOf other • generator)).val := by
  have hsquare : (scalarOf other • generator).y ^ 2 ≠ 1 := by
    intro hone
    have hdouble := two_smul_of_square hone
    rw [← mul_smul] at hdouble
    exact order_not_dvd other (order_dvd_of_smul hdouble)
  have hval := ZMod.val_lt (coordinate (scalarOf other • generator))
  have htop : (coordinate (scalarOf other • generator)).val < 1 <<< 255 := by
    rw [Nat.one_shiftLeft]
    exact hval.trans prime_lt
  unfold shared
  rw [publicKey_eq, littleEndian_octets (val_lt_octets _), Nat.mod_eq_of_lt htop,
    Nat.mod_eq_of_lt hval]
  exact multiply_eq (starts_of_square hsquare) (scalarOf_lt secret)

/-- **Agreement.**  Two parties with each other's public keys reach one secret. -/
theorem shared_comm (a b : Octets 32) : shared a (publicKey b) = shared b (publicKey a) := by
  rw [shared_publicKey, shared_publicKey, smul_comm]

/-- **No public key forces the secret.**  The point that the parties reach is one of the
subgroup and not the neutral one, so its coordinate is not zero. -/
theorem isContributory_shared (a b : Octets 32) :
    isContributory (shared a (publicKey b)) = true := by
  let p := scalarOf a • scalarOf b • generator
  have hsquare : p.y ^ 2 ≠ 1 := by
    intro hone
    have hdouble := two_smul_of_square hone
    rw [← mul_smul, ← mul_smul] at hdouble
    rcases order_prime.dvd_mul.1 (order_dvd_of_smul hdouble) with ha | hb
    · exact order_not_dvd a ha
    · exact order_not_dvd b (hb.mul_left 2)
  have hcoordinate : coordinate p ≠ 0 := by
    refine div_ne_zero (fun hzero => hsquare ?_) (fun hzero => hsquare ?_)
    · linear_combination (p.y - 1) * hzero
    · linear_combination -(1 + p.y) * hzero
  rw [shared_publicKey, isContributory, List.any_eq_true]
  by_contra hnone
  have hzeros : ∀ b ∈ (Octets.ofNatLE 32 (coordinate p).val).toList, b = 0 :=
    fun b hb => by_contra fun hb' => hnone ⟨b, hb, bne_iff_ne.2 hb'⟩
  have hzero := (littleEndian_octets (val_lt_octets _)).symm.trans (littleEndian_of_zeros hzeros)
  exact hcoordinate ((ZMod.val_eq_zero _).1 hzero)

end KeyExchange.Agreement
