import Mathlib.Data.List.Prime
import Mathlib.NumberTheory.LucasPrimality
import Mathlib.Tactic.NormNum.Prime
import KeyExchange.Curve.Edwards

/-!
# The two primes of the curve

The field has a prime number of elements and the generator a prime order.
Both numbers have over 250 bits, so they are shown prime by Lucas's test: the
powers of some number modulo `p` run through `p - 1` values exactly when `p` is
prime, and the primes below `p - 1` that have to be known are smaller.

* `power_eq`: powers modulo a number, by squaring;
* `prime_of_witness`: Lucas's test as a computation;
* `prime_prime`, `order_prime`: the number of elements and the order.
-/

namespace KeyExchange.CurveField

/-- `a` to the power `e` modulo `m`, for an exponent of at most `bits` bits. -/
def power (m : Nat) : (bits a e : Nat) → Nat
  | 0, _, _ => 1 % m
  | bits + 1, a, e =>
      let rest := power m bits (a * a % m) (e / 2)
      if e % 2 = 1 then a * rest % m else rest

/-- Squaring computes powers. -/
theorem power_eq (m : Nat) {bits e : Nat} (a : Nat) (he : e < 2 ^ bits) :
    power m bits a e = a ^ e % m := by
  induction bits generalizing a e with
  | zero =>
      have hzero : e = 0 := by simpa using he
      rw [hzero, power, pow_zero]
  | succ bits ih =>
      have hhalf : e / 2 < 2 ^ bits := by
        rw [pow_succ] at he
        omega
      have hsquare : (a * a % m) ^ (e / 2) % m = a ^ (2 * (e / 2)) % m := by
        rw [← Nat.pow_mod, pow_mul, pow_two]
      have hsplit := Nat.div_add_mod e 2
      rw [power, ih (a * a % m) hhalf, hsquare]
      by_cases hodd : e % 2 = 1
      · rw [if_pos hodd, Nat.mul_mod_mod, ← pow_succ']
        congr 2
        omega
      · rw [if_neg hodd]
        congr 2
        omega

/-- The number before `p` is the product of `factors`, and the powers of `a` modulo
`p` come back to one there and not at the places that Lucas's test looks at. -/
def witnesses (p a : Nat) (factors : List Nat) : Bool :=
  1 < p && p < 2 ^ 256 && factors.prod == p - 1 && power p 256 a (p - 1) == 1
    && factors.all fun q => power p 256 a ((p - 1) / q) != 1

/-- **Lucas's test.**  A number with a witness is prime, when the factors of the
number before it are.  Small and large factors are listed apart, since they are
known to be prime in different ways. -/
theorem prime_of_witness {p : Nat} (a : Nat) (small large : List Nat)
    (hsmall : ∀ q ∈ small, q.Prime) (hlarge : ∀ q ∈ large, q.Prime)
    (hwitness : witnesses p a (small ++ large) = true) : p.Prime := by
  simp only [witnesses, Bool.and_eq_true, decide_eq_true_iff, beq_iff_eq,
    List.all_eq_true] at hwitness
  obtain ⟨⟨⟨⟨hone, hbound⟩, hproduct⟩, hlast⟩, hbefore⟩ := hwitness
  have hpower (e : Nat) (he : e ≤ p - 1) :
      (a : ZMod p) ^ e = 1 ↔ power p 256 a e = 1 := by
    rw [power_eq p a (by omega), ← Nat.cast_pow, ← Nat.cast_one, ZMod.natCast_eq_natCast_iff',
      Nat.mod_eq_of_lt hone]
  have hprime : ∀ q ∈ small ++ large, q.Prime := by
    intro q hq
    rcases List.mem_append.1 hq with hq | hq
    · exact hsmall q hq
    · exact hlarge q hq
  refine lucas_primality p (a : ZMod p) ((hpower _ le_rfl).2 hlast) fun q hq hdvd => ?_
  rw [← hproduct] at hdvd
  obtain ⟨r, hr, hqr⟩ := (Prime.dvd_prod_iff hq.prime).1 hdvd
  have hsame : q = r := (Nat.prime_dvd_prime_iff_eq hq (hprime r hr)).1 hqr
  have hne := hbefore r hr
  rw [hsame, Ne, hpower _ (Nat.div_le_self _ _)]
  simpa using hne

/-- The field has a prime number of elements. -/
theorem prime_prime : Nat.Prime prime := by
  have hvalue : prime =
      57896044618658097711785492504343953926634992332820282019728792003956564819949 := by
    decide +kernel
  have h1 : Nat.Prime 1923133 :=
    prime_of_witness 2 [2, 2, 3, 43, 3727] []
      (by norm_num) (by simp) (by decide +kernel)
  have h2 : Nat.Prime 31757755568855353 :=
    prime_of_witness 10 [2, 2, 2, 3, 31, 107, 223, 4153, 430751] []
      (by norm_num) (by simp) (by decide +kernel)
  have h3 : Nat.Prime 2773320623 :=
    prime_of_witness 5 [2, 2437, 569003] []
      (by norm_num) (by simp) (by decide +kernel)
  have h4 : Nat.Prime 72106336199 :=
    prime_of_witness 7 [2, 13] [2773320623]
      (by norm_num) (by simp [h3]) (by decide +kernel)
  have h5 : Nat.Prime 8574133 :=
    prime_of_witness 2 [2, 2, 3, 7, 103, 991] []
      (by norm_num) (by simp) (by decide +kernel)
  have h6 : Nat.Prime 1919519569386763 :=
    prime_of_witness 2 [2, 3, 7, 19, 47, 47, 127] [8574133]
      (by norm_num) (by simp [h5]) (by decide +kernel)
  have h7 : Nat.Prime 75445702479781427272750846543864801 :=
    prime_of_witness 7 [2, 2, 2, 2, 2, 3, 3, 5, 5, 75707]
      [72106336199, 1919519569386763]
      (by norm_num) (by simp [h4, h6]) (by decide +kernel)
  have h8 : Nat.Prime 74058212732561358302231226437062788676166966415465897661863160754340907 :=
    prime_of_witness 2 [2, 3, 353, 57467, 132049]
      [1923133, 31757755568855353, 75445702479781427272750846543864801]
      (by norm_num) (by simp [h1, h2, h7]) (by decide +kernel)
  rw [hvalue]
  exact prime_of_witness 2 [2, 2, 3, 65147]
    [74058212732561358302231226437062788676166966415465897661863160754340907]
    (by norm_num) (by simp [h8]) (by decide +kernel)

end KeyExchange.CurveField

namespace KeyExchange.Edwards

open CurveField

/-- The generator has a prime order. -/
theorem order_prime : Nat.Prime order := by
  have hvalue : order =
      7237005577332262213973186563042994240857116359379907606001950938285454250989 := by
    decide +kernel
  have h1 : Nat.Prime 14741173 :=
    prime_of_witness 2 [2, 2, 3, 3, 409477] []
      (by norm_num) (by simp) (by decide +kernel)
  have h2 : Nat.Prime 58964693 :=
    prime_of_witness 2 [2, 2] [14741173]
      (by norm_num) (by simp [h1]) (by decide +kernel)
  have h3 : Nat.Prime 3044861653679985063343 :=
    prime_of_witness 5 [2, 3, 11, 30703, 82163, 132667, 137849] []
      (by norm_num) (by simp) (by decide +kernel)
  have h4 : Nat.Prime 198211423230930754013084525763697 :=
    prime_of_witness 5 [2, 2, 2, 2, 3, 23]
      [58964693, 3044861653679985063343]
      (by norm_num) (by simp [h2, h3]) (by decide +kernel)
  have h5 : Nat.Prime 292386187 :=
    prime_of_witness 2 [2, 3, 3, 3, 3, 307, 5879] []
      (by norm_num) (by simp) (by decide +kernel)
  have h6 : Nat.Prime 213441916511 :=
    prime_of_witness 13 [2, 5, 73] [292386187]
      (by norm_num) (by simp [h5]) (by decide +kernel)
  have h7 : Nat.Prime 1224481 :=
    prime_of_witness 13 [2, 2, 2, 2, 2, 3, 5, 2551] []
      (by norm_num) (by simp) (by decide +kernel)
  have h8 : Nat.Prime 1257559732178653 :=
    prime_of_witness 2 [2, 2, 3, 7, 23, 531581] [1224481]
      (by norm_num) (by simp [h7]) (by decide +kernel)
  have h9 : Nat.Prime 4434155615661930479 :=
    prime_of_witness 17 [2, 41, 43] [1257559732178653]
      (by norm_num) (by simp [h8]) (by decide +kernel)
  have h10 : Nat.Prime 172054593956031949258510691 :=
    prime_of_witness 2 [2, 5, 1361, 2851] [4434155615661930479]
      (by norm_num) (by simp [h9]) (by decide +kernel)
  have h11 : Nat.Prime 19757330305831588566944191468367130476339 :=
    prime_of_witness 2 [2, 269]
      [213441916511, 172054593956031949258510691]
      (by norm_num) (by simp [h6, h10]) (by decide +kernel)
  have h12 : Nat.Prime 276602624281642239937218680557139826668747 :=
    prime_of_witness 2 [2, 7] [19757330305831588566944191468367130476339]
      (by norm_num) (by simp [h11]) (by decide +kernel)
  rw [hvalue]
  exact prime_of_witness 2 [2, 2, 3, 11]
    [198211423230930754013084525763697, 276602624281642239937218680557139826668747]
    (by norm_num) (by simp [h4, h12]) (by decide +kernel)

end KeyExchange.Edwards
