import Mathlib.Algebra.Group.Nat.Defs
import KeyExchange.Octets

/-!
# Numbers and their octets

A number that fits some octets comes back from them, whichever octet comes
first.

* `littleEndian_ofNatLE`: reading what was written gives the number back,
  reduced to the width it was written in;
* `littleEndian_octets`: a number that fits comes back unchanged;
* `ofNatBE_inj`: so different numbers have different octets;
* `ofNatBE_lt`: with the most significant octet first they are ordered like the numbers.
-/

namespace KeyExchange

/-- A string is not taken as `n` octets exactly when it has another number of them. -/
theorem Octets.ofList?_eq_none_iff {n : Nat} {s : Bytes} : ofList? n s = none ↔ s.length ≠ n := by
  unfold ofList?
  by_cases hlength : s.length = n
  · simp [hlength]
  · simp [hlength]

/-- **Reading back.**  A number written in `count` octets reads back as
itself modulo `256 ^ count`. -/
theorem littleEndian_ofNatLE (count value : Nat) :
    littleEndian (ofNatLE count value) = value % 256 ^ count := by
  induction count generalizing value with
  | zero => simp [ofNatLE, littleEndian, Nat.mod_one]
  | succ count ih =>
      rw [ofNatLE, littleEndian, ih, Nat.pow_succ, Nat.mul_comm (256 ^ count) 256, Nat.mod_mul]
      simp

/-- A number that fits comes back from octets of a fixed length. -/
theorem littleEndian_octets {n value : Nat} (h : value < 256 ^ n) :
    littleEndian (Octets.ofNatLE n value).toList = value :=
  (littleEndian_ofNatLE n value).trans (Nat.mod_eq_of_lt h)

/-- Octets that are all zero read as zero. -/
theorem littleEndian_of_zeros {s : Bytes} (h : ∀ b ∈ s, b = 0) : littleEndian s = 0 := by
  induction s with
  | nil => rfl
  | cons b s ih =>
      obtain ⟨hfirst, hrest⟩ := List.forall_mem_cons.1 h
      rw [littleEndian, hfirst, ih hrest]
      rfl

/-- A number is told by its octets, provided that it fits them. -/
theorem ofNatBE_inj {n a b : Nat} (ha : a < 256 ^ n) (hb : b < 256 ^ n)
    (h : ofNatBE n a = ofNatBE n b) : a = b := by
  have hread := congrArg littleEndian (List.reverse_inj.1 h)
  rwa [littleEndian_ofNatLE, littleEndian_ofNatLE, Nat.mod_eq_of_lt ha, Nat.mod_eq_of_lt hb]
    at hread

/-- Two strings of one length are ordered like what they begin with. -/
theorem append_lt_append {s s' : Bytes} (h : s < s') (hlength : s.length = s'.length)
    (t t' : Bytes) : s ++ t < s' ++ t' := by
  induction s generalizing s' with
  | nil =>
      obtain rfl : s' = [] := List.length_eq_zero_iff.1 hlength.symm
      exact absurd h (List.not_lt_nil _)
  | cons b s ih =>
      cases s' with
      | nil => cases hlength
      | cons b' s' =>
          rw [List.cons_append, List.cons_append, List.cons_lt_cons_iff]
          rcases List.cons_lt_cons_iff.1 h with hfirst | ⟨hsame, hrest⟩
          · exact .inl hfirst
          · exact .inr ⟨hsame, ih hrest (Nat.succ.inj hlength)⟩

/-- The last octet is the remainder of the number. -/
theorem ofNatBE_succ (n value : Nat) :
    ofNatBE (n + 1) value = ofNatBE n (value / 256) ++ [UInt8.ofNat value] :=
  List.reverse_cons

/-- **Order.**  Octets with the most significant one first are ordered like the numbers,
provided that these fit. -/
theorem ofNatBE_lt {n a b : Nat} (h : a < b) (hb : b < 256 ^ n) : ofNatBE n a < ofNatBE n b := by
  induction n generalizing a b with
  | zero => omega
  | succ n ih =>
      rw [Nat.pow_succ] at hb
      rw [ofNatBE_succ, ofNatBE_succ]
      by_cases hsame : a / 256 = b / 256
      · rw [hsame]
        refine List.append_left_lt (List.cons_lt_cons_iff.2 (.inl ?_))
        rw [UInt8.lt_iff_toNat_lt, UInt8.toNat_ofNat', UInt8.toNat_ofNat']
        omega
      · exact append_lt_append (ih (by omega) (by omega)) (by simp) _ _

end KeyExchange
