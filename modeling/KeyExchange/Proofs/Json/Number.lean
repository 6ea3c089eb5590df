import KeyExchange.Json.Number
import KeyExchange.Proofs.Outcome
import KeyExchange.Proofs.Text.Utf8
import Mathlib.Data.List.TakeWhile

/-!
# How numbers are spelled

A number may be spelled with an exponent in either case and with a needless plus
sign.  Wherever the text goes on with something that no number goes on with, a
spelling is cut out of it whole; nothing but a spelling is ever cut out.

* `digitsValue_digitsOf`: the digits of a natural number spell it;
* `kind_ofNat`: below 2^64 they are taken for that number;
* `Spelled`: how a number is spelled;
* `Spelled.scan`, `Spelled.of_scan`: what is cut out of a text is what spells a
  number;
* `spelled_ofNat`: so do the digits of a natural number.
-/

namespace KeyExchange.Json.Number

open Text.Utf8 (toNat_ofNat_of_lt)

/-- The octet of a digit in base ten. -/
def digitOctet (n : Nat) : UInt8 := UInt8.ofNat n.digitChar.toNat

/-- A digit is an octet from 48 on, by its value. -/
theorem toNat_digitOctet {n : Nat} (h : n < 10) : (digitOctet n).toNat = 48 + n := by
  have hall : ∀ n : Fin 10, (digitOctet n).toNat = 48 + n.val := by decide
  exact hall ⟨n, h⟩

/-- The octets of digits are those from 48 to 57. -/
theorem isDigit_iff {b : UInt8} : isDigit b = true ↔ 48 ≤ b.toNat ∧ b.toNat ≤ 57 := by
  rw [isDigit, Bool.and_eq_true, decide_eq_true_iff, decide_eq_true_iff, UInt8.le_iff_toNat_le,
    UInt8.le_iff_toNat_le]
  rfl

/-- A digit is written as one. -/
theorem isDigit_digitOctet {n : Nat} (h : n < 10) : isDigit (digitOctet n) = true := by
  rw [isDigit_iff, toNat_digitOctet h]
  omega

/-- The digits of a number are those of its tenth part and one more. -/
theorem digitsOf_eq (n : Nat) :
    digitsOf n = if n < 10 then [digitOctet n] else digitsOf (n / 10) ++ [digitOctet (n % 10)] := by
  rw [digitsOf, Nat.toDigits_eq_if (by decide)]
  by_cases hsmall : n < 10
  · rw [if_pos hsmall, if_pos hsmall]
    rfl
  · rw [if_neg hsmall, if_neg hsmall, List.map_append]
    rfl

/-- Every number has a digit. -/
theorem digitsOf_ne_nil (n : Nat) : digitsOf n ≠ [] := by
  rw [digitsOf_eq]
  split <;> simp

/-- A number is written in digits. -/
theorem isDigit_of_mem_digitsOf {n : Nat} {b : UInt8} (h : b ∈ digitsOf n) : isDigit b = true := by
  induction n using Nat.strongRecOn generalizing b with
  | ind n ih =>
      rw [digitsOf_eq] at h
      by_cases hsmall : n < 10
      · rw [if_pos hsmall, List.mem_singleton] at h
        rw [h]
        exact isDigit_digitOctet hsmall
      · rw [if_neg hsmall, List.mem_append, List.mem_singleton] at h
        rcases h with h | rfl
        · exact ih (n / 10) (by omega) h
        · exact isDigit_digitOctet (Nat.mod_lt _ (by omega))

/-- Only zero is written with a zero in front. -/
theorem head?_digitsOf {n : Nat} (h : 0 < n) : (digitsOf n).head? ≠ some 48 := by
  induction n using Nat.strongRecOn with
  | ind n ih =>
      rw [digitsOf_eq]
      by_cases hsmall : n < 10
      · rw [if_pos hsmall]
        intro hzero
        have hoctet : digitOctet n = 48 := Option.some.inj hzero
        have hnat := toNat_digitOctet hsmall
        rw [hoctet] at hnat
        have h48 : (48 : UInt8).toNat = 48 := rfl
        omega
      · rw [if_neg hsmall, List.head?_append]
        obtain ⟨b, digits, hdigits⟩ := List.exists_cons_of_ne_nil (digitsOf_ne_nil (n / 10))
        have hfirst := ih (n / 10) (by omega) (by omega)
        rw [hdigits] at hfirst ⊢
        exact hfirst

/-- **Digits.**  The digits of a number spell it. -/
theorem digitsValue_digitsOf (n : Nat) : digitsValue 0 (digitsOf n) = n := by
  induction n using Nat.strongRecOn with
  | ind n ih =>
      rw [digitsOf_eq]
      by_cases hsmall : n < 10
      · rw [if_pos hsmall]
        have hdigit := toNat_digitOctet hsmall
        simp only [digitsValue, List.foldl_cons, List.foldl_nil]
        omega
      · rw [if_neg hsmall]
        have hlast := toNat_digitOctet (Nat.mod_lt n (show 0 < 10 by omega))
        have hinit := ih (n / 10) (by omega)
        simp only [digitsValue] at hinit
        simp only [digitsValue, List.foldl_append, List.foldl_cons, List.foldl_nil, hinit]
        omega

/-- A natural number below 2^64 is read as a natural number. -/
theorem kind_ofNat {n : Nat} (h : n < 2 ^ 64) : (ofNat n).kind = .natural n := by
  have hsmall : n < 18446744073709551616 := h
  simp [kind, ofNat, digitsValue_digitsOf, hsmall]

/-! ## Spellings -/

/-- The octets are digits, at least one. -/
def IsDigits (s : Bytes) : Prop := s ≠ [] ∧ ∀ b ∈ s, isDigit b = true

/-- How a fraction is spelled. -/
inductive FractionSpelled : Bytes → Bytes → Prop
  | absent : FractionSpelled [] []
  | present {digits : Bytes} (h : IsDigits digits) : FractionSpelled digits (46 :: digits)

/-- How an exponent is spelled: in either case, and with or without a plus sign. -/
inductive ExponentSpelled : Option (Bool × Bytes) → Bytes → Prop
  | absent : ExponentSpelled none []
  | present {mark : UInt8} {negative : Bool} {sign digits : Bytes} (hmark : mark = 101 ∨ mark = 69)
      (hsign : (negative, sign) ∈ [(false, []), (false, [43]), (true, [45])])
      (hdigits : IsDigits digits) :
      ExponentSpelled (some (negative, digits)) (mark :: (sign ++ digits))

/-- How a number is spelled: no needless zero stands in front. -/
inductive Spelled : Number → Bytes → Prop
  | parts {negative : Bool} {whole fraction after : Bytes} {exponent : Option (Bool × Bytes)}
      {behind : Bytes} (hwhole : IsDigits whole) (hfront : whole = [48] ∨ whole.head? ≠ some 48)
      (hfraction : FractionSpelled fraction after) (hexponent : ExponentSpelled exponent behind) :
      Spelled ⟨negative, whole, fraction, exponent⟩
        ((if negative then [45] else []) ++ (whole ++ (after ++ behind)))

/-! ## What follows a spelling -/

/-- The text goes on with no digit. -/
def Stops (rest : Bytes) : Prop := ∀ b ∈ rest.head?, isDigit b = false

/-- Digits stop in front of any other octet. -/
theorem stops_cons {b : UInt8} (h : isDigit b = false) (rest : Bytes) : Stops (b :: rest) := by
  intro c hc
  cases hc
  exact h

/-- No number goes on with this text. -/
def Ends (rest : Bytes) : Prop :=
  ∀ b ∈ rest.head?, isDigit b = false ∧ b ≠ 46 ∧ b ≠ 101 ∧ b ≠ 69

/-- A number may end the text. -/
theorem ends_nil : Ends [] := by
  intro b hb
  cases hb

/-- A number ends in front of an octet that no number goes on with. -/
theorem ends_cons {b : UInt8} (h : isDigit b = false ∧ b ≠ 46 ∧ b ≠ 101 ∧ b ≠ 69)
    (rest : Bytes) : Ends (b :: rest) := by
  intro c hc
  cases hc
  exact h

/-- Where a number ends, its digits stop. -/
theorem Ends.stops {rest : Bytes} (h : Ends rest) : Stops rest := fun b hb => (h b hb).1

/-- Digits start with a digit. -/
theorem IsDigits.append_ne_cons {digits : Bytes} (h : IsDigits digits) {c : UInt8}
    (hc : isDigit c = false) (rest tail : Bytes) : digits ++ rest ≠ c :: tail := by
  obtain ⟨hne, hall⟩ := h
  obtain ⟨b, others, rfl⟩ := List.exists_cons_of_ne_nil hne
  intro hsame
  rw [List.cons_append, List.cons.injEq] at hsame
  have hb := hall b List.mem_cons_self
  rw [hsame.1, hc] at hb
  cases hb

/-! ## Digits -/

/-- Digits are taken up to where they stop. -/
theorem takeDigits_append {digits rest : Bytes} (hdigits : ∀ b ∈ digits, isDigit b = true)
    (hrest : Stops rest) : takeDigits (digits ++ rest) = (digits, rest) := by
  have hstop : rest.takeWhile isDigit = [] ∧ rest.dropWhile isDigit = rest := by
    cases rest with
    | nil => exact ⟨rfl, rfl⟩
    | cons b rest =>
        have hb : ¬isDigit b = true := by simp [hrest b rfl]
        exact ⟨List.takeWhile_cons_of_neg hb, List.dropWhile_cons_of_neg hb⟩
  rw [takeDigits, List.takeWhile_append_of_pos hdigits, List.dropWhile_append_of_pos hdigits,
    hstop.1, hstop.2, List.append_nil]

/-- What is cut off are digits, and no digit follows. -/
theorem of_takeDigits {s digits rest : Bytes} (h : takeDigits s = (digits, rest)) :
    s = digits ++ rest ∧ (∀ b ∈ digits, isDigit b = true) ∧ Stops rest := by
  rw [takeDigits, Prod.mk.injEq] at h
  obtain ⟨rfl, rfl⟩ := h
  refine ⟨List.takeWhile_append_dropWhile.symm, fun b hb => List.mem_takeWhile_imp hb, ?_⟩
  intro b hb
  have hnot := List.head?_dropWhile_not isDigit s
  rw [hb] at hnot
  simpa using hnot

/-! ## Fractions -/

/-- Without a point there is no fraction. -/
theorem scanFraction_of_ne {rest : Bytes} (h : rest.head? ≠ some 46) :
    scanFraction rest = some ([], rest) := by
  rw [scanFraction]
  rintro tail rfl
  exact h rfl

/-- A fraction is cut off in front of what goes on otherwise. -/
theorem FractionSpelled.scan {fraction s rest : Bytes} (h : FractionSpelled fraction s)
    (hstops : Stops rest) (hpoint : rest.head? ≠ some 46) :
    scanFraction (s ++ rest) = some (fraction, rest) := by
  cases h with
  | absent => exact scanFraction_of_ne hpoint
  | present hdigits =>
      rw [List.cons_append, scanFraction, takeDigits_append hdigits.2 hstops]
      exact if_neg (mt List.isEmpty_iff.1 hdigits.1)

/-- Nothing but a fraction is cut off. -/
theorem FractionSpelled.of_scan {fraction s rest : Bytes}
    (h : scanFraction s = some (fraction, rest)) (hs : Stops s) :
    ∃ after, FractionSpelled fraction after ∧ s = after ++ rest ∧ Stops rest := by
  unfold scanFraction at h
  split at h
  · next tail =>
    obtain ⟨⟨digits, left⟩, hcut⟩ : ∃ p, takeDigits tail = p := ⟨_, rfl⟩
    obtain ⟨htail, hdigits, hleft⟩ := of_takeDigits hcut
    rw [hcut] at h
    dsimp only at h
    split at h
    · cases h
    · next hne =>
      cases h
      exact ⟨_, .present ⟨mt List.isEmpty_iff.2 hne, hdigits⟩, by rw [htail]; rfl, hleft⟩
  · cases h
    exact ⟨[], .absent, rfl, hs⟩

/-! ## Exponents -/

/-- The sign of an exponent, which is negative or not, and what follows it. -/
def cutSign : Bytes → Bool × Bytes
  | 43 :: rest => (false, rest)
  | 45 :: rest => (true, rest)
  | rest => (false, rest)

/-- Behind its mark an exponent is its sign and its digits. -/
theorem scanExponent_cons {mark : UInt8} (hmark : mark = 101 ∨ mark = 69) (s : Bytes) :
    scanExponent (mark :: s)
      = if (takeDigits (cutSign s).2).1.isEmpty then none
        else some (some ((cutSign s).1, (takeDigits (cutSign s).2).1),
          (takeDigits (cutSign s).2).2) :=
  if_pos hmark

/-- The sign of an exponent is cut off from its digits. -/
theorem cutSign_append {negative : Bool} {sign digits : Bytes}
    (hsign : (negative, sign) ∈ [(false, []), (false, [43]), (true, [45])])
    (hdigits : IsDigits digits) (rest : Bytes) :
    cutSign (sign ++ (digits ++ rest)) = (negative, digits ++ rest) := by
  simp only [List.mem_cons, Prod.mk.injEq, List.not_mem_nil, or_false] at hsign
  rcases hsign with ⟨rfl, rfl⟩ | ⟨rfl, rfl⟩ | ⟨rfl, rfl⟩
  · rw [List.nil_append, cutSign]
    · exact hdigits.append_ne_cons rfl rest
    · exact hdigits.append_ne_cons rfl rest
  · rfl
  · rfl

/-- What is cut off an exponent as its sign is one of the three ways to write one. -/
theorem of_cutSign {s rest : Bytes} {negative : Bool} (h : cutSign s = (negative, rest)) :
    ∃ sign, (negative, sign) ∈ [(false, []), (false, [43]), (true, [45])] ∧ s = sign ++ rest := by
  unfold cutSign at h
  split at h
  · cases h
    exact ⟨[43], by simp, rfl⟩
  · cases h
    exact ⟨[45], by simp, rfl⟩
  · cases h
    exact ⟨[], by simp, rfl⟩

/-- An exponent is cut off in front of what goes on otherwise. -/
theorem ExponentSpelled.scan {exponent : Option (Bool × Bytes)} {s rest : Bytes}
    (h : ExponentSpelled exponent s) (hends : Ends rest) :
    scanExponent (s ++ rest) = some (exponent, rest) := by
  cases h with
  | absent =>
      cases rest with
      | nil => rfl
      | cons b rest =>
          obtain ⟨-, -, hsmall, hlarge⟩ := hends b rfl
          exact if_neg (by simp [hsmall, hlarge])
  | @present mark negative sign digits hmark hsign hdigits =>
      rw [List.cons_append, List.append_assoc, scanExponent_cons hmark,
        cutSign_append hsign hdigits, takeDigits_append hdigits.2 hends.stops]
      exact if_neg (mt List.isEmpty_iff.1 hdigits.1)

/-- Nothing but an exponent is cut off. -/
theorem ExponentSpelled.of_scan {exponent : Option (Bool × Bytes)} {s rest : Bytes}
    (h : scanExponent s = some (exponent, rest)) (hs : Stops s) :
    ∃ behind, ExponentSpelled exponent behind ∧ s = behind ++ rest ∧ Stops rest := by
  cases s with
  | nil =>
      cases h
      exact ⟨[], .absent, rfl, hs⟩
  | cons mark s =>
      by_cases hmark : mark = 101 ∨ mark = 69
      · obtain ⟨⟨negative, unsigned⟩, hcutSign⟩ : ∃ p, cutSign s = p := ⟨_, rfl⟩
        obtain ⟨⟨digits, left⟩, hcut⟩ : ∃ p, takeDigits unsigned = p := ⟨_, rfl⟩
        obtain ⟨sign, hsign, hs⟩ := of_cutSign hcutSign
        obtain ⟨hunsigned, hdigits, hleft⟩ := of_takeDigits hcut
        rw [scanExponent_cons hmark, hcutSign, hcut] at h
        dsimp only at h
        by_cases hempty : digits.isEmpty
        · rw [if_pos hempty] at h
          cases h
        · rw [if_neg hempty] at h
          cases h
          refine ⟨_, .present hmark hsign ⟨mt List.isEmpty_iff.2 hempty, hdigits⟩, ?_, hleft⟩
          rw [hs, hunsigned, List.cons_append, List.append_assoc]
      · have hplain : scanExponent (mark :: s) = some (none, mark :: s) := if_neg hmark
        rw [hplain] at h
        cases h
        exact ⟨[], .absent, rfl, hs⟩

/-! ## Numbers -/

/-- The minus sign of a number and what follows it. -/
def cutMinus : Bytes → Bool × Bytes
  | 45 :: rest => (true, rest)
  | rest => (false, rest)

/-- The parts of a number are cut off one after the other. -/
theorem scan_eq (s : Bytes) :
    scan s = (do
      let (whole, left) := takeDigits (cutMinus s).2
      guard (whole = [48] ∨ (whole ≠ [] ∧ whole.head? ≠ some 48))
      let (fraction, left) ← scanFraction left
      let (exponent, left) ← scanExponent left
      return (⟨(cutMinus s).1, whole, fraction, exponent⟩, left)) := rfl

/-- The minus sign of a number is cut off from its digits. -/
theorem cutMinus_append {whole : Bytes} (hwhole : IsDigits whole) (negative : Bool) (rest : Bytes) :
    cutMinus ((if negative then [45] else []) ++ (whole ++ rest)) = (negative, whole ++ rest) := by
  cases negative with
  | true => rfl
  | false => exact cutMinus.eq_2 _ (hwhole.append_ne_cons rfl rest)

/-- What is cut off a number as its sign is a minus sign, or nothing. -/
theorem of_cutMinus {s rest : Bytes} {negative : Bool} (h : cutMinus s = (negative, rest)) :
    s = (if negative then [45] else []) ++ rest := by
  unfold cutMinus at h
  split at h
  · cases h
    rfl
  · cases h
    rfl

/-- No digit follows the whole part or the fraction, and no point the fraction. -/
theorem stops_behind {fraction after behind rest : Bytes} {exponent : Option (Bool × Bytes)}
    (hfraction : FractionSpelled fraction after) (hexponent : ExponentSpelled exponent behind)
    (hends : Ends rest) :
    Stops (behind ++ rest) ∧ (behind ++ rest).head? ≠ some 46 ∧
      Stops (after ++ (behind ++ rest)) := by
  have hbehind : Stops (behind ++ rest) ∧ (behind ++ rest).head? ≠ some 46 := by
    cases hexponent with
    | absent => exact ⟨hends.stops, fun h => (hends 46 h).2.1 rfl⟩
    | present hmark _ _ =>
        rcases hmark with rfl | rfl
        · exact ⟨stops_cons rfl _, by simp⟩
        · exact ⟨stops_cons rfl _, by simp⟩
  refine ⟨hbehind.1, hbehind.2, ?_⟩
  cases hfraction with
  | absent => exact hbehind.1
  | present _ => exact stops_cons rfl _

/-- **A spelling is cut out whole**, wherever the text ends it. -/
theorem Spelled.scan {x : Number} {s rest : Bytes} (h : Spelled x s) (hends : Ends rest) :
    Number.scan (s ++ rest) = some (x, rest) := by
  obtain @⟨negative, whole, fraction, after, exponent, behind, hwhole, hfront, hfraction,
    hexponent⟩ := h
  obtain ⟨hbehind, hpoint, hafter⟩ := stops_behind hfraction hexponent hends
  have hguard : whole = [48] ∨ (whole ≠ [] ∧ whole.head? ≠ some 48) :=
    hfront.imp_right fun h => ⟨hwhole.1, h⟩
  rw [scan_eq, List.append_assoc, List.append_assoc, List.append_assoc, cutMinus_append hwhole]
  simp only [takeDigits_append hwhole.2 hafter, Outcome.guard_of_true hguard,
    hfraction.scan hbehind hpoint, hexponent.scan hends, Option.bind_eq_bind, Option.bind_some,
    Option.pure_def]

/-- **Nothing but a spelling is cut out.** -/
theorem Spelled.of_scan {x : Number} {s rest : Bytes} (h : Number.scan s = some (x, rest)) :
    ∃ w, Spelled x w ∧ s = w ++ rest ∧ Stops rest := by
  obtain ⟨⟨negative, unsigned⟩, hcutMinus⟩ : ∃ p, cutMinus s = p := ⟨_, rfl⟩
  obtain ⟨⟨whole, left⟩, hcut⟩ : ∃ p, takeDigits unsigned = p := ⟨_, rfl⟩
  obtain ⟨hunsigned, hdigits, hleft⟩ := of_takeDigits hcut
  rw [scan_eq, hcutMinus] at h
  simp only [hcut, Option.bind_eq_bind, Option.bind_eq_some_iff] at h
  obtain ⟨_, hguard, ⟨fraction, left₁⟩, hfraction, ⟨exponent, left₂⟩, hexponent, h⟩ := h
  cases h
  obtain ⟨after, hafter, rfl, hleft₁⟩ := FractionSpelled.of_scan hfraction hleft
  obtain ⟨behind, hbehind, rfl, hleft₂⟩ := ExponentSpelled.of_scan hexponent hleft₁
  have hfront := Outcome.of_guard hguard
  have hne : whole ≠ [] := by
    rcases hfront with rfl | hfront
    · exact List.cons_ne_nil _ _
    · exact hfront.1
  refine ⟨_, .parts ⟨hne, hdigits⟩ (hfront.imp_right And.right) hafter hbehind, ?_, hleft₂⟩
  rw [of_cutMinus hcutMinus, hunsigned]
  simp only [List.append_assoc]

/-- The digits of a natural number spell it. -/
theorem spelled_ofNat (n : Nat) : Spelled (ofNat n) (digitsOf n) := by
  have hdigits : IsDigits (digitsOf n) := ⟨digitsOf_ne_nil n, fun _ => isDigit_of_mem_digitsOf⟩
  have hfront : digitsOf n = [48] ∨ (digitsOf n).head? ≠ some 48 := by
    rcases Nat.eq_zero_or_pos n with rfl | hpos
    · exact .inl rfl
    · exact .inr (head?_digitsOf hpos)
  have hspelled := @Spelled.parts false _ _ _ _ _ hdigits hfront .absent .absent
  rwa [List.append_nil, List.append_nil] at hspelled

end KeyExchange.Json.Number
