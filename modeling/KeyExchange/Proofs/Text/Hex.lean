import KeyExchange.BasicFault
import KeyExchange.Proofs.Outcome
import KeyExchange.Proofs.Text.Utf8

/-!
# Reading back hexadecimal text

* `digit_ascii`, `value?_digit`: a written digit is an ASCII character, and it
  has the value it was written for;
* `decode_encode`: octets come back from their digits;
* `decode_eq_ok_iff`: what is read are digits of either letter case, two for an octet;
* `fixedHexField_encode`, `fixedHexField_eq_ok_iff`: the same of a string of fixed length.
-/

namespace KeyExchange.Text.Hex

open Outcome

/-- The octet of a digit. -/
def digitOctet (n : Nat) : UInt8 := UInt8.ofNat (digit n).toNat

/-- A digit is an ASCII character. -/
theorem digit_ascii {n : Nat} (h : n < 16) : (digit n).toNat < 0x80 := by
  have hall : ∀ n : Fin 16, (digit n).toNat < 0x80 := by decide
  exact hall ⟨n, h⟩

/-- A written digit has the value it was written for. -/
theorem value?_digitOctet {n : Nat} (h : n < 16) : value? (digitOctet n) = some n := by
  have hall : ∀ n : Fin 16, value? (digitOctet n) = some n.val := by decide
  exact hall ⟨n, h⟩

/-- A digit is no hyphen. -/
theorem digitOctet_ne_hyphen {n : Nat} (h : n < 16) : digitOctet n ≠ 0x2d := by
  have hall : ∀ n : Fin 16, digitOctet n ≠ 0x2d := by decide
  exact hall ⟨n, h⟩

/-- The octets of the digits of a string. -/
def digitOctets (s : Bytes) : Bytes :=
  s.flatMap fun b => [digitOctet (b.toNat / 16), digitOctet (b.toNat % 16)]

/-- The first digit of an octet is below 16. -/
theorem high_lt (b : UInt8) : b.toNat / 16 < 16 := by
  have := b.toNat_lt
  omega

/-- So is the second. -/
theorem low_lt (b : UInt8) : b.toNat % 16 < 16 := Nat.mod_lt _ (by omega)

/-- Octets are written in ASCII characters. -/
theorem encodeChars_ascii {s : Bytes} {c : Char} (h : c ∈ encodeChars s) : c.toNat < 0x80 := by
  obtain ⟨b, -, hc⟩ := List.mem_flatMap.1 h
  rcases List.mem_cons.1 hc with rfl | hc
  · exact digit_ascii (high_lt b)
  · rw [List.mem_singleton.1 hc]
    exact digit_ascii (low_lt b)

/-- The octets of the written characters. -/
theorem map_encodeChars (s : Bytes) :
    (encodeChars s).map (fun c => UInt8.ofNat c.toNat) = digitOctets s := by
  rw [encodeChars, List.map_flatMap]
  rfl

/-- Two characters for each octet. -/
@[simp] theorem length_encodeChars (s : Bytes) : (encodeChars s).length = 2 * s.length := by
  induction s with
  | nil => rfl
  | cons b rest ih =>
      rw [encodeChars, List.flatMap_cons, List.length_append]
      change 2 + (encodeChars rest).length = _
      rw [ih, List.length_cons]
      omega

/-- Two digits for each octet. -/
@[simp] theorem length_digitOctets (s : Bytes) : (digitOctets s).length = 2 * s.length := by
  rw [← map_encodeChars, List.length_map, length_encodeChars]

/-- The octets of the text that is written. -/
theorem ofString_encode (s : Bytes) : Utf8.ofString (encode s) = digitOctets s := by
  rw [Utf8.ofString, encode, String.toList_ofList, Utf8.encode_ascii fun _ => encodeChars_ascii,
    map_encodeChars]

/-- Pairs of digits read back as the octets they were written for, wherever they
stand. -/
theorem decodePairs_digitOctets (position : Nat) (s : Bytes) :
    decodePairs position (digitOctets s) = .ok s := by
  induction s generalizing position with
  | nil => rfl
  | cons b rest ih =>
      have hb : UInt8.ofNat (16 * (b.toNat / 16) + b.toNat % 16) = b := by
        rw [Nat.div_add_mod, UInt8.ofNat_toNat]
      change decodePairs position
        (digitOctet (b.toNat / 16) :: digitOctet (b.toNat % 16) :: digitOctets rest) = _
      simp only [decodePairs, digitAt, value?_digitOctet (high_lt b), value?_digitOctet (low_lt b),
        ok_bind, ih, hb]
      rfl

/-- Octets come back from the octets of their digits. -/
theorem decodeOctets_digitOctets (s : Bytes) : decodeOctets (digitOctets s) = .ok s := by
  rw [decodeOctets, if_pos (by rw [length_digitOctets]; omega), decodePairs_digitOctets]

/-- **Reading back.**  Octets come back from their digits. -/
theorem decode_encode (s : Bytes) : decode (encode s) = .ok s := by
  rw [decode, ofString_encode, decodeOctets_digitOctets]

/-! ## Which texts are read -/

/-- A letter in small; other octets stay as they are. -/
def lowerOctet (b : UInt8) : UInt8 := if 65 ≤ b ∧ b ≤ 90 then b + 32 else b

/-- Only an ASCII octet is one in small. -/
theorem lt_of_lowerOctet {b : UInt8} (h : lowerOctet b < 0x80) : b < 0x80 := by
  have hall : ∀ i : Fin 256, lowerOctet (UInt8.ofFin i) < 0x80 → UInt8.ofFin i < 0x80 := by
    decide +kernel
  have hb := hall b.toFin
  rw [UInt8.ofFin_toFin] at hb
  exact hb h

/-- A digit has a value exactly when in small it is the digit of that value. -/
theorem value?_eq_some_iff {b : UInt8} {n : Nat} :
    value? b = some n ↔ n < 16 ∧ lowerOctet b = digitOctet n := by
  constructor
  · intro h
    have hall : ∀ i : Fin 256, ((value? (UInt8.ofFin i)).all fun n =>
        decide (n < 16 ∧ lowerOctet (UInt8.ofFin i) = digitOctet n)) = true := by decide +kernel
    have hb := hall b.toFin
    rw [UInt8.ofFin_toFin, h] at hb
    exact of_decide_eq_true hb
  · rintro ⟨hn, h⟩
    have hall : ∀ i : Fin 256, ∀ n : Fin 16, lowerOctet (UInt8.ofFin i) = digitOctet n →
        value? (UInt8.ofFin i) = some n.val := by decide +kernel
    have hb := hall b.toFin ⟨n, hn⟩
    rw [UInt8.ofFin_toFin] at hb
    exact hb h

/-- A digit is read in either letter case, and as its value. -/
theorem digitAt_eq_ok_iff {position : Nat} {b : UInt8} {n : Nat} :
    digitAt position b = .ok n ↔ n < 16 ∧ lowerOctet b = digitOctet n := by
  rw [← value?_eq_some_iff, digitAt]
  cases value? b with
  | none => simp
  | some m => simp

/-- The digits of the first octet stand in front. -/
theorem digitOctets_cons (b : UInt8) (s : Bytes) :
    digitOctets (b :: s)
      = digitOctet (b.toNat / 16) :: digitOctet (b.toNat % 16) :: digitOctets s := rfl

/-- An octet is told by the values of its digits. -/
theorem ofNat_digits {b : UInt8} {h l : Nat} (hh : h < 16) (hl : l < 16) :
    UInt8.ofNat (16 * h + l) = b ↔ h = b.toNat / 16 ∧ l = b.toNat % 16 := by
  have hb := b.toNat_lt
  rw [← UInt8.toNat_inj, UInt8.toNat_ofNat']
  omega

/-- Pairs of digits spell the octets that are written with these digits in small. -/
theorem decodePairs_eq_ok_iff {position : Nat} {s octets : Bytes} (heven : s.length % 2 = 0) :
    decodePairs position s = .ok octets ↔ s.map lowerOctet = digitOctets octets := by
  fun_induction decodePairs position s generalizing octets with
  | case1 position high low rest ih =>
      have hrest : rest.length % 2 = 0 := by
        simp only [List.length_cons] at heven
        omega
      simp only [bind_eq_ok_iff, digitAt_eq_ok_iff, ih hrest, List.map_cons]
      constructor
      · rintro ⟨h, ⟨hh, hhigh⟩, l, ⟨hl, hlow⟩, tail, htail, hmade⟩
        cases hmade
        obtain ⟨hh', hl'⟩ := (ofNat_digits hh hl).1 rfl
        rw [digitOctets_cons, hhigh, hlow, htail, ← hh', ← hl']
      · intro h
        cases octets with
        | nil => cases h
        | cons b tail =>
            rw [digitOctets_cons, List.cons.injEq, List.cons.injEq] at h
            obtain ⟨hhigh, hlow, htail⟩ := h
            refine ⟨_, ⟨high_lt b, hhigh⟩, _, ⟨low_lt b, hlow⟩, tail, htail, ?_⟩
            rw [(ofNat_digits (high_lt b) (low_lt b)).2 ⟨rfl, rfl⟩]
            rfl
  | case2 s position hshort =>
      rcases s with _ | ⟨high, _ | ⟨low, rest⟩⟩
      · cases octets with
        | nil => simp [digitOctets]
        | cons b tail => simp [digitOctets]
      · simp at heven
      · exact absurd rfl (hshort high low rest)

/-- Octets in hexadecimal digits of either case. -/
theorem decodeOctets_eq_ok_iff {s octets : Bytes} :
    decodeOctets s = .ok octets ↔ s.map lowerOctet = digitOctets octets := by
  rw [decodeOctets]
  by_cases heven : s.length % 2 = 0
  · rw [if_pos heven, decodePairs_eq_ok_iff heven]
  · rw [if_neg heven]
    refine iff_of_false (error_ne_ok _ _) fun h => heven ?_
    have hlength := congrArg List.length h
    rw [List.length_map, length_digitOctets] at hlength
    omega

/-- The octet of an ASCII character in small is that of its small letter. -/
theorem lowerOctet_ascii {c : Char} (h : c.toNat < 0x80) :
    lowerOctet (UInt8.ofNat c.toNat) = UInt8.ofNat c.toLower.toNat ∧ c.toLower.toNat < 0x80 := by
  have hall : ∀ n : Fin 0x80,
      lowerOctet (UInt8.ofNat n.val) = UInt8.ofNat (Char.ofNat n.val).toLower.toNat ∧
        (Char.ofNat n.val).toLower.toNat < 0x80 := by decide +kernel
  have hc := hall ⟨c.toNat, h⟩
  rwa [Char.ofNat_toNat] at hc

/-- Only an ASCII character has a small letter that is one. -/
theorem ascii_of_toLower {c : Char} (h : c.toLower.toNat < 0x80) : c.toNat < 0x80 := by
  unfold Char.toLower at h
  split at h
  · next hletter =>
      have hlast : c.val.toNat ≤ 90 := UInt32.le_iff_toNat_le.1 hletter.2
      change c.val.toNat < 0x80
      omega
  · exact h

/-- A text in small is told by its octets in small, if it is ASCII. -/
theorem map_lowerOctet_eq_iff {text : String} {small : List Char}
    (hascii : ∀ c ∈ small, c.toNat < 0x80) :
    (Utf8.ofString text).map lowerOctet = small.map (fun c => UInt8.ofNat c.toNat) ↔
      text.toList.map Char.toLower = small := by
  have hoctets : ∀ {cs : List Char}, (∀ c ∈ cs, c.toNat < 0x80) →
      (Utf8.encode cs).map lowerOctet = (cs.map Char.toLower).map fun c => UInt8.ofNat c.toNat := by
    intro cs hcs
    rw [Utf8.encode_ascii hcs, List.map_map, List.map_map]
    exact List.map_congr_left fun c hc => (lowerOctet_ascii (hcs c hc)).1
  rw [Utf8.ofString]
  constructor
  · intro h
    have htext : ∀ c ∈ text.toList, c.toNat < 0x80 := by
      refine Utf8.ascii_of_encode fun b hb => lt_of_lowerOctet ?_
      have hsmall := List.mem_map_of_mem (f := lowerOctet) hb
      rw [h] at hsmall
      obtain ⟨c, hc, hcb⟩ := List.mem_map.1 hsmall
      rw [← hcb]
      exact (Utf8.ofNat_lt_iff (by have := hascii c hc; omega)).2 (hascii c hc)
    rw [hoctets htext] at h
    have hlower : ∀ c ∈ text.toList.map Char.toLower, c.toNat < 0x80 := by
      intro c hc
      obtain ⟨c', hc', rfl⟩ := List.mem_map.1 hc
      exact (lowerOctet_ascii (htext c' hc')).2
    rw [← Utf8.encode_ascii hlower, ← Utf8.encode_ascii hascii] at h
    exact Utf8.encode_injective h
  · rintro rfl
    exact hoctets fun c hc => ascii_of_toLower (hascii _ (List.mem_map_of_mem hc))

/-- The text has two digits for each octet, the high one first, in either letter case. -/
def IsSpelling (text : String) (octets : Bytes) : Prop :=
  text.toList.map Char.toLower = encodeChars octets

instance (text : String) (octets : Bytes) : Decidable (IsSpelling text octets) :=
  inferInstanceAs (Decidable (_ = _))

/-- **Which texts are read**, and as what. -/
theorem decode_eq_ok_iff {text : String} {octets : Bytes} :
    decode text = .ok octets ↔ IsSpelling text octets := by
  rw [decode, decodeOctets_eq_ok_iff, ← map_encodeChars]
  exact map_lowerOctet_eq_iff fun _ => encodeChars_ascii

end KeyExchange.Text.Hex

namespace KeyExchange

open Outcome

/-- A field comes back from its digits. -/
theorem hexField_encode (field : String) (s : Bytes) :
    hexField field (Text.Hex.encode s) = .ok s := by
  rw [hexField, Text.Hex.decode_encode]

/-- A string of fixed length has that length. -/
theorem exactly_toList {n : Nat} (field : String) (o : Octets n) :
    exactly n field o.toList = .ok o := by
  rw [exactly, Octets.ofList?_toList]

/-- A field is read as the octets its text spells. -/
theorem hexField_eq_ok_iff {field text : String} {s : Bytes} :
    hexField field text = .ok s ↔ Text.Hex.IsSpelling text s := by
  rw [← Text.Hex.decode_eq_ok_iff, hexField]
  cases Text.Hex.decode text with
  | error reason => simp
  | ok octets => simp

/-- A string is taken for one of fixed length when it has that length. -/
theorem exactly_eq_ok_iff {n : Nat} {field : String} {s : Bytes} {o : Octets n} :
    exactly n field s = .ok o ↔ o.toList = s := by
  rw [← Octets.ofList?_eq_some_iff, exactly]
  cases Octets.ofList? n s with
  | none => simp
  | some fixed => simp

/-- A field of fixed length is read as the octets its text spells. -/
theorem fixedHexField_eq_ok_iff {n : Nat} {field text : String} {o : Octets n} :
    fixedHexField n field text = .ok o ↔ Text.Hex.IsSpelling text o.toList := by
  simp only [fixedHexField, bind_eq_ok_iff, hexField_eq_ok_iff, exactly_eq_ok_iff]
  simp

/-- A field of fixed length comes back from its digits. -/
theorem fixedHexField_encode {n : Nat} (field : String) (o : Octets n) :
    fixedHexField n field (Text.Hex.encode o.toList) = .ok o := by
  rw [fixedHexField, hexField_encode, ok_bind, exactly_toList]

end KeyExchange
