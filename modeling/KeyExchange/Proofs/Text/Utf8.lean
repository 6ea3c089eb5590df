import KeyExchange.Text.Utf8

/-!
# Reading back UTF-8

Octets of a text read back as that text: the length of a spelling is told by
its first octet, and the bits that the octets carry make up the code point
again.

* `decode_encode`: a text comes back from its octets;
* `encode_ascii`, `ascii_of_encode`: a text of ASCII characters has an octet for each;
* `ofString_injective`: different texts have different octets.
-/

namespace KeyExchange.Text.Utf8

/-- The number of an octet made from a small number. -/
theorem toNat_ofNat_of_lt {n : Nat} (h : n < 256) : (UInt8.ofNat n).toNat = n := by
  rw [UInt8.toNat_ofNat']
  exact Nat.mod_eq_of_lt h

/-- A continuation octet carries the six bits it was made from. -/
theorem continuation?_ofNat (n : Nat) :
    continuation? (UInt8.ofNat (n % 64 + 0x80)) = some (n % 64) := by
  have hn : (UInt8.ofNat (n % 64 + 0x80)).toNat = n % 64 + 0x80 :=
    toNat_ofNat_of_lt (by omega)
  have hrange : 0x80 ≤ UInt8.ofNat (n % 64 + 0x80) ∧ UInt8.ofNat (n % 64 + 0x80) < 0xC0 := by
    rw [UInt8.le_iff_toNat_le, UInt8.lt_iff_toNat_lt, hn]
    exact ⟨by simp, by simp; omega⟩
  rw [continuation?, if_pos hrange, hn, Nat.add_sub_cancel]

/-- A character is the scalar with its own code point, at every length that
reaches it. -/
theorem scalar?_toNat {least : Nat} (c : Char) (h : least ≤ c.toNat) :
    scalar? least c.toNat = some c := by
  have hvalid : c.toNat.isValidChar := c.valid
  rw [scalar?, dif_pos hvalid, if_pos h]
  rfl

/-- An octet made from a small number lies below a bound when the number does. -/
theorem ofNat_lt_iff {n : Nat} {b : UInt8} (h : n < 256) :
    UInt8.ofNat n < b ↔ n < b.toNat := by
  rw [UInt8.lt_iff_toNat_lt, toNat_ofNat_of_lt h]

/-- A spelling of one octet. -/
theorem decode_oneOctet {a : UInt8} (ha : a < 0x80) (rest : Bytes) :
    decode (a :: rest) = (decode rest).map (Char.ofNat a.toNat :: ·) := by
  rw [decode.eq_def]
  exact if_pos ha

/-- A spelling of two octets: the first carries `q`. -/
theorem decode_twoOctets {q n : Nat} {c : Char} (hq : q < 0x20) (hleast : 0x80 ≤ c.toNat)
    (hcode : q * 64 + n % 64 = c.toNat) (rest : Bytes) :
    decode (UInt8.ofNat (q + 0xc0) :: UInt8.ofNat (n % 64 + 0x80) :: rest)
      = (decode rest).map (c :: ·) := by
  have hlead : (UInt8.ofNat (q + 0xc0)).toNat - 0xC0 = q := by
    rw [toNat_ofNat_of_lt (by omega), Nat.add_sub_cancel]
  have h1 : ¬ UInt8.ofNat (q + 0xc0) < 0x80 := by rw [ofNat_lt_iff (by omega)]; simp
  have h2 : ¬ UInt8.ofNat (q + 0xc0) < 0xC0 := by rw [ofNat_lt_iff (by omega)]; simp
  have h3 : UInt8.ofNat (q + 0xc0) < 0xE0 := by rw [ofNat_lt_iff (by omega)]; simp; omega
  have hread : decode (UInt8.ofNat (q + 0xc0) :: UInt8.ofNat (n % 64 + 0x80) :: rest)
      = (scalar? 0x80 (q * 64 + n % 64)).bind fun d => (decode rest).map (d :: ·) := by
    rw [decode, if_neg h1, if_neg h2, if_pos h3]
    simp only [continuation?_ofNat, hlead]
    rfl
  rw [hread, hcode, scalar?_toNat c hleast]
  rfl

/-- A spelling of three octets. -/
theorem decode_threeOctets {q m n : Nat} {c : Char} (hq : q < 0x10) (hleast : 0x800 ≤ c.toNat)
    (hcode : (q * 64 + m % 64) * 64 + n % 64 = c.toNat) (rest : Bytes) :
    decode (UInt8.ofNat (q + 0xe0) :: UInt8.ofNat (m % 64 + 0x80)
        :: UInt8.ofNat (n % 64 + 0x80) :: rest)
      = (decode rest).map (c :: ·) := by
  have hlead : (UInt8.ofNat (q + 0xe0)).toNat - 0xE0 = q := by
    rw [toNat_ofNat_of_lt (by omega), Nat.add_sub_cancel]
  have h1 : ¬ UInt8.ofNat (q + 0xe0) < 0x80 := by rw [ofNat_lt_iff (by omega)]; simp
  have h2 : ¬ UInt8.ofNat (q + 0xe0) < 0xC0 := by rw [ofNat_lt_iff (by omega)]; simp
  have h3 : ¬ UInt8.ofNat (q + 0xe0) < 0xE0 := by rw [ofNat_lt_iff (by omega)]; simp
  have h4 : UInt8.ofNat (q + 0xe0) < 0xF0 := by rw [ofNat_lt_iff (by omega)]; simp; omega
  have hread : decode (UInt8.ofNat (q + 0xe0) :: UInt8.ofNat (m % 64 + 0x80)
        :: UInt8.ofNat (n % 64 + 0x80) :: rest)
      = (scalar? 0x800 ((q * 64 + m % 64) * 64 + n % 64)).bind
          fun d => (decode rest).map (d :: ·) := by
    rw [decode, if_neg h1, if_neg h2, if_neg h3, if_pos h4]
    simp only [continuation?_ofNat, hlead]
    rfl
  rw [hread, hcode, scalar?_toNat c hleast]
  rfl

/-- A spelling of four octets. -/
theorem decode_fourOctets {q l m n : Nat} {c : Char} (hq : q < 0x08)
    (hleast : 0x10000 ≤ c.toNat)
    (hcode : ((q * 64 + l % 64) * 64 + m % 64) * 64 + n % 64 = c.toNat) (rest : Bytes) :
    decode (UInt8.ofNat (q + 0xf0) :: UInt8.ofNat (l % 64 + 0x80) :: UInt8.ofNat (m % 64 + 0x80)
        :: UInt8.ofNat (n % 64 + 0x80) :: rest)
      = (decode rest).map (c :: ·) := by
  have hlead : (UInt8.ofNat (q + 0xf0)).toNat - 0xF0 = q := by
    rw [toNat_ofNat_of_lt (by omega), Nat.add_sub_cancel]
  have h1 : ¬ UInt8.ofNat (q + 0xf0) < 0x80 := by rw [ofNat_lt_iff (by omega)]; simp
  have h2 : ¬ UInt8.ofNat (q + 0xf0) < 0xC0 := by rw [ofNat_lt_iff (by omega)]; simp
  have h3 : ¬ UInt8.ofNat (q + 0xf0) < 0xE0 := by rw [ofNat_lt_iff (by omega)]; simp
  have h4 : ¬ UInt8.ofNat (q + 0xf0) < 0xF0 := by rw [ofNat_lt_iff (by omega)]; simp
  have h5 : UInt8.ofNat (q + 0xf0) < 0xF8 := by rw [ofNat_lt_iff (by omega)]; simp; omega
  have hread : decode (UInt8.ofNat (q + 0xf0) :: UInt8.ofNat (l % 64 + 0x80)
        :: UInt8.ofNat (m % 64 + 0x80) :: UInt8.ofNat (n % 64 + 0x80) :: rest)
      = (scalar? 0x10000 (((q * 64 + l % 64) * 64 + m % 64) * 64 + n % 64)).bind
          fun d => (decode rest).map (d :: ·) := by
    rw [decode, if_neg h1, if_neg h2, if_neg h3, if_neg h4, if_pos h5]
    simp only [continuation?_ofNat, hlead]
    rfl
  rw [hread, hcode, scalar?_toNat c hleast]
  rfl

/-- The octets of one character, and what follows them. -/
theorem decode_encodeChar_append (c : Char) (rest : Bytes) :
    decode (String.utf8EncodeChar c ++ rest) = (decode rest).map (c :: ·) := by
  have hmax : c.toNat < 0x110000 := by
    have hvalid := c.valid
    simp only [UInt32.isValidChar, Nat.isValidChar] at hvalid
    change c.val.toNat < _
    omega
  simp only [String.utf8EncodeChar, show c.val.toNat = c.toNat from rfl]
  split
  · have hlt : UInt8.ofNat c.toNat < 0x80 := (ofNat_lt_iff (by omega)).2 (by simp; omega)
    have hc : Char.ofNat (UInt8.ofNat c.toNat).toNat = c := by
      rw [toNat_ofNat_of_lt (by omega), Char.ofNat_toNat]
    rw [List.cons_append, List.nil_append, decode_oneOctet hlt, hc]
  · split
    · exact decode_twoOctets (by omega) (by omega) (by omega) rest
    · split
      · exact decode_threeOctets (by omega) (by omega) (by omega) rest
      · exact decode_fourOctets (by omega) (by omega) (by omega) rest

/-- **Reading back.**  The octets of a text spell that text. -/
theorem decode_encode (text : List Char) : decode (encode text) = some text := by
  induction text with
  | nil => rfl
  | cons c rest ih =>
      have hcons : encode (c :: rest) = String.utf8EncodeChar c ++ encode rest := by
        simp [encode]
      rw [hcons, decode_encodeChar_append, ih]
      rfl

/-- The octets of a character: one for an ASCII character, or large ones. -/
theorem mem_encodeChar {c : Char} {b : UInt8} (h : b ∈ String.utf8EncodeChar c) :
    (c.toNat < 0x80 ∧ b = UInt8.ofNat c.toNat) ∨ 0x80 ≤ b := by
  have hlarge : ∀ n m, 0x80 ≤ m → n < 256 - m → 0x80 ≤ UInt8.ofNat (n + m) := by
    intro n m hm hn
    rw [UInt8.le_iff_toNat_le, toNat_ofNat_of_lt (by omega)]
    simp
    omega
  have hmax : c.toNat < 0x110000 := by
    have hvalid := c.valid
    simp only [UInt32.isValidChar, Nat.isValidChar] at hvalid
    change c.val.toNat < _
    omega
  simp only [String.utf8EncodeChar, show c.val.toNat = c.toNat from rfl] at h
  split at h
  · left
    exact ⟨by omega, by simpa using h⟩
  · right
    split at h
    · simp only [List.mem_cons, List.not_mem_nil, or_false] at h
      rcases h with rfl | rfl <;> exact hlarge _ _ (by omega) (by omega)
    · split at h
      · simp only [List.mem_cons, List.not_mem_nil, or_false] at h
        rcases h with rfl | rfl | rfl <;> exact hlarge _ _ (by omega) (by omega)
      · simp only [List.mem_cons, List.not_mem_nil, or_false] at h
        rcases h with rfl | rfl | rfl | rfl <;> exact hlarge _ _ (by omega) (by omega)

/-- A text of ASCII characters has an octet for each. -/
theorem encode_ascii {text : List Char} (h : ∀ c ∈ text, c.toNat < 0x80) :
    encode text = text.map fun c => UInt8.ofNat c.toNat := by
  induction text with
  | nil => rfl
  | cons c rest ih =>
      have hc : String.utf8EncodeChar c = [UInt8.ofNat c.toNat] := by
        have hc := h c (by simp)
        simp only [String.utf8EncodeChar, show c.val.toNat = c.toNat from rfl]
        rw [if_pos (by omega)]
      rw [encode, List.flatMap_cons, hc, List.map_cons, ← ih fun d hd => h d (by simp [hd])]
      rfl

/-- A text whose octets are small is a text of ASCII characters. -/
theorem ascii_of_encode {text : List Char} (h : ∀ b ∈ encode text, b < 0x80) :
    ∀ c ∈ text, c.toNat < 0x80 := by
  intro c hc
  have hne : String.utf8EncodeChar c ≠ [] := by
    rw [Ne, ← List.length_eq_zero_iff, String.length_utf8EncodeChar]
    exact Nat.ne_of_gt c.utf8Size_pos
  obtain ⟨b, hb⟩ := List.exists_mem_of_ne_nil _ hne
  rcases mem_encodeChar hb with ⟨hlt, -⟩ | hlarge
  · exact hlt
  · exact absurd (h b (List.mem_flatMap.2 ⟨c, hc, hb⟩)) (UInt8.not_lt.2 hlarge)

/-- Different characters have different octets. -/
theorem encode_injective {a b : List Char} (h : encode a = encode b) : a = b := by
  have hread := congrArg decode h
  rw [decode_encode, decode_encode] at hread
  exact Option.some.inj hread

/-- Different texts have different octets. -/
theorem ofString_injective {a b : String} (h : ofString a = ofString b) : a = b :=
  String.toList_inj.1 (encode_injective h)

end KeyExchange.Text.Utf8
