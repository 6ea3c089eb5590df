import KeyExchange.Json.Literal
import KeyExchange.Proofs.Text.Utf8

/-!
# Reading back strings

What is written between the quotes of a string for a text ends where the next
quote stands and spells that text, whatever characters the text has.

* `Raw`: what may stand between the quotes of a string;
* `Raw.scan`, `Raw.of_scan`: this is what is cut out of a text;
* `scan_escape`, `scan_encode`: what is written is cut out of the text again;
* `pieces?_escape`, `join?_piece`: its escapes stand for what was escaped;
* `decode?_encode`: it spells the text it was written for.
-/

namespace KeyExchange.Json.Literal

open Text

/-- How a character is written. -/
inductive Writing (c : Char) : Prop where
  /-- Behind a backslash. -/
  | named (e : Char) (name : named? e = some c) (ascii : e.toNat < 0x80) (unlike : e ≠ 'u')
      (writing : escape c = ['\\', e])
  /-- By its number. -/
  | numbered (control : c.toNat < 32)
      (writing : escape c
        = ['\\', 'u', '0', '0', hexDigit (c.toNat / 16), hexDigit (c.toNat % 16)])
  /-- As it is. -/
  | plain (quote : c ≠ '"') (backslash : c ≠ '\\') (visible : 32 ≤ c.toNat)
      (writing : escape c = [c])

/-- Every character is written in one of three ways. -/
theorem writing (c : Char) : Writing c := by
  by_cases h1 : c = '"'
  · subst h1
    exact .named '"' rfl (by decide) (by decide) rfl
  by_cases h2 : c = '\\'
  · subst h2
    exact .named '\\' rfl (by decide) (by decide) rfl
  by_cases h3 : c = '\x08'
  · subst h3
    exact .named 'b' rfl (by decide) (by decide) rfl
  by_cases h4 : c = '\x0c'
  · subst h4
    exact .named 'f' rfl (by decide) (by decide) rfl
  by_cases h5 : c = '\n'
  · subst h5
    exact .named 'n' rfl (by decide) (by decide) rfl
  by_cases h6 : c = '\r'
  · subst h6
    exact .named 'r' rfl (by decide) (by decide) rfl
  by_cases h7 : c = '\t'
  · subst h7
    exact .named 't' rfl (by decide) (by decide) rfl
  have hescape : escape c = if c.toNat < 32 then
      ['\\', 'u', '0', '0', hexDigit (c.toNat / 16), hexDigit (c.toNat % 16)] else [c] := by
    rw [escape, if_neg h1, if_neg h2, if_neg h3, if_neg h4, if_neg h5, if_neg h6, if_neg h7]
  by_cases hcontrol : c.toNat < 32
  · exact .numbered hcontrol (by rw [hescape, if_pos hcontrol])
  · exact .plain h1 h2 (by omega) (by rw [hescape, if_neg hcontrol])

/-! ## Cutting out -/

/-- What may stand between the quotes of a string: octets that need no escape and
escapes, by name or by number. -/
inductive Raw : Bytes → Prop
  | nil : Raw []
  | plain {b : UInt8} {raw : Bytes} (quote : b ≠ 34) (control : ¬b < 32) (backslash : b ≠ 92)
      (rest : Raw raw) : Raw (b :: raw)
  | named {e : UInt8} {raw : Bytes} (name : (named? (Char.ofNat e.toNat)).isSome = true)
      (rest : Raw raw) : Raw (92 :: e :: raw)
  | numbered {h1 h2 h3 h4 : UInt8} {raw : Bytes}
      (digits : ∀ h ∈ [h1, h2, h3, h4], isHexDigit h = true) (rest : Raw raw) :
      Raw (92 :: 117 :: h1 :: h2 :: h3 :: h4 :: raw)

/-- **A string is cut out whole**, up to the quote behind it. -/
theorem Raw.scan {raw : Bytes} (h : Raw raw) (rest : Bytes) :
    scan (raw ++ 34 :: rest) = some (raw, rest) := by
  induction h with
  | nil =>
      rw [List.nil_append, scan.eq_def]
      rfl
  | @plain b raw quote control backslash _ ih =>
      rw [List.cons_append, scan.eq_def]
      simp only [if_neg quote, if_neg control, if_neg backslash, ih, Option.map_some]
  | @named e raw name _ ih =>
      have hnumber : e ≠ 117 := by
        rintro rfl
        exact absurd name (by decide)
      rw [List.cons_append, List.cons_append, scan.eq_def]
      simp only [if_neg hnumber, name, ih, Option.map_some]
      rfl
  | @numbered h1 h2 h3 h4 raw digits _ ih =>
      have hdigits : (isHexDigit h1 && isHexDigit h2 && isHexDigit h3 && isHexDigit h4) = true := by
        simpa [and_assoc] using digits
      simp only [List.cons_append]
      rw [scan.eq_def]
      simp only [hdigits, ih, Option.map_some]
      rfl

/-- **Nothing but a string is cut out.** -/
theorem Raw.of_scan {s raw rest : Bytes} (h : Literal.scan s = some (raw, rest)) :
    Raw raw ∧ s = raw ++ 34 :: rest := by
  fun_induction Literal.scan s generalizing raw rest with
  | case1 => cases h
  | case2 tail =>
      cases h
      exact ⟨.nil, rfl⟩
  | case3 => cases h
  | case4 => cases h
  | case5 h1 h2 h3 h4 tail hdigits _ _ ih =>
      obtain ⟨⟨raw', rest'⟩, hscan, hsame⟩ := Option.map_eq_some_iff.1 h
      cases hsame
      obtain ⟨hraw, rfl⟩ := ih hscan
      have hall : ∀ d ∈ [h1, h2, h3, h4], isHexDigit d = true := by
        simpa [and_assoc] using hdigits
      exact ⟨.numbered hall hraw, rfl⟩
  | case6 => cases h
  | case7 => cases h
  | case8 e tail _ hname _ _ ih =>
      obtain ⟨⟨raw', rest'⟩, hscan, hsame⟩ := Option.map_eq_some_iff.1 h
      cases hsame
      obtain ⟨hraw, rfl⟩ := ih hscan
      exact ⟨.named hname hraw, rfl⟩
  | case9 => cases h
  | case10 b tail hquote hcontrol hbackslash ih =>
      obtain ⟨⟨raw', rest'⟩, hscan, hsame⟩ := Option.map_eq_some_iff.1 h
      cases hsame
      obtain ⟨hraw, rfl⟩ := ih hscan
      exact ⟨.plain hquote hcontrol hbackslash hraw, rfl⟩

/-- The octets stand for themselves in a string. -/
def Plain (s : Bytes) : Prop := ∀ b ∈ s, b ≠ 34 ∧ ¬b < 32 ∧ b ≠ 92

/-- Plain octets are cut out as they are. -/
theorem scan_plain {s : Bytes} (h : Plain s) (rest : Bytes) :
    scan (s ++ rest) = (scan rest).map fun p => (s ++ p.1, p.2) := by
  induction s with
  | nil => simp
  | cons b s ih =>
      obtain ⟨hquote, hcontrol, hbackslash⟩ := h b (by simp)
      have hs := ih fun c hc => h c (by simp [hc])
      rw [List.cons_append, scan.eq_def]
      simp only [if_neg hquote, if_neg hcontrol, if_neg hbackslash, hs, Option.map_map]
      rfl

/-- A character that needs no escape is written in octets that need none. -/
theorem plain_encodeChar {c : Char} (hquote : c ≠ '"') (hbackslash : c ≠ '\\')
    (hvisible : 32 ≤ c.toNat) : Plain (String.utf8EncodeChar c) := by
  intro b hb
  rcases Utf8.mem_encodeChar hb with ⟨hascii, rfl⟩ | hlarge
  · have hoctet : (UInt8.ofNat c.toNat).toNat = c.toNat := Utf8.toNat_ofNat_of_lt (by omega)
    have hne (d : Char) (hd : c ≠ d) (hd' : d.toNat < 0x80) :
        UInt8.ofNat c.toNat ≠ UInt8.ofNat d.toNat := by
      intro heq
      have hnat := congrArg UInt8.toNat heq
      rw [hoctet, Utf8.toNat_ofNat_of_lt (by omega)] at hnat
      exact hd (Char.toNat_inj.1 hnat)
    refine ⟨hne '"' hquote (by decide), ?_, hne '\\' hbackslash (by decide)⟩
    rw [Utf8.ofNat_lt_iff (by omega)]
    simpa using hvisible
  · have hnat : 0x80 ≤ b.toNat := UInt8.le_iff_toNat_le.1 hlarge
    refine ⟨?_, ?_, ?_⟩
    · intro hsame
      subst hsame
      exact absurd hnat (by decide)
    · intro hlt
      have hlt := UInt8.lt_iff_toNat_lt.1 hlt
      have h32 : (32 : UInt8).toNat = 32 := rfl
      omega
    · intro hsame
      subst hsame
      exact absurd hnat (by decide)

/-- The octet of a hexadecimal digit. -/
def hexOctet (n : Nat) : UInt8 := UInt8.ofNat (hexDigit n).toNat

/-- The octet of a digit is one. -/
theorem isHexDigit_hexOctet {n : Nat} (h : n < 16) : isHexDigit (hexOctet n) = true := by
  have hall : ∀ n : Fin 16, isHexDigit (hexOctet n) = true := by decide
  exact hall ⟨n, h⟩

/-- A digit is an ASCII character. -/
theorem hexDigit_ascii {n : Nat} (h : n < 16) : (hexDigit n).toNat < 0x80 := by
  have hall : ∀ n : Fin 16, (hexDigit n).toNat < 0x80 := by decide
  exact hall ⟨n, h⟩

/-- A digit has the value it was written for. -/
theorem hexValue?_hexDigit {n : Nat} (h : n < 16) : hexValue? (hexDigit n) = some n := by
  have hall : ∀ n : Fin 16, hexValue? (hexDigit n) = some n.val := by decide
  exact hall ⟨n, h⟩

/-- A written character is cut out as it was written. -/
theorem scan_escape (c : Char) (rest : Bytes) :
    scan (Utf8.encode (escape c) ++ rest)
      = (scan rest).map fun p => (Utf8.encode (escape c) ++ p.1, p.2) := by
  cases writing c with
  | named e name ascii unlike writing =>
      have hoctet : (UInt8.ofNat e.toNat).toNat = e.toNat := Utf8.toNat_ofNat_of_lt (by omega)
      have hu : UInt8.ofNat e.toNat ≠ 117 := by
        intro heq
        have hnat := congrArg UInt8.toNat heq
        rw [hoctet] at hnat
        exact unlike (Char.toNat_inj.1 hnat)
      have hnamed : (named? (Char.ofNat (UInt8.ofNat e.toNat).toNat)).isSome = true := by
        rw [hoctet, Char.ofNat_toNat, name]
        rfl
      have hencode : Utf8.encode (escape c) = [92, UInt8.ofNat e.toNat] := by
        rw [writing, Utf8.encode_ascii]
        · rfl
        · simp [ascii]
      rw [hencode, List.cons_append, List.cons_append, List.nil_append, scan.eq_def]
      simp only [if_neg hu, hnamed, if_true]
      rfl
  | numbered control writing =>
      have hhigh : c.toNat / 16 < 16 := by omega
      have hlow : c.toNat % 16 < 16 := Nat.mod_lt _ (by omega)
      have hencode : Utf8.encode (escape c)
          = [92, 117, 48, 48, hexOctet (c.toNat / 16), hexOctet (c.toNat % 16)] := by
        rw [writing, Utf8.encode_ascii]
        · rfl
        · simp [hexDigit_ascii hhigh, hexDigit_ascii hlow]
      have hdigits : (isHexDigit 48 && isHexDigit 48 && isHexDigit (hexOctet (c.toNat / 16))
          && isHexDigit (hexOctet (c.toNat % 16))) = true := by
        rw [isHexDigit_hexOctet hhigh, isHexDigit_hexOctet hlow]
        rfl
      rw [hencode]
      simp only [List.cons_append, List.nil_append]
      rw [scan.eq_def]
      simp only [hdigits, if_true]
      rfl
  | plain quote backslash visible writing =>
      have hencode : Utf8.encode (escape c) = String.utf8EncodeChar c := by
        rw [writing, Utf8.encode, List.flatMap_singleton]
      rw [hencode, scan_plain (plain_encodeChar quote backslash visible)]

/-- **Cutting out.**  A written text ends at the quote behind it. -/
theorem scan_encode (text : String) (rest : Bytes) :
    scan (encode text ++ 34 :: rest) = some (encode text, rest) := by
  rw [encode]
  induction text.toList with
  | nil =>
      rw [List.flatMap_nil]
      change scan (34 :: rest) = some ([], rest)
      rw [scan.eq_def]
      rfl
  | cons c chars ih =>
      have hcons : Utf8.encode ((c :: chars).flatMap escape)
          = Utf8.encode (escape c) ++ Utf8.encode (chars.flatMap escape) := by
        simp [Utf8.encode]
      rw [hcons, List.append_assoc, scan_escape, ih]
      rfl

/-- What is written for a text may stand between quotes. -/
theorem raw_encode (text : String) : Raw (encode text) := (Raw.of_scan (scan_encode text [])).1

/-! ## Reading -/

/-- The piece that a character is read as. -/
def piece (c : Char) : Piece :=
  if c.toNat < 32 ∧ (escape c).length = 6 then .unit c.toNat else .char c

/-- An escape is read as the piece it was written for. -/
theorem pieces?_escape (c : Char) (rest : List Char) :
    pieces? (escape c ++ rest) = (pieces? rest).map (piece c :: ·) := by
  cases writing c with
  | named e name ascii unlike writing =>
      have hpiece : piece c = .char c := by
        rw [piece, writing, if_neg (by simp)]
      rw [hpiece, writing, List.cons_append, List.cons_append, List.nil_append, pieces?.eq_def]
      simp only [if_neg unlike, name]
      rfl
  | numbered control writing =>
      have hhigh : c.toNat / 16 < 16 := by omega
      have hlow : c.toNat % 16 < 16 := Nat.mod_lt _ (by omega)
      have hpiece : piece c = .unit c.toNat := by
        rw [piece, writing, if_pos ⟨control, rfl⟩]
      have hzero : hexValue? '0' = some 0 := by decide
      have hunit : unit? '0' '0' (hexDigit (c.toNat / 16)) (hexDigit (c.toNat % 16))
          = some c.toNat := by
        simp only [unit?, hzero, hexValue?_hexDigit hhigh, hexValue?_hexDigit hlow,
          Option.bind_eq_bind, Option.bind_some, Option.pure_def, Option.some.injEq]
        omega
      rw [hpiece, writing]
      simp only [List.cons_append, List.nil_append]
      rw [pieces?.eq_def]
      simp only [hunit]
      rfl
  | plain quote backslash visible writing =>
      have hpiece : piece c = .char c := by
        rw [piece, if_neg (by omega)]
      rw [hpiece, writing, List.cons_append, List.nil_append, pieces?.eq_def]
      simp only [if_neg backslash]

/-- Escaped characters are read as their pieces. -/
theorem pieces?_flatMap (chars : List Char) :
    pieces? (chars.flatMap escape) = some (chars.map piece) := by
  induction chars with
  | nil => rfl
  | cons c chars ih =>
      rw [List.flatMap_cons, pieces?_escape, ih]
      rfl

/-- The pieces of characters make the characters. -/
theorem join?_piece (chars : List Char) : join? (chars.map piece) = some chars := by
  induction chars with
  | nil => rfl
  | cons c chars ih =>
      rw [List.map_cons, piece]
      by_cases hnumbered : c.toNat < 32 ∧ (escape c).length = 6
      · have hrange : c.toNat < 0xD800 ∨ 0xDFFF < c.toNat := by omega
        rw [if_pos hnumbered, join?.eq_def]
        simp only [if_pos hrange, ih, Char.ofNat_toNat]
        rfl
      · rw [if_neg hnumbered, join?, ih]
        rfl

/-- **Reading back.**  What is written for a text spells it. -/
theorem decode?_encode (text : String) : decode? (encode text) = some text := by
  simp only [decode?, encode, Utf8.decode_encode, Option.bind_eq_bind, Option.bind_some,
    pieces?_flatMap, join?_piece, Option.pure_def, String.ofList_toList]

end KeyExchange.Json.Literal
