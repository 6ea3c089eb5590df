import KeyExchange.KeyId
import KeyExchange.Proofs.Text.Hex

/-!
# Reading back the text of an id

The digits of an id contain no hyphen, so the hyphens of its text cut it into
the five groups it was written in.

* `pieces_append_hyphen`, `intercalate_pieces`: how hyphens cut a text;
* `parse_toText`: an id comes back from its text;
* `map_length_pieces_eq_five_iff`, `parse_eq_ok_iff_placed`: the lengths of the groups say
  no more than that hyphens stand at 8, 13, 18 and 23 in a text of 36 octets, or nowhere;
* `pieces_form_iff`, `parse_eq_ok_iff`: the texts that are read are the digits of an id with
  its hyphens or without, in either letter case;
* `parse_exact`: so are both printed forms, and every other text is refused.
-/

namespace KeyExchange.KeyId

open Text Outcome

/-- A text without hyphens is one piece. -/
theorem pieces_of_no_hyphen {s : Bytes} (h : 0x2d ∉ s) : pieces s = [s] := by
  induction s with
  | nil => rfl
  | cons b rest ih =>
      have hb : b ≠ 0x2d := fun heq => h (by simp [heq])
      rw [pieces, if_neg hb, ih fun hrest => h (List.mem_cons_of_mem _ hrest)]

/-- A hyphen ends the piece before it. -/
theorem pieces_append_hyphen {s : Bytes} (h : 0x2d ∉ s) (rest : Bytes) :
    pieces (s ++ 0x2d :: rest) = s :: pieces rest := by
  induction s with
  | nil => rw [List.nil_append, pieces, if_pos rfl]
  | cons b s ih =>
      have hb : b ≠ 0x2d := fun heq => h (by simp [heq])
      rw [List.cons_append, pieces, if_neg hb, ih fun hs => h (List.mem_cons_of_mem _ hs)]

/-- No digit is a hyphen. -/
theorem hyphen_not_mem_digits (s : Bytes) : 0x2d ∉ Hex.digitOctets s := by
  intro hmem
  obtain ⟨b, -, hb⟩ := List.mem_flatMap.1 hmem
  simp only [List.mem_cons, List.not_mem_nil, or_false] at hb
  rcases hb with hb | hb
  · exact Hex.digitOctet_ne_hyphen (Hex.high_lt b) hb.symm
  · exact Hex.digitOctet_ne_hyphen (Hex.low_lt b) hb.symm

/-- The groups of an id's digits. -/
def groups (digits : Bytes) : List Bytes :=
  [digits.take 8, (digits.drop 8).take 4, (digits.drop 12).take 4, (digits.drop 16).take 4,
    digits.drop 20]

/-- The groups together are the digits. -/
theorem flatten_groups (digits : Bytes) : (groups digits).flatten = digits := by
  have h20 : (digits.drop 16).take 4 ++ digits.drop 20 = digits.drop 16 := by
    rw [← List.drop_drop (i := 4) (j := 16), List.take_append_drop]
  have h16 : (digits.drop 12).take 4 ++ digits.drop 16 = digits.drop 12 := by
    rw [← List.drop_drop (i := 4) (j := 12), List.take_append_drop]
  have h12 : (digits.drop 8).take 4 ++ digits.drop 12 = digits.drop 8 := by
    rw [← List.drop_drop (i := 4) (j := 8), List.take_append_drop]
  simp only [groups, List.flatten_cons, List.flatten_nil, List.append_nil]
  rw [h20, h16, h12, List.take_append_drop]

/-- The groups of some digits, with hyphens between. -/
def hyphenate (digits : Bytes) : Bytes := [0x2d].intercalate (groups digits)

/-- Digits with hyphens between their groups, written out. -/
theorem hyphenate_eq (digits : Bytes) :
    hyphenate digits = digits.take 8 ++ 0x2d :: ((digits.drop 8).take 4 ++ 0x2d ::
      ((digits.drop 12).take 4 ++ 0x2d ::
        ((digits.drop 16).take 4 ++ 0x2d :: digits.drop 20))) := by
  simp [hyphenate, groups, List.intercalate]

/-- The lengths of the groups of 32 digits. -/
theorem length_groups {digits : Bytes} (h : digits.length = 32) :
    (groups digits).map List.length = [8, 4, 4, 4, 12] := by
  simp [groups, h]

/-- Digits with hyphens between their groups are cut into the groups. -/
theorem pieces_hyphenate {digits : Bytes} (h : 0x2d ∉ digits) :
    pieces (hyphenate digits) = groups digits := by
  have hno : ∀ n m, 0x2d ∉ (digits.drop n).take m := fun n m hmem =>
    h (List.mem_of_mem_drop (List.mem_of_mem_take hmem))
  have hfirst : 0x2d ∉ digits.take 8 := hno 0 8
  have hlast : 0x2d ∉ digits.drop 20 := fun hmem => h (List.mem_of_mem_drop hmem)
  rw [hyphenate_eq, pieces_append_hyphen hfirst, pieces_append_hyphen (hno 8 4),
    pieces_append_hyphen (hno 12 4), pieces_append_hyphen (hno 16 4), pieces_of_no_hyphen hlast,
    groups]

/-- The characters of an id are ASCII characters. -/
theorem hyphenated_ascii {id : KeyId} {c : Char} (h : c ∈ id.hyphenated) : c.toNat < 0x80 := by
  have hdigit : ∀ {c}, c ∈ Hex.encodeChars id.octets.toList → c.toNat < 0x80 :=
    Hex.encodeChars_ascii
  simp only [hyphenated, List.cons_append, List.append_assoc, List.mem_append,
    List.mem_cons] at h
  rcases h with h | rfl | h | rfl | h | rfl | h | rfl | h
  · exact hdigit (List.mem_of_mem_take h)
  · decide
  · exact hdigit (List.mem_of_mem_drop (List.mem_of_mem_take h))
  · decide
  · exact hdigit (List.mem_of_mem_drop (List.mem_of_mem_take h))
  · decide
  · exact hdigit (List.mem_of_mem_drop (List.mem_of_mem_take h))
  · decide
  · exact hdigit (List.mem_of_mem_drop h)

/-- The octets of an id's characters: its groups of digits with hyphens between. -/
theorem map_hyphenated (id : KeyId) :
    id.hyphenated.map (fun c => UInt8.ofNat c.toNat)
      = hyphenate (Hex.digitOctets id.octets.toList) := by
  rw [hyphenate_eq, hyphenated]
  simp only [List.map_append, List.map_cons, List.map_take, List.map_drop, Hex.map_encodeChars,
    List.cons_append, List.append_assoc]
  rfl

/-- The octets of a printed id. -/
theorem ofString_toText (id : KeyId) :
    Utf8.ofString id.toText = hyphenate (Hex.digitOctets id.octets.toList) := by
  rw [Utf8.ofString, toText, String.toList_ofList, Utf8.encode_ascii fun _ => hyphenated_ascii,
    map_hyphenated]

/-- An id has 32 digits. -/
theorem length_digits (id : KeyId) : (Hex.digitOctets id.octets.toList).length = 32 := by
  rw [Hex.length_digitOctets, id.octets.length_toList]

/-- An id is read from a text with pieces of the right lengths that together are digits of
its octets. -/
theorem parse_eq_ok_iff_decode {text : String} {id : KeyId} :
    parse text = .ok id ↔
      ((pieces (Utf8.ofString text)).map List.length = [32] ∨
        (pieces (Utf8.ofString text)).map List.length = [8, 4, 4, 4, 12]) ∧
      Hex.decodeOctets (pieces (Utf8.ofString text)).flatten = .ok id.octets.toList := by
  let ps := pieces (Utf8.ofString text)
  have hread : parse? text = some id ↔
      (ps.map List.length = [32] ∨ ps.map List.length = [8, 4, 4, 4, 12]) ∧
        Hex.decodeOctets ps.flatten = .ok id.octets.toList := by
    unfold parse?
    change (guard (ps.map List.length = [32] ∨ ps.map List.length = [8, 4, 4, 4, 12]) >>= _) = _ ↔ _
    by_cases hform : ps.map List.length = [32] ∨ ps.map List.length = [8, 4, 4, 4, 12]
    · rw [guard_of_true hform, and_iff_right hform]
      cases Hex.decodeOctets ps.flatten with
      | error reason => simp [Except.toOption]
      | ok octets =>
          change ((Octets.ofList? 16 octets).bind fun fixed => some ⟨fixed⟩) = some id ↔ _
          rw [Except.ok.injEq, eq_comm (a := octets), ← Octets.ofList?_eq_some_iff]
          obtain ⟨idOctets⟩ := id
          cases Octets.ofList? 16 octets with
          | none => simp
          | some fixed => simp
    · rw [guard, if_neg hform]
      exact iff_of_false (Option.some_ne_none id).symm fun h => hform h.1
  rw [← hread, parse]
  cases parse? text with
  | none => simp
  | some id' => simp

/-- **Reading back.**  An id comes back from its text. -/
theorem parse_toText (id : KeyId) : parse id.toText = .ok id := by
  rw [parse_eq_ok_iff_decode, ofString_toText, pieces_hyphenate (hyphen_not_mem_digits _),
    flatten_groups]
  exact ⟨.inr (length_groups id.length_digits), Hex.decodeOctets_digitOctets _⟩

/-! ## Which texts are read -/

/-- Every text has a piece. -/
theorem pieces_ne_nil (s : Bytes) : pieces s ≠ [] := by
  cases s with
  | nil => exact List.cons_ne_nil _ _
  | cons b rest =>
      rw [pieces]
      by_cases hb : b = 0x2d
      · rw [if_pos hb]
        exact List.cons_ne_nil _ _
      · rw [if_neg hb]
        cases pieces rest with
        | nil => exact List.cons_ne_nil _ _
        | cons piece others => exact List.cons_ne_nil _ _

/-- The pieces with hyphens between are the text. -/
theorem intercalate_pieces (s : Bytes) : [0x2d].intercalate (pieces s) = s := by
  induction s with
  | nil => rfl
  | cons b rest ih =>
      obtain ⟨piece, others, hpieces⟩ := List.exists_cons_of_ne_nil (pieces_ne_nil rest)
      rw [hpieces] at ih
      rw [pieces, hpieces]
      by_cases hb : b = 0x2d
      · rw [if_pos hb, List.intercalate_cons_cons, ih, hb]
        rfl
      · rw [if_neg hb]
        cases others with
        | nil =>
            rw [List.intercalate_singleton] at ih ⊢
            rw [ih]
        | cons second others =>
            rw [List.intercalate_cons_cons] at ih ⊢
            rw [← ih]
            rfl

/-- Whether letters are small does not count where a text is cut. -/
theorem pieces_map_lowerOctet (s : Bytes) :
    pieces (s.map Hex.lowerOctet) = (pieces s).map (List.map Hex.lowerOctet) := by
  have hhyphen : ∀ b, Hex.lowerOctet b = 0x2d ↔ b = 0x2d := by
    intro b
    have hall : ∀ i : Fin 256, Hex.lowerOctet (UInt8.ofFin i) = 0x2d ↔ UInt8.ofFin i = 0x2d := by
      decide +kernel
    have hb := hall b.toFin
    rwa [UInt8.ofFin_toFin] at hb
  induction s with
  | nil => rfl
  | cons b rest ih =>
      obtain ⟨piece, others, hpieces⟩ := List.exists_cons_of_ne_nil (pieces_ne_nil rest)
      rw [hpieces] at ih
      rw [List.map_cons, pieces, pieces, ih, hpieces]
      by_cases hb : b = 0x2d
      · rw [if_pos hb, if_pos ((hhyphen b).2 hb)]
        rfl
      · rw [if_neg hb, if_neg (mt (hhyphen b).1 hb)]
        rfl

/-- Pieces of the lengths of the groups are the groups of what they make together. -/
theorem groups_flatten {ps : List Bytes} (h : ps.map List.length = [8, 4, 4, 4, 12]) :
    groups ps.flatten = ps := by
  obtain ⟨a, ps, rfl, ha, h⟩ := List.map_eq_cons_iff.1 h
  obtain ⟨b, ps, rfl, hb, h⟩ := List.map_eq_cons_iff.1 h
  obtain ⟨c, ps, rfl, hc, h⟩ := List.map_eq_cons_iff.1 h
  obtain ⟨d, ps, rfl, hd, h⟩ := List.map_eq_cons_iff.1 h
  obtain ⟨e, ps, rfl, he, h⟩ := List.map_eq_cons_iff.1 h
  cases List.map_eq_nil_iff.1 h
  simp [groups, List.drop_append, List.drop_eq_nil_of_le, ha, hb, hc, hd]

/-- **The two forms.**  A text has one piece of 32 octets or pieces of the lengths of the
groups, and makes the digits without hyphens, exactly when it is the digits or the digits
with hyphens between their groups. -/
theorem pieces_form_iff {s digits : Bytes} (hno : 0x2d ∉ digits) (hlength : digits.length = 32) :
    ((pieces s).map List.length = [32] ∨ (pieces s).map List.length = [8, 4, 4, 4, 12]) ∧
        (pieces s).flatten = digits ↔
      s = digits ∨ s = hyphenate digits := by
  have hback := intercalate_pieces s
  constructor
  · rintro ⟨hone | hfive, hflat⟩
    · obtain ⟨piece, ps, hpieces, -, h⟩ := List.map_eq_cons_iff.1 hone
      cases List.map_eq_nil_iff.1 h
      rw [hpieces, List.intercalate_singleton] at hback
      rw [hpieces, List.flatten_singleton] at hflat
      exact .inl (hback.symm.trans hflat)
    · right
      rw [hyphenate, ← hflat, groups_flatten hfive, hback]
  · rintro (rfl | rfl)
    · rw [pieces_of_no_hyphen hno]
      simp [hlength]
    · rw [pieces_hyphenate hno, length_groups hlength, flatten_groups]
      exact ⟨.inr rfl, rfl⟩

/-- An id is read from a text with pieces of the right lengths that in small are its
digits. -/
theorem parse_eq_ok_iff_pieces {text : String} {id : KeyId} :
    parse text = .ok id ↔
      ((pieces (Utf8.ofString text)).map List.length = [32] ∨
        (pieces (Utf8.ofString text)).map List.length = [8, 4, 4, 4, 12]) ∧
      (pieces (Utf8.ofString text)).flatten.map Hex.lowerOctet
        = Hex.digitOctets id.octets.toList := by
  rw [parse_eq_ok_iff_decode, Hex.decodeOctets_eq_ok_iff]

/-! ## Where the hyphens stand -/

/-- The pieces together are the text without its hyphens. -/
theorem flatten_pieces (s : Bytes) : (pieces s).flatten = s.filter (· ≠ 0x2d) := by
  induction s with
  | nil => rfl
  | cons b rest ih =>
      obtain ⟨piece, others, hpieces⟩ := List.exists_cons_of_ne_nil (pieces_ne_nil rest)
      rw [hpieces, List.flatten_cons] at ih
      rw [pieces, hpieces]
      by_cases hb : b = 0x2d
      · rw [if_pos hb, List.filter_cons_of_neg (by simp [hb]), ← ih]
        rfl
      · rw [if_neg hb, List.filter_cons_of_pos (by simp [hb]), ← ih]
        rfl

/-- A text that is not empty has a second piece, or a first one that is not empty. -/
theorem map_length_pieces_cons_ne (b : UInt8) (rest : Bytes) :
    (pieces (b :: rest)).map List.length ≠ [0] := by
  obtain ⟨piece, others, hpieces⟩ := List.exists_cons_of_ne_nil (pieces_ne_nil rest)
  rw [pieces, hpieces]
  by_cases hb : b = 0x2d <;> simp [hb]

/-- The lengths of the pieces tell which octets of a text are hyphens, and nothing else. -/
theorem map_length_pieces_eq_iff {s t : Bytes} :
    (pieces s).map List.length = (pieces t).map List.length ↔
      s.map (· == 0x2d) = t.map (· == 0x2d) := by
  induction s generalizing t with
  | nil =>
      cases t with
      | nil => exact iff_of_true rfl rfl
      | cons c t => exact iff_of_false (map_length_pieces_cons_ne c t).symm (by simp)
  | cons b s ih =>
      cases t with
      | nil => exact iff_of_false (map_length_pieces_cons_ne b s) (by simp)
      | cons c t =>
          obtain ⟨piece, others, hs⟩ := List.exists_cons_of_ne_nil (pieces_ne_nil s)
          obtain ⟨piece', others', ht⟩ := List.exists_cons_of_ne_nil (pieces_ne_nil t)
          rw [List.map_cons, List.map_cons, List.cons.injEq, ← ih, pieces, pieces, hs, ht]
          by_cases hb : b = 0x2d <;> by_cases hc : c = 0x2d <;> simp [hb, hc]

/-- The hyphens of a text stand where a printed id has its hyphens, and nowhere else. -/
def HyphensPlaced (s : Bytes) : Prop :=
  s.length = 36 ∧ ∀ (i : Nat) (h : i < s.length), s[i] = 0x2d ↔ i ∈ [8, 13, 18, 23]

/-- A text is one piece of 32 octets when it has 32 octets and no hyphen. -/
theorem map_length_pieces_eq_one_iff {s : Bytes} :
    (pieces s).map List.length = [32] ↔ 0x2d ∉ s ∧ s.length = 32 := by
  constructor
  · intro h
    have hpattern : s.map (· == 0x2d) = (List.replicate 32 (0 : UInt8)).map (· == 0x2d) :=
      map_length_pieces_eq_iff.1 h
    rw [List.map_replicate, List.eq_replicate_iff, List.length_map] at hpattern
    refine ⟨fun hmem => ?_, hpattern.1⟩
    have hfalse := hpattern.2 _ (List.mem_map_of_mem hmem)
    simp at hfalse
  · intro h
    obtain ⟨hno, hlength⟩ := h
    rw [pieces_of_no_hyphen hno, List.map_singleton, hlength]

/-- A text has pieces of the lengths of the groups when its hyphens are placed as those of
an id. -/
theorem map_length_pieces_eq_five_iff {s : Bytes} :
    (pieces s).map List.length = [8, 4, 4, 4, 12] ↔ HyphensPlaced s := by
  -- One text with hyphens at these places is enough: the lengths depend on the places alone.
  have hlengths : (pieces (hyphenate (List.replicate 32 0))).map List.length = [8, 4, 4, 4, 12] :=
    by rw [pieces_hyphenate (by simp), length_groups List.length_replicate]
  have hplaces : (hyphenate (List.replicate 32 0)).map (· == 0x2d)
      = (List.range 36).map fun i => decide (i ∈ [8, 13, 18, 23]) := rfl
  rw [← hlengths, map_length_pieces_eq_iff, hplaces, List.ext_getElem_iff]
  simp only [HyphensPlaced, List.length_map, List.length_range, List.getElem_map,
    List.getElem_range]
  refine and_congr_right fun hlength => forall₂_congr fun i h => ?_
  rw [forall_prop_of_true (hlength ▸ h), Bool.eq_iff_iff, beq_iff_eq, decide_eq_true_iff]

/-- **The test on hyphens.**  An id is read from a text that has no hyphen, or 36 octets with
hyphens exactly where an id has them, and that without its hyphens is the id in hexadecimal. -/
theorem parse_eq_ok_iff_placed {text : String} {id : KeyId} :
    parse text = .ok id ↔
      (0x2d ∉ Utf8.ofString text ∨ HyphensPlaced (Utf8.ofString text)) ∧
      Hex.decodeOctets ((Utf8.ofString text).filter (· ≠ 0x2d)) = .ok id.octets.toList := by
  rw [parse_eq_ok_iff_decode, flatten_pieces, map_length_pieces_eq_one_iff,
    map_length_pieces_eq_five_iff]
  refine and_congr_left fun hdecode => or_congr_left ⟨fun h => h.1, fun hno => ⟨hno, ?_⟩⟩
  have hdigits := congrArg List.length (Hex.decodeOctets_eq_ok_iff.1 hdecode)
  have hall : (Utf8.ofString text).filter (· ≠ 0x2d) = Utf8.ofString text :=
    List.filter_eq_self.2 fun b hb => by simpa using ne_of_mem_of_not_mem hb hno
  rwa [hall, List.length_map, id.length_digits] at hdigits

/-! ## The two forms in either letter case -/

/-- The text is the digits of the id, with hyphens between the groups or without, in
either letter case. -/
def IsSpelling (text : String) (id : KeyId) : Prop :=
  text.toList.map Char.toLower = Hex.encodeChars id.octets.toList ∨
    text.toList.map Char.toLower = id.hyphenated

instance (text : String) (id : KeyId) : Decidable (IsSpelling text id) :=
  inferInstanceAs (Decidable (_ ∨ _))

/-- **Which texts are read**, and as what. -/
theorem parse_eq_ok_iff {text : String} {id : KeyId} :
    parse text = .ok id ↔ IsSpelling text id := by
  have hlower := pieces_map_lowerOctet (Utf8.ofString text)
  have hform := @pieces_form_iff ((Utf8.ofString text).map Hex.lowerOctet) _
    (hyphen_not_mem_digits _) id.length_digits
  have hlengths : List.length ∘ List.map Hex.lowerOctet = List.length :=
    funext fun _ => List.length_map _
  rw [hlower, List.map_map, hlengths, ← List.map_flatten] at hform
  rw [parse_eq_ok_iff_pieces, IsSpelling,
    ← Hex.map_lowerOctet_eq_iff fun _ => Hex.encodeChars_ascii,
    ← Hex.map_lowerOctet_eq_iff fun _ => hyphenated_ascii, map_hyphenated, Hex.map_encodeChars]
  exact hform

/-- A text spells one id. -/
theorem IsSpelling.unique {text : String} {id id' : KeyId} (h : IsSpelling text id)
    (h' : IsSpelling text id') : id = id' :=
  Except.ok.inj ((parse_eq_ok_iff.2 h).symm.trans (parse_eq_ok_iff.2 h'))

/-- A text spells an id when its small letters are one of the printed forms. -/
theorem isSpelling_iff {text : String} {id : KeyId} :
    IsSpelling text id ↔ text.toLower = id.toHex ∨ text.toLower = id.toText := by
  have hlower : text.toLower.toList = text.toList.map Char.toLower := String.toList_map
  rw [IsSpelling, ← String.toList_inj, ← String.toList_inj, hlower, toHex, toText, Hex.encode,
    String.toList_ofList, String.toList_ofList]

/-- An id comes back from its digits without hyphens. -/
theorem parse_toHex (id : KeyId) : parse id.toHex = .ok id :=
  parse_eq_ok_iff.2 (.inl (Hex.decode_eq_ok_iff.1 (Hex.decode_encode id.octets.toList)))

/-- A text that is not read is named in the fault. -/
theorem parse_eq_error_iff {text : String} :
    parse text = .error (.invalidKeyId text) ↔ ∀ id, ¬IsSpelling text id := by
  constructor
  · intro h id hid
    rw [parse_eq_ok_iff.2 hid] at h
    cases h
  · intro h
    rcases hread : parse? text with _ | id
    · rw [parse, hread]
    · have hok : parse text = .ok id := by rw [parse, hread]
      exact absurd (parse_eq_ok_iff.1 hok) (h id)

/-- **The texts of ids.**  A text is read as an id exactly when its letters made small are
the digits of this id, either all in one or with hyphens between the groups; every other
text is refused, and named as it stands.  Both printed forms of every id are read back,
and no text is a form of two ids. -/
theorem parse_exact (text : String) :
    (∀ id, parse text = .ok id ↔ text.toLower = id.toHex ∨ text.toLower = id.toText) ∧
    (parse text = .error (.invalidKeyId text) ↔
      ∀ id : KeyId, text.toLower ≠ id.toHex ∧ text.toLower ≠ id.toText) ∧
    (∀ id, parse id.toHex = .ok id ∧ parse id.toText = .ok id) ∧
    ∀ id id' : KeyId, (text.toLower = id.toHex ∨ text.toLower = id.toText) →
      (text.toLower = id'.toHex ∨ text.toLower = id'.toText) → id = id' := by
  refine ⟨fun id => parse_eq_ok_iff.trans isSpelling_iff, ?_, ?_, ?_⟩
  · simp only [parse_eq_error_iff, isSpelling_iff, not_or]
  · exact fun id => ⟨parse_toHex id, parse_toText id⟩
  · exact fun id id' h h' => (isSpelling_iff.2 h).unique (isSpelling_iff.2 h')

/-- The id with sixteen different octets. -/
def countingId : KeyId :=
  ⟨⟨[0x0d, 0x1a, 0x2b, 0x3c, 0x4d, 0x5e, 0x6f, 0x70, 0x81, 0x92, 0xa3, 0xb4, 0xc5, 0xd6, 0xe7,
    0xf8], rfl⟩⟩

/-- Capital letters are read, as letters of this id and of no other.  A hyphen behind the
ninth digit is not, although the text would be an id without its hyphens. -/
theorem parse_exact_countingId :
    (parse "0D1A2b3c-4d5e-6F70-8192-A3b4c5d6e7f8" = .ok countingId ∧
      ∀ id : KeyId, "0D1A2b3c-4d5e-6F70-8192-A3b4c5d6e7f8".toLower = id.toText →
        countingId = id) ∧
    ∀ id : KeyId, "0d1a2b3c4-d5e-6f70-8192-a3b4c5d6e7f8".toLower ≠ id.toHex ∧
      "0d1a2b3c4-d5e-6f70-8192-a3b4c5d6e7f8".toLower ≠ id.toText := by
  have hparse : parse "0D1A2b3c-4d5e-6F70-8192-A3b4c5d6e7f8" = .ok countingId := by rfl
  have hrefused : parse "0d1a2b3c4-d5e-6f70-8192-a3b4c5d6e7f8"
      = .error (.invalidKeyId "0d1a2b3c4-d5e-6f70-8192-a3b4c5d6e7f8") := by rfl
  obtain ⟨hread, -, -, hunique⟩ := parse_exact "0D1A2b3c-4d5e-6F70-8192-A3b4c5d6e7f8"
  obtain ⟨-, hothers, -⟩ := parse_exact "0d1a2b3c4-d5e-6f70-8192-a3b4c5d6e7f8"
  have hspelled := (hread countingId).1 hparse
  exact ⟨⟨hparse, fun id hid => hunique countingId id hspelled (.inr hid)⟩, hothers.1 hrefused⟩

end KeyExchange.KeyId
