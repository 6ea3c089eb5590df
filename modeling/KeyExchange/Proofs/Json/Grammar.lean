import KeyExchange.Proofs.Json.Literal
import KeyExchange.Proofs.Json.Number
import KeyExchange.Proofs.Json.Reader

/-!
# The texts of a tree

A text spells a tree when it consists of the tokens of that tree in their order,
each spelled in one of its ways, with any blanks around them.  A text is read as a
tree, with nothing missing and nothing behind it, exactly when it spells that tree.

* `Token.Lexeme`, `Lexes`: how tokens and lists of tokens are spelled;
* `Spells`: how a tree is;
* `Lexes.cuts`: a text that spells some tokens is cut into them;
* `lexes_of_cut`: a text spells what it is cut into;
* `readText_eq_iff`: reading is the inverse of spelling.
-/

namespace KeyExchange.Json

/-! ## Spellings of tokens -/

/-- The tokens of one octet. -/
def marks : List (UInt8 × Token) :=
  [(91, .arrayStart), (93, .arrayEnd), (123, .objectStart), (125, .objectEnd), (44, .comma),
   (58, .colon)]

/-- The tokens that are words. -/
def words : List (Bytes × Token) :=
  [([110, 117, 108, 108], .null), ([116, 114, 117, 101], .bool true),
   ([102, 97, 108, 115, 101], .bool false)]

/-- How a token is spelled. -/
inductive Token.Lexeme : Token → Bytes → Prop
  | mark {b : UInt8} {t : Token} (h : (b, t) ∈ marks) : Lexeme t [b]
  | word {w : Bytes} {t : Token} (h : (w, t) ∈ words) : Lexeme t w
  | string {raw : Bytes} (h : Literal.Raw raw) : Lexeme (.string raw) (34 :: (raw ++ [34]))
  | number {x : Number} {w : Bytes} (h : x.Spelled w) : Lexeme (.number x) w

/-- The text spells these tokens, with blanks before, between and behind them.  A
number ends where no number goes on. -/
inductive Lexes : List Token → Bytes → Prop
  | nil {blanks : Bytes} (hblanks : ∀ b ∈ blanks, Token.isBlank b = true) : Lexes [] blanks
  | cons {blanks w s : Bytes} {t : Token} {ts : List Token}
      (hblanks : ∀ b ∈ blanks, Token.isBlank b = true) (hw : t.Lexeme w)
      (hends : ∀ x, t = .number x → Number.Ends s) (hs : Lexes ts s) :
      Lexes (t :: ts) (blanks ++ (w ++ s))

/-- **The text spells the tree.** -/
def Spells (s : Bytes) (v : Json) : Prop := Lexes v.tokens s

/-- No token is spelled by nothing. -/
theorem Token.Lexeme.ne_nil {t : Token} {w : Bytes} (h : t.Lexeme w) : w ≠ [] := by
  cases h with
  | mark => exact List.cons_ne_nil _ _
  | word h =>
      rintro rfl
      simp [words] at h
  | string => exact List.cons_ne_nil _ _
  | number h =>
      obtain @⟨negative, whole, fraction, after, exponent, behind, hwhole, -, -, -⟩ := h
      simp [hwhole.1]

/-- A place where no token can be cut is not spelled. -/
theorem Lexes.bad_not_mem {ts : List Token} {s : Bytes} (h : Lexes ts s) : .bad ∉ ts := by
  induction h with
  | nil => exact List.not_mem_nil
  | cons _ hw _ _ ih =>
      intro hbad
      rcases List.mem_cons.1 hbad with rfl | hbad
      · cases hw with
        | mark h => simp [marks] at h
        | word h => simp [words] at h
      · exact ih hbad

/-! ## Cutting -/

/-- The text is cut into these tokens, however much fuel there is. -/
def Cuts (s : Bytes) (ts : List Token) : Prop := ∀ fuel, s.length ≤ fuel → Token.cut fuel s = ts

/-- No text, no token. -/
theorem cuts_nil : Cuts [] [] := by
  intro fuel _
  cases fuel <;> rfl

/-- A blank in front is passed over. -/
theorem Cuts.blank {b : UInt8} {s : Bytes} {ts : List Token} (hb : Token.isBlank b = true)
    (h : Cuts s ts) : Cuts (b :: s) ts := by
  intro fuel hfuel
  rw [List.length_cons] at hfuel
  cases fuel with
  | zero => omega
  | succ fuel =>
      rw [← h (fuel + 1) (by omega), Token.cut, Token.cut, List.dropWhile_cons_of_pos hb]

/-- Any blanks in front are passed over. -/
theorem Cuts.blanks {blanks s : Bytes} {ts : List Token}
    (hblanks : ∀ b ∈ blanks, Token.isBlank b = true) (h : Cuts s ts) : Cuts (blanks ++ s) ts := by
  induction blanks with
  | nil => exact h
  | cons b blanks ih =>
      exact (ih fun c hc => hblanks c (by simp [hc])).blank (hblanks b (by simp))

/-- A token in front. -/
theorem Cuts.token {b : UInt8} {s rest : Bytes} {t : Token} {ts : List Token}
    (hb : Token.isBlank b = false) (hnext : Token.next? b s = some (t, rest))
    (hlength : rest.length ≤ s.length) (h : Cuts rest ts) : Cuts (b :: s) (t :: ts) := by
  intro fuel hfuel
  rw [List.length_cons] at hfuel
  cases fuel with
  | zero => omega
  | succ fuel =>
      have hb' : ¬Token.isBlank b = true := by simp [hb]
      rw [Token.cut, List.dropWhile_cons_of_neg hb']
      simp only [hnext, h fuel (by omega)]

/-- A mark is cut off, whatever follows it. -/
theorem Token.Lexeme.mark_next? {b : UInt8} {t : Token} (h : (b, t) ∈ marks) (rest : Bytes) :
    Token.isBlank b = false ∧ Token.next? b rest = some (t, rest) := by
  simp only [marks, List.mem_cons, Prod.mk.injEq, List.not_mem_nil, or_false] at h
  rcases h with ⟨rfl, rfl⟩ | ⟨rfl, rfl⟩ | ⟨rfl, rfl⟩ | ⟨rfl, rfl⟩ | ⟨rfl, rfl⟩ | ⟨rfl, rfl⟩
  all_goals exact ⟨rfl, rfl⟩

/-- A word is cut off, whatever follows it. -/
theorem Token.Lexeme.word_next? {w : Bytes} {t : Token} (h : (w, t) ∈ words) (rest : Bytes) :
    ∃ b tail, w = b :: tail ∧ Token.isBlank b = false ∧
      Token.next? b (tail ++ rest) = some (t, rest) := by
  simp only [words, List.mem_cons, Prod.mk.injEq, List.not_mem_nil, or_false] at h
  rcases h with ⟨rfl, rfl⟩ | ⟨rfl, rfl⟩ | ⟨rfl, rfl⟩
  all_goals exact ⟨_, _, rfl, rfl, rfl⟩

/-- A digit starts a number. -/
theorem next?_digit {b : UInt8} (hb : Number.isDigit b = true) (s : Bytes) :
    Token.isBlank b = false ∧
      Token.next? b s = (Number.scan (b :: s)).map fun p => (.number p.1, p.2) := by
  have hne (c : UInt8) (hc : Number.isDigit c = false) : b ≠ c := by
    intro hsame
    subst hsame
    exact absurd hb (by simp [hc])
  constructor
  · simp [Token.isBlank, hne 32 rfl, hne 9 rfl, hne 10 rfl, hne 13 rfl]
  · simp only [Token.next?, if_neg (hne 91 rfl), if_neg (hne 93 rfl), if_neg (hne 123 rfl),
      if_neg (hne 125 rfl), if_neg (hne 44 rfl), if_neg (hne 58 rfl), if_neg (hne 34 rfl),
      if_neg (hne 110 rfl), if_neg (hne 116 rfl), if_neg (hne 102 rfl), hb, or_true, if_true]

/-- A number starts with a digit or with its sign. -/
theorem next?_of_spelled {x : Number} {w : Bytes} (h : x.Spelled w) (rest : Bytes) :
    ∃ b tail, w = b :: tail ∧ Token.isBlank b = false ∧
      Token.next? b (tail ++ rest)
        = (Number.scan (w ++ rest)).map fun p => (.number p.1, p.2) := by
  obtain @⟨negative, whole, fraction, after, exponent, behind, hwhole, -, -, -⟩ := h
  cases negative with
  | true => exact ⟨45, _, rfl, rfl, rfl⟩
  | false =>
      obtain ⟨hne, hall⟩ := hwhole
      obtain ⟨b, digits, rfl⟩ := List.exists_cons_of_ne_nil hne
      obtain ⟨hblank, hnext⟩ :=
        next?_digit (hall b List.mem_cons_self) (digits ++ (after ++ behind) ++ rest)
      exact ⟨b, _, rfl, hblank, hnext⟩

/-- A token is cut off the text that it stands in front of. -/
theorem Token.Lexeme.next? {t : Token} {w rest : Bytes} (h : t.Lexeme w)
    (hends : ∀ x, t = .number x → Number.Ends rest) :
    ∃ b tail, w = b :: tail ∧ Token.isBlank b = false ∧
      Token.next? b (tail ++ rest) = some (t, rest) := by
  cases h with
  | @mark b _ h => exact ⟨b, [], rfl, mark_next? h rest⟩
  | word h => exact word_next? h rest
  | @string raw h =>
      refine ⟨34, raw ++ [34], rfl, rfl, ?_⟩
      rw [List.append_assoc, List.singleton_append]
      change (Literal.scan (raw ++ 34 :: rest)).map _ = _
      rw [h.scan]
      rfl
  | @number x _ h =>
      obtain ⟨b, tail, hw, hblank, hnext⟩ := next?_of_spelled h rest
      refine ⟨b, tail, hw, hblank, ?_⟩
      rw [hnext, h.scan (hends x rfl)]
      rfl

/-- A text that spells some tokens is cut into them. -/
theorem Lexes.cuts {ts : List Token} {s : Bytes} (h : Lexes ts s) : Cuts s ts := by
  induction h with
  | @nil blanks hblanks =>
      have hcuts := cuts_nil.blanks hblanks
      rwa [List.append_nil] at hcuts
  | @cons blanks w s t ts hblanks hw hends _ ih =>
      obtain ⟨b, tail, rfl, hblank, hnext⟩ := hw.next? hends
      exact (ih.token hblank hnext (by simp)).blanks hblanks

/-- What is cut off as a word is the word. -/
theorem of_word? {word s rest : Bytes} {t t' : Token} (h : Token.word? word t s = some (t', rest)) :
    t' = t ∧ s = word ++ rest := by
  unfold Token.word? at h
  split at h
  · next hword =>
    cases h
    refine ⟨rfl, ?_⟩
    conv_lhs => rw [← List.take_append_drop word.length s, hword]
  · cases h

/-- What is cut off a text is a token, and no digit follows a number. -/
theorem lexeme_of_next? {b : UInt8} {rest rest' : Bytes} {t : Token}
    (h : Token.next? b rest = some (t, rest')) :
    ∃ w, t.Lexeme w ∧ b :: rest = w ++ rest' ∧ ∀ x, t = .number x → Number.Stops rest' := by
  have hmark : ∀ t', (b, t') ∈ marks → some (t', rest) = some (t, rest') →
      ∃ w, t.Lexeme w ∧ b :: rest = w ++ rest' ∧ ∀ x, t = .number x → Number.Stops rest' := by
    intro t' hmark hsame
    cases hsame
    refine ⟨[b], .mark hmark, rfl, ?_⟩
    rintro x rfl
    simp [marks] at hmark
  have hword : ∀ w t', (b :: w, t') ∈ words → Token.word? w t' rest = some (t, rest') →
      ∃ w, t.Lexeme w ∧ b :: rest = w ++ rest' ∧ ∀ x, t = .number x → Number.Stops rest' := by
    intro w t' hword hcut
    obtain ⟨rfl, rfl⟩ := of_word? hcut
    refine ⟨b :: w, .word hword, rfl, ?_⟩
    rintro x rfl
    simp [words] at hword
  unfold Token.next? at h
  -- The six marks, a string, the three words, and what is left is a number.
  rcases ite_eq_iff.1 h with ⟨hb, h⟩ | ⟨-, h⟩
  · exact hmark _ (by rw [hb]; decide) h
  rcases ite_eq_iff.1 h with ⟨hb, h⟩ | ⟨-, h⟩
  · exact hmark _ (by rw [hb]; decide) h
  rcases ite_eq_iff.1 h with ⟨hb, h⟩ | ⟨-, h⟩
  · exact hmark _ (by rw [hb]; decide) h
  rcases ite_eq_iff.1 h with ⟨hb, h⟩ | ⟨-, h⟩
  · exact hmark _ (by rw [hb]; decide) h
  rcases ite_eq_iff.1 h with ⟨hb, h⟩ | ⟨-, h⟩
  · exact hmark _ (by rw [hb]; decide) h
  rcases ite_eq_iff.1 h with ⟨hb, h⟩ | ⟨-, h⟩
  · exact hmark _ (by rw [hb]; decide) h
  rcases ite_eq_iff.1 h with ⟨hb, h⟩ | ⟨-, h⟩
  · obtain ⟨⟨raw, left⟩, hscan, hsame⟩ := Option.map_eq_some_iff.1 h
    cases hsame
    obtain ⟨hraw, rfl⟩ := Literal.Raw.of_scan hscan
    exact ⟨_, .string hraw, by rw [hb]; simp, nofun⟩
  rcases ite_eq_iff.1 h with ⟨hb, h⟩ | ⟨-, h⟩
  · exact hword _ _ (by rw [hb]; decide) h
  rcases ite_eq_iff.1 h with ⟨hb, h⟩ | ⟨-, h⟩
  · exact hword _ _ (by rw [hb]; decide) h
  rcases ite_eq_iff.1 h with ⟨hb, h⟩ | ⟨-, h⟩
  · exact hword _ _ (by rw [hb]; decide) h
  rcases ite_eq_iff.1 h with ⟨-, h⟩ | ⟨-, h⟩
  · obtain ⟨⟨x, left⟩, hscan, hsame⟩ := Option.map_eq_some_iff.1 h
    cases hsame
    obtain ⟨w, hw, hrest, hstops⟩ := Number.Spelled.of_scan hscan
    exact ⟨w, .number hw, hrest, fun _ _ => hstops⟩
  · cases h

/-- No token starts with an octet with which a number goes on, other than a digit. -/
theorem next?_eq_none {b : UInt8} (hb : b = 46 ∨ b = 101 ∨ b = 69) (rest : Bytes) :
    Token.isBlank b = false ∧ Token.next? b rest = none := by
  rcases hb with rfl | rfl | rfl
  all_goals exact ⟨rfl, rfl⟩

/-- Where no digit follows and tokens can be cut, no number goes on. -/
theorem ends_of_stops {fuel : Nat} {s : Bytes} (hs : Number.Stops s) (hfuel : s.length ≤ fuel)
    (hcut : .bad ∉ Token.cut fuel s) : Number.Ends s := by
  intro b hb
  obtain ⟨rest, rfl⟩ : ∃ rest, s = b :: rest := by
    cases s with
    | nil => cases hb
    | cons c rest =>
        cases hb
        exact ⟨rest, rfl⟩
  have hnot : ¬(b = 46 ∨ b = 101 ∨ b = 69) := by
    intro hgoes
    obtain ⟨hblank, hnone⟩ := next?_eq_none hgoes rest
    cases fuel with
    | zero => simp at hfuel
    | succ fuel =>
        have hblank : ¬Token.isBlank b = true := by simp [hblank]
        rw [Token.cut, List.dropWhile_cons_of_neg hblank] at hcut
        simp [hnone] at hcut
  simp only [not_or] at hnot
  exact ⟨hs b rfl, hnot⟩

/-- **A text spells what it is cut into**, unless that is bad. -/
theorem lexes_of_cut {fuel : Nat} {s : Bytes} (hfuel : s.length ≤ fuel)
    (hcut : .bad ∉ Token.cut fuel s) : Lexes (Token.cut fuel s) s := by
  induction fuel generalizing s with
  | zero =>
      have hnil : s = [] := List.length_eq_zero_iff.1 (Nat.le_zero.1 hfuel)
      subst hnil
      exact .nil (List.forall_mem_nil _)
  | succ fuel ih =>
      have hsplit : s = s.takeWhile Token.isBlank ++ s.dropWhile Token.isBlank :=
        List.takeWhile_append_dropWhile.symm
      have hblanks : ∀ b ∈ s.takeWhile Token.isBlank, Token.isBlank b = true :=
        fun b hb => List.mem_takeWhile_imp hb
      rw [Token.cut] at hcut ⊢
      rcases hrest : s.dropWhile Token.isBlank with _ | ⟨b, rest⟩
      · rw [hrest, List.append_nil] at hsplit
        rw [hsplit]
        exact .nil hblanks
      · rw [hrest] at hsplit hcut
        dsimp only at hcut ⊢
        rcases hnext : Token.next? b rest with _ | ⟨t, rest'⟩
        · simp [hnext] at hcut
        · rw [hnext] at hcut
          obtain ⟨w, hw, hsame, hstops⟩ := lexeme_of_next? hnext
          have hshort : rest'.length ≤ fuel := by
            have hpos := List.length_pos_iff.2 hw.ne_nil
            have hlength := congrArg List.length hsplit
            rw [hsame] at hlength
            simp only [List.length_append] at hlength
            omega
          have hothers : .bad ∉ Token.cut fuel rest' :=
            fun hbad => hcut (List.mem_cons_of_mem _ hbad)
          rw [hsplit, hsame]
          exact .cons hblanks hw (fun x hx => ends_of_stops (hstops x hx) hshort hothers)
            (ih hshort hothers)

/-- **Tokens.**  A text is cut into tokens that are not bad exactly when it spells
them. -/
theorem lexes_iff {ts : List Token} {s : Bytes} :
    Lexes ts s ↔ Token.all s = ts ∧ .bad ∉ ts := by
  constructor
  · intro h
    exact ⟨h.cuts _ le_rfl, h.bad_not_mem⟩
  · rintro ⟨rfl, hbad⟩
    exact lexes_of_cut le_rfl hbad

/-! ## Reading -/

/-- **Reading is the inverse of spelling.** -/
theorem readText_eq_iff {s : Bytes} {v : Json} : readText s = (v, true) ↔ Spells s v := by
  have hrun : readText s = (v, true) ↔ run (Token.all s) .value [] = (v, some []) := by
    rw [readText]
    rcases run (Token.all s) .value [] with ⟨value, rest⟩
    simp
  rw [hrun, run_eq_iff, List.append_nil, Spells, lexes_iff]

/-- A text spells one tree at most. -/
theorem Spells.unique {s : Bytes} {v w : Json} (hv : Spells s v) (hw : Spells s w) : v = w :=
  congrArg Prod.fst ((readText_eq_iff.2 hv).symm.trans (readText_eq_iff.2 hw))

end KeyExchange.Json
