import KeyExchange.Proofs.Json.Shape

/-!
# Where a text ends

An array, an object, a string or a word is over with its last octet, whatever stands
behind that: only a number may go on.  So a text that spells such a tree is still read as
this tree when more text follows, and what follows is noticed unless it is blank.

* `cuts_all`: the tokens of a text do not depend on the fuel;
* `Lexes.cuts_append`: tokens are cut off in front of more text;
* `Spells.readText_append`: a tree is read in front of more text;
* `Shape.readText_append`: so is the value of a shape.
-/

namespace KeyExchange.Json

open Outcome

/-! ## Tokens in front of more text -/

/-- Enough fuel cuts the same tokens, bad ones too. -/
theorem cut_eq_of_le {fuel fuel' : Nat} {s : Bytes} (h : s.length ≤ fuel) (h' : s.length ≤ fuel') :
    Token.cut fuel s = Token.cut fuel' s := by
  induction fuel generalizing fuel' s with
  | zero =>
      obtain rfl : s = [] := List.length_eq_zero_iff.1 (Nat.le_zero.1 h)
      exact (cuts_nil fuel' h').symm
  | succ fuel ih =>
      cases fuel' with
      | zero =>
          obtain rfl : s = [] := List.length_eq_zero_iff.1 (Nat.le_zero.1 h')
          exact cuts_nil _ h
      | succ fuel' =>
          rw [Token.cut, Token.cut]
          have hdropped := (List.dropWhile_suffix Token.isBlank (l := s)).length_le
          rcases hbehind : s.dropWhile Token.isBlank with _ | ⟨b, rest⟩
          · rfl
          · rw [hbehind, List.length_cons] at hdropped
            dsimp only
            rcases hnext : Token.next? b rest with _ | ⟨t, rest'⟩
            · rfl
            · obtain ⟨w, hw, hsplit, -⟩ := lexeme_of_next? hnext
              have hpos := List.length_pos_iff.2 hw.ne_nil
              have hlength := congrArg List.length hsplit
              rw [List.length_cons, List.length_append] at hlength
              have hsame : Token.cut fuel rest' = Token.cut fuel' rest' := ih (by omega) (by omega)
              dsimp only
              rw [hsame]

/-- A text is cut into its tokens, however much fuel there is. -/
theorem cuts_all (s : Bytes) : Cuts s (Token.all s) := fun _ hfuel => cut_eq_of_le hfuel le_rfl

/-- What ends a number still does with more text behind it. -/
theorem ends_append {s : Bytes} (h : Number.Ends s) (hs : s ≠ []) (rest : Bytes) :
    Number.Ends (s ++ rest) := by
  obtain ⟨b, s, rfl⟩ := List.exists_cons_of_ne_nil hs
  exact Number.ends_cons (h b rfl) _

/-- **Tokens in front of more text.**  The last of them must not be a number, since that
could go on. -/
theorem Lexes.cuts_append {ts us : List Token} {s rest : Bytes} (h : Lexes ts s)
    (hlast : ∀ x, ts.getLast? ≠ some (.number x)) (hrest : Cuts rest us) :
    Cuts (s ++ rest) (ts ++ us) := by
  induction h with
  | nil hblanks => exact hrest.blanks hblanks
  | @cons blanks w s t ts hblanks hw hends hs ih =>
      have hothers : ∀ x, ts.getLast? ≠ some (.number x) := by
        cases ts with
        | nil => exact fun _ => nofun
        | cons u ts => exact hlast
      have hnumber : ∀ x, t = .number x → Number.Ends (s ++ rest) := by
        rintro x rfl
        refine ends_append (hends x rfl) ?_ rest
        rintro rfl
        cases ts with
        | nil => exact hlast x rfl
        | cons u ts => exact absurd (hs.cuts 0 le_rfl) nofun
      obtain ⟨b, tail, rfl, hblank, hnext⟩ := hw.next? hnumber
      rw [List.append_assoc, List.append_assoc]
      exact ((ih hothers).token hblank hnext (by simp)).blanks hblanks

/-- A text has no tokens when it is blank. -/
theorem all_eq_nil_iff {s : Bytes} : Token.all s = [] ↔ s.all Token.isBlank = true := by
  have hlexes : Lexes [] s ↔ Token.all s = [] := by
    rw [lexes_iff, and_iff_left_of_imp]
    exact fun _ => List.not_mem_nil
  rw [← hlexes, List.all_eq_true]
  constructor
  · rintro ⟨hblanks⟩
    exact hblanks
  · exact .nil

/-! ## Trees in front of more text -/

/-- The last token of a tree that is no number is no number. -/
theorem getLast?_tokens_ne {v : Json} (hv : ∀ x, v ≠ .number x) (x : Number) :
    v.tokens.getLast? ≠ some (.number x) := by
  cases v with
  | number y => exact absurd rfl (hv y)
  | array items closed => cases items <;> cases closed <;> simp [tokens, List.getLast?_cons]
  | object members closed => cases members <;> cases closed <;> simp [tokens, List.getLast?_cons]
  | _ => simp [tokens]

/-- **Trees in front of more text.**  The tree is read, and whether it is all depends on
what follows being blank. -/
theorem Spells.readText_append {s : Bytes} {v : Json} (h : Spells s v) (hv : ∀ x, v ≠ .number x)
    (rest : Bytes) : readText (s ++ rest) = (v, rest.all Token.isBlank) := by
  have htokens : Token.all (s ++ rest) = v.tokens ++ Token.all rest :=
    Lexes.cuts_append h (getLast?_tokens_ne hv) (cuts_all rest) _ le_rfl
  have hrun : run (Token.all (s ++ rest)) .value [] = (v, some (Token.all rest)) :=
    run_eq_iff.2 ⟨htokens, h.bad_not_mem⟩
  have hended : (some (Token.all rest) == some []) = rest.all Token.isBlank := by
    rw [Bool.eq_iff_iff, beq_iff_eq, Option.some.injEq, all_eq_nil_iff]
  rw [readText, hrun]
  exact congrArg (v, ·) hended

/-- **Values in front of more text.**  Reading fails at what is not blank, if it comes so
far. -/
theorem Shape.readText_append {α : Type} {s : Shape α} {text : Bytes} {v : Json}
    (h : Spells text v) (hv : ∀ x, v ≠ .number x) (rest : Bytes) :
    s.readText (text ++ rest) =
      if rest.all Token.isBlank then s.read v else s.read v >>= fun _ => .error .malformed := by
  rw [Shape.readText, h.readText_append hv rest]
  cases rest.all Token.isBlank with
  | true =>
      rw [if_pos rfl]
      dsimp only
      cases s.read v <;> rfl
  | false => rfl

/-! ## Written texts -/

/-- The text of an object ends with its bracket. -/
theorem getLast?_render_object (layout : Layout) (depth : Nat) (members : List (Bytes × Json)) :
    (render layout depth (.object members true)).getLast? = some 125 := by
  cases members with
  | nil => rfl
  | cons m members =>
      obtain ⟨name, value⟩ := m
      rw [render, List.getLast?_append]
      rfl

end KeyExchange.Json
