import KeyExchange.Json.Printer
import KeyExchange.Proofs.Json.Grammar

/-!
# Written texts

The text that is written for a tree spells that tree, in both layouts and at any
depth, so it is read as that tree.

* `Written`: a tree that is complete and whose strings spell texts;
* `lexes_render`: what is written are the tokens of the tree;
* `spells_render`, `readText_render`: so it spells the tree and is read as it.
-/

namespace KeyExchange.Json

/-- A tree as it is written: it is complete, its strings and names spell texts,
and its numbers are natural. -/
inductive Written : Json → Prop
  | null : Written .null
  | bool (value : Bool) : Written (.bool value)
  | number (n : Nat) : Written (ofNat n)
  | string (text : String) : Written (ofString text)
  | array {items : List Json} (each : ∀ x ∈ items, Written x) : Written (.array items true)
  | object {members : List (Bytes × Json)}
      (names : ∀ m ∈ members, ∃ name, m.1 = Literal.encode name)
      (each : ∀ m ∈ members, Written m.2) : Written (.object members true)

/-! ## Tokens in front -/

namespace Lexes

variable {s : Bytes} {ts : List Token}

/-- Blanks in front do not count. -/
theorem blanks {blanks : Bytes} (hblanks : ∀ b ∈ blanks, Token.isBlank b = true) (h : Lexes ts s) :
    Lexes ts (blanks ++ s) := by
  cases h with
  | nil hs => exact .nil fun b hb => (List.mem_append.1 hb).elim (hblanks b) (hs b)
  | cons hs hw hends h =>
      rw [← List.append_assoc]
      exact .cons (fun b hb => (List.mem_append.1 hb).elim (hblanks b) (hs b)) hw hends h

/-- A token that is no number may be followed by anything. -/
theorem token {t : Token} {w : Bytes} (hw : t.Lexeme w) (ht : ∀ x, t ≠ .number x)
    (h : Lexes ts s) : Lexes (t :: ts) (w ++ s) :=
  @cons [] w s t ts (List.forall_mem_nil _) hw (fun x hx => absurd hx (ht x)) h

/-- A mark in front is a token. -/
theorem mark {b : UInt8} {t : Token} (hmark : (b, t) ∈ marks) (h : Lexes ts s) :
    Lexes (t :: ts) (b :: s) := by
  refine token (.mark hmark) ?_ h
  rintro x rfl
  simp [marks] at hmark

/-- What a layout puts between lines does not count. -/
theorem lineBreak (layout : Layout) (depth : Nat) (h : Lexes ts s) :
    Lexes ts (layout.lineBreak depth ++ s) := by
  refine h.blanks ?_
  cases layout with
  | compact => simp [Layout.lineBreak]
  | indented =>
      intro b hb
      rcases List.mem_cons.1 hb with rfl | hb
      · rfl
      · rw [(List.mem_replicate.1 hb).2]
        rfl

/-- What a layout writes for a colon is one. -/
theorem colon (layout : Layout) (h : Lexes ts s) : Lexes (.colon :: ts) (layout.colon ++ s) := by
  cases layout with
  | compact => exact h.mark (by decide)
  | indented =>
      have hblank : Lexes ts ([32] ++ s) := h.blanks (List.forall_mem_singleton.2 rfl)
      exact hblank.mark (by decide)

/-- A string in front. -/
theorem literal (text : String) (h : Lexes ts s) :
    Lexes (.string (Literal.encode text) :: ts) (renderString (Literal.encode text) ++ s) :=
  h.token (.string (Literal.raw_encode text)) nofun

/-- A number in front of something that ends it. -/
theorem number (n : Nat) (hends : Number.Ends s) (h : Lexes ts s) :
    Lexes (.number (.ofNat n) :: ts) ((Number.ofNat n).render ++ s) := by
  have hrender : (Number.ofNat n).render = Number.digitsOf n := by
    simp [Number.render, Number.ofNat]
  rw [hrender]
  exact @cons [] _ s _ ts (List.forall_mem_nil _) (.number (Number.spelled_ofNat n))
    (fun _ _ => hends) h

end Lexes

/-! ## Items and members -/

/-- The text of the value spells it, wherever the text goes on with something that
ends a number. -/
def Prints (s : Bytes) (value : Json) : Prop :=
  ∀ rest ts, Number.Ends rest → Lexes ts rest → Lexes (value.tokens ++ ts) (s ++ rest)

/-- A number ends in front of a closing bracket. -/
theorem ends_lineBreak {b : UInt8} (hb : b = 93 ∨ b = 125) (layout : Layout) (depth : Nat)
    (rest : Bytes) : Number.Ends (layout.lineBreak depth ++ b :: rest) := by
  cases layout with
  | compact => rcases hb with rfl | rfl <;> exact Number.ends_cons (by decide) _
  | indented => exact Number.ends_cons (by decide) _

/-- A number ends in front of the items that follow it. -/
theorem ends_renderItems (layout : Layout) (depth : Nat) (items : List Json) (rest : Bytes) :
    Number.Ends
      (renderItems layout (depth + 1) items ++ (layout.lineBreak depth ++ 93 :: rest)) := by
  cases items with
  | nil => exact ends_lineBreak (.inl rfl) layout depth rest
  | cons x items => exact Number.ends_cons (by decide) _

/-- A number ends in front of the members that follow it. -/
theorem ends_renderMembers (layout : Layout) (depth : Nat) (members : List (Bytes × Json))
    (rest : Bytes) :
    Number.Ends
      (renderMembers layout (depth + 1) members ++ (layout.lineBreak depth ++ 125 :: rest)) := by
  cases members with
  | nil => exact ends_lineBreak (.inr rfl) layout depth rest
  | cons m members => exact Number.ends_cons (by decide) _

/-- The items behind the first one, up to the end of the array. -/
theorem lexes_renderItems {layout : Layout} {depth : Nat} {items : List Json}
    (h : ∀ x ∈ items, Prints (render layout (depth + 1) x) x) {rest : Bytes} {ts : List Token}
    (hts : Lexes ts rest) :
    Lexes (itemTokens items ++ .arrayEnd :: ts)
      (renderItems layout (depth + 1) items ++ (layout.lineBreak depth ++ 93 :: rest)) := by
  induction items with
  | nil => exact (hts.mark (by decide)).lineBreak layout depth
  | cons x items ih =>
      have hrest := ih fun y hy => h y (List.mem_cons_of_mem _ hy)
      have hfirst := h x List.mem_cons_self _ _ (ends_renderItems layout depth items rest) hrest
      rw [renderItems, itemTokens]
      simp only [List.cons_append, List.append_assoc]
      exact (hfirst.lineBreak layout (depth + 1)).mark (by decide)

/-- The members behind the first one, up to the end of the object. -/
theorem lexes_renderMembers {layout : Layout} {depth : Nat} {members : List (Bytes × Json)}
    (hnames : ∀ m ∈ members, ∃ name, m.1 = Literal.encode name)
    (h : ∀ m ∈ members, Prints (render layout (depth + 1) m.2) m.2) {rest : Bytes}
    {ts : List Token} (hts : Lexes ts rest) :
    Lexes (memberTokens members ++ .objectEnd :: ts)
      (renderMembers layout (depth + 1) members ++ (layout.lineBreak depth ++ 125 :: rest)) := by
  induction members with
  | nil => exact (hts.mark (by decide)).lineBreak layout depth
  | cons m members ih =>
      obtain ⟨raw, value⟩ := m
      obtain ⟨name, hname⟩ := hnames (raw, value) List.mem_cons_self
      have hname : raw = Literal.encode name := hname
      subst hname
      have hrest := ih (fun n hn => hnames n (List.mem_cons_of_mem _ hn))
        fun n hn => h n (List.mem_cons_of_mem _ hn)
      have hfirst := h (Literal.encode name, value) List.mem_cons_self _ _
        (ends_renderMembers layout depth members rest) hrest
      rw [renderMembers, memberTokens]
      simp only [List.cons_append, List.append_assoc]
      exact (((hfirst.colon layout).literal name).lineBreak layout (depth + 1)).mark (by decide)

/-- **Written texts.**  The text of every written value spells it. -/
theorem lexes_render {value : Json} (h : Written value) (layout : Layout) (depth : Nat) :
    Prints (render layout depth value) value := by
  induction h generalizing depth with
  | null =>
      intro rest ts _ hts
      rw [render]
      exact hts.token (.word (by decide)) nofun
  | bool value =>
      intro rest ts _ hts
      cases value with
      | true =>
          rw [render]
          exact hts.token (.word (by decide)) nofun
      | false =>
          rw [render]
          exact hts.token (.word (by decide)) nofun
  | number n =>
      intro rest ts hends hts
      rw [ofNat, render]
      exact hts.number n hends
  | string text =>
      intro rest ts _ hts
      rw [ofString, render]
      exact hts.literal text
  | @array items each ih =>
      intro rest ts _ hts
      cases items with
      | nil =>
          rw [render]
          exact Lexes.mark (s := 93 :: rest) (by decide) (hts.mark (by decide))
      | cons x items =>
          have hitems :=
            lexes_renderItems (fun y hy => ih y (List.mem_cons_of_mem x hy) (depth + 1)) hts
          have hfirst := ih x List.mem_cons_self (depth + 1) _ _
            (ends_renderItems layout depth items rest) hitems
          rw [render, tokens]
          simp only [List.cons_append, List.append_assoc, List.nil_append]
          exact (hfirst.lineBreak layout (depth + 1)).mark (by decide)
  | @object members names each ih =>
      intro rest ts _ hts
      cases members with
      | nil =>
          rw [render]
          exact Lexes.mark (s := 125 :: rest) (by decide) (hts.mark (by decide))
      | cons m members =>
          obtain ⟨raw, value⟩ := m
          obtain ⟨name, hname⟩ := names (raw, value) List.mem_cons_self
          have hname : raw = Literal.encode name := hname
          subst hname
          have hmembers := lexes_renderMembers
            (fun n hn => names n (List.mem_cons_of_mem _ hn))
            (fun n hn => ih n (List.mem_cons_of_mem _ hn) (depth + 1)) hts
          have hfirst := ih (Literal.encode name, value) List.mem_cons_self (depth + 1) _ _
            (ends_renderMembers layout depth members rest) hmembers
          rw [render, tokens]
          simp only [List.cons_append, List.append_assoc, List.nil_append]
          exact (((hfirst.colon layout).literal name).lineBreak layout (depth + 1)).mark
            (by decide)

/-- The text of a written tree spells it. -/
theorem spells_render {value : Json} (h : Written value) (layout : Layout) :
    Spells (value.render layout 0) value := by
  have hlexes := lexes_render h layout 0 [] [] Number.ends_nil (.nil (List.forall_mem_nil _))
  rwa [List.append_nil, List.append_nil] at hlexes

/-- **Reading back.**  The text of a written tree is read as that tree, with
nothing behind it. -/
theorem readText_render {value : Json} (h : Written value) (layout : Layout) :
    readText (value.render layout 0) = (value, true) :=
  readText_eq_iff.2 (spells_render h layout)

end KeyExchange.Json
