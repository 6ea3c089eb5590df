import KeyExchange.Json.Shape
import KeyExchange.Proofs.Json.Literal
import KeyExchange.Proofs.Text.Hex

/-!
# How long a text is

The length of the text of a tree does not depend on everything in the tree.  Octets
spelled by hexadecimal digits may be exchanged for as many others.

* `Json.SameWidth`: two trees have texts of one length, wherever they stand;
* `SameWidth.string`, `SameWidth.array`, `SameWidth.object`: one lemma for each kind
  of tree;
* `Shape.SameWidth`, `Fields.SameWidth`: so do two values of a shape.
-/

namespace KeyExchange

/-- A digit is no character that JSON escapes. -/
theorem Json.Literal.escape_digit {n : Nat} (h : n < 16) :
    escape (Text.Hex.digit n) = [Text.Hex.digit n] := by
  have hall : ∀ n : Fin 16, escape (Text.Hex.digit n) = [Text.Hex.digit n] := by decide
  exact hall ⟨n, h⟩

open Text.Hex in
/-- As a string, octets take two digits each. -/
theorem Json.Literal.length_encode_hex (s : Bytes) :
    (encode (Text.Hex.encode s)).length = 2 * s.length := by
  have hescape : (encodeChars s).flatMap escape = encodeChars s := by
    induction s with
    | nil => rfl
    | cons b s ih =>
        have hcons : encodeChars (b :: s)
            = digit (b.toNat / 16) :: digit (b.toNat % 16) :: encodeChars s := rfl
        rw [hcons, List.flatMap_cons, List.flatMap_cons, ih, escape_digit (high_lt b),
          escape_digit (low_lt b)]
        rfl
  rw [encode, Text.Hex.encode, String.toList_ofList, hescape,
    Text.Utf8.encode_ascii fun _ => encodeChars_ascii, List.length_map, length_encodeChars]

namespace Json

/-- The texts of the two trees have one length, wherever they stand. -/
def SameWidth (a b : Json) : Prop :=
  ∀ layout depth, (a.render layout depth).length = (b.render layout depth).length

/-- Members that follow each other under the same names. -/
def SameMembers : List (Bytes × Json) → List (Bytes × Json) → Prop :=
  List.Forall₂ fun m m' => m.1 = m'.1 ∧ SameWidth m.2 m'.2

namespace SameWidth

/-- A tree is as wide as itself. -/
theorem refl (j : Json) : SameWidth j j := fun _ _ => rfl

/-- Strings that are equally long in their text. -/
theorem string {raw raw' : Bytes} (h : raw.length = raw'.length) :
    SameWidth (.string raw) (.string raw') := by
  intro layout depth
  simp only [render, renderString, List.length_append, List.length_cons, h]

variable {items items' : List Json} {members members' : List (Bytes × Json)}

/-- Items of the same widths make arrays of one length. -/
theorem length_renderItems (h : List.Forall₂ SameWidth items items') (layout : Layout)
    (depth : Nat) :
    (renderItems layout depth items).length = (renderItems layout depth items').length := by
  induction h with
  | nil => rfl
  | cons hitem _ ih => simp only [renderItems, List.length_append, hitem layout depth, ih]

/-- Members of the same names and widths make objects of one length. -/
theorem length_renderMembers (h : SameMembers members members') (layout : Layout) (depth : Nat) :
    (renderMembers layout depth members).length
      = (renderMembers layout depth members').length := by
  induction h with
  | nil => rfl
  | @cons m m' _ _ hmember _ ih =>
      obtain ⟨name, value⟩ := m
      obtain ⟨name', value'⟩ := m'
      obtain ⟨rfl, hvalue⟩ := hmember
      have hwidth := hvalue layout depth
      dsimp only at hwidth
      simp only [renderMembers, List.length_append, hwidth, ih]

/-- Arrays whose items have the same widths. -/
theorem array (h : List.Forall₂ SameWidth items items') (closed : Bool) :
    SameWidth (.array items closed) (.array items' closed) := by
  intro layout depth
  cases h with
  | nil => rfl
  | cons hitem hrest =>
      simp only [render, List.length_append, List.length_cons, hitem layout (depth + 1),
        length_renderItems hrest layout (depth + 1)]

/-- Objects whose members have the same names and widths. -/
theorem object (h : SameMembers members members') (closed : Bool) :
    SameWidth (.object members closed) (.object members' closed) := by
  intro layout depth
  cases h with
  | nil => rfl
  | @cons m m' _ _ hmember hrest =>
      obtain ⟨name, value⟩ := m
      obtain ⟨name', value'⟩ := m'
      obtain ⟨rfl, hvalue⟩ := hmember
      have hwidth := hvalue layout (depth + 1)
      dsimp only at hwidth
      simp only [render, List.length_append, List.length_cons, hwidth,
        length_renderMembers hrest layout (depth + 1)]

end SameWidth

/-! ## Values of a shape -/

/-- The texts of the two values have one length. -/
def Shape.SameWidth {α : Type} (s : Shape α) (a b : α) : Prop :=
  Json.SameWidth (s.write a) (s.write b)

/-- The members of the two records have texts of one length. -/
def Fields.SameWidth {γ : Type} (fs : Fields γ) (a b : γ) : Prop :=
  SameMembers (fs.write a) (fs.write b)

namespace Shape.SameWidth

variable {α β γ : Type} {s : Shape α}

/-- A value is as wide as itself. -/
theorem refl (s : Shape α) (a : α) : s.SameWidth a a := Json.SameWidth.refl _

/-- Equally many octets in hexadecimal. -/
theorem hex {a b : Bytes} (h : a.length = b.length) :
    text.SameWidth (Text.Hex.encode a) (Text.Hex.encode b) := by
  apply Json.SameWidth.string
  rw [Literal.length_encode_hex, Literal.length_encode_hex, h]

/-- Values that could be absent. -/
theorem some {a b : α} (h : s.SameWidth a b) : s.optional.SameWidth (some a) (some b) := h

/-- Lists of values that are made of other items. -/
theorem list {f : β → α} {xs ys : List β}
    (h : List.Forall₂ (fun x y => s.SameWidth (f x) (f y)) xs ys) :
    s.list.SameWidth (xs.map f) (ys.map f) := by
  have hitems := List.forall₂_map_left_iff.2 (List.forall₂_map_right_iff.2 h)
  exact Json.SameWidth.array
    (List.forall₂_map_left_iff.2 (List.forall₂_map_right_iff.2 hitems)) true

/-- Values with parts of the same width. -/
theorem imap {make : α → β} {parts : β → α} {a b : β} (h : s.SameWidth (parts a) (parts b)) :
    (s.imap make parts).SameWidth a b := h

/-- Records with fields of the same widths. -/
theorem record {fs : Fields γ} {a b : γ} (h : fs.SameWidth a b) : (record fs).SameWidth a b :=
  Json.SameWidth.object h true

end Shape.SameWidth

namespace Fields.SameWidth

variable {α β : Type}

/-- Records without fields. -/
theorem nil : Fields.nil.SameWidth () () := List.Forall₂.nil

/-- A member that both records write, or both leave out. -/
theorem cons {field : Field α} {rest : Fields β} {a a' : α} {b b' : β}
    (homits : field.omits a = field.omits a') (hvalue : field.shape.SameWidth a a')
    (hrest : rest.SameWidth b b') : (Fields.cons field rest).SameWidth (a, b) (a', b') := by
  unfold Fields.SameWidth write
  rw [homits]
  by_cases hleft : field.omits a' = true
  · rw [if_pos hleft, if_pos hleft]
    exact hrest
  · rw [if_neg hleft, if_neg hleft]
    exact .cons ⟨rfl, hvalue⟩ hrest

/-- A member that does not differ. -/
theorem same {field : Field α} {rest : Fields β} (a : α) {b b' : β} (hrest : rest.SameWidth b b') :
    (Fields.cons field rest).SameWidth (a, b) (a, b') :=
  cons rfl (.refl _ a) hrest

end Fields.SameWidth

end Json

end KeyExchange
