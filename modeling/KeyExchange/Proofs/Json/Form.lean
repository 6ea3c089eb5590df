import KeyExchange.Proofs.Json.Reformat

/-!
# Forms of values

A form says how values of a type stand in a tree: as a string, a number, an array, or an
object in which they are told by certain members.  It says nothing about the order of
members, nor about members that it does not name.

A shape reads a tree of its form, and reads the value that stands there, as long as the
tree is legible: the names that the reader comes across have to spell texts, and what
it sets aside must be fit for that.

* `Form.text`, `Form.natural`, `Form.list`, `Form.object`: the forms;
* `One`, `OneOr`, `Maybe`: what the values of one member tell;
* `Legible`: what else reading looks at;
* `Shape.Exact`: the shape reads what stands in this form, provided that it is legible;
* `Exact.list`, `Fields.Exact.record`, `Fields.Exact.imap`: how such shapes are made.
-/

namespace KeyExchange.Json

open Outcome

/-! ## Forms -/

/-- How values of a type stand in a tree. -/
abbrev Form (α : Type) : Type := α → Json → Prop

namespace Form

variable {α : Type}

/-- A string that spells the text. -/
def text : Form String := fun a tree => ∃ raw, tree = .string raw ∧ Literal.decode? raw = some a

/-- A number below the limit, written with digits alone. -/
def natural (limit : Nat) : Form Nat := fun n tree =>
  n < limit ∧ ∃ digits, tree = .number ⟨false, digits, [], none⟩ ∧ Number.digitsValue 0 digits = n

/-- An array of the values in their order. -/
def list (R : Form α) : Form (List α) := fun as tree =>
  ∃ items, tree = .array items true ∧ List.Forall₂ R as items

/-- An object whose members tell the value. -/
def object (R : α → List (Bytes × Json) → Prop) : Form α := fun a tree =>
  ∃ members, tree = .object members true ∧ R a members

/-- A text stands in the string that is written for it. -/
theorem text_ofString (a : String) : Form.text a (ofString a) :=
  ⟨_, rfl, Literal.decode?_encode a⟩

/-- A number below the limit stands in its digits. -/
theorem natural_ofNat {limit n : Nat} (h : n < limit) : Form.natural limit n (ofNat n) :=
  ⟨h, _, rfl, Number.digitsValue_digitsOf n⟩

/-- No text stands in null. -/
theorem text_ne_null (a : String) : ¬Form.text a .null := by
  rintro ⟨raw, h, -⟩
  cases h

/-- No number stands in null. -/
theorem natural_ne_null {limit : Nat} (n : Nat) : ¬Form.natural limit n .null := by
  rintro ⟨-, digits, h, -⟩
  cases h

/-- No object stands in null. -/
theorem object_ne_null {R : α → List (Bytes × Json) → Prop} (a : α) :
    ¬Form.object R a .null := by
  rintro ⟨members, h, -⟩
  cases h

end Form

section values

variable {α : Type}

/-- There is one value. -/
def One (R : Form α) (a : α) (values : List Json) : Prop := ∃ x, values = [x] ∧ R a x

/-- There is at most one value; without one it is the default. -/
def OneOr (R : Form α) (default : α) (a : α) (values : List Json) : Prop :=
  (values = [] ∧ a = default) ∨ One R a values

/-- There is at most one value, and null counts as none. -/
def Maybe (R : Form α) : Option α → List Json → Prop
  | none, values => values = [] ∨ values = [.null]
  | some a, values => One R a values

end values

/-- What reading looks at besides the form: in the objects of a record all names spell
texts, and where a kind is told by a tag, the whole object can be set aside. -/
inductive Legible : Schema → Json → Prop
  | null {σ : Schema} : Legible σ .null
  | leaf {x : Json} : Legible .leaf x
  | list {σ : Schema} {items : List Json} (each : ∀ x ∈ items, Legible σ x) :
      Legible (.list σ) (.array items true)
  | record {fields : List (String × Schema)} {members : List (Bytes × Json)}
      (names : Named members)
      (each : ∀ f ∈ fields, ∀ x ∈ valuesNamed f.1 members, Legible f.2 x) :
      Legible (.record fields) (.object members true)
  | tagged {tag : String} {room : Nat} {kinds : List (String × List String)}
      {members : List (Bytes × Json)} (names : Named members)
      (each : ∀ m ∈ members, Fit room m.2) :
      Legible (.tagged tag room kinds) (.object members true)

@[simp] theorem legible_leaf (x : Json) : Legible .leaf x := .leaf

/-- An array is legible when its items are. -/
theorem legible_list_iff {σ : Schema} {items : List Json} :
    Legible (.list σ) (.array items true) ↔ ∀ x ∈ items, Legible σ x := by
  constructor
  · intro h
    cases h with
    | list each => exact each
  · exact .list

/-- An object is legible when its names spell texts and the values of its defined members are
legible.  Nothing is asked of any other value. -/
theorem legible_record_iff {fields : List (String × Schema)} {members : List (Bytes × Json)} :
    Legible (.record fields) (.object members true) ↔
      Named members ∧ ∀ f ∈ fields, ∀ x ∈ valuesNamed f.1 members, Legible f.2 x := by
  constructor
  · intro h
    cases h with
    | record names each => exact ⟨names, each⟩
  · exact fun h => .record h.1 h.2

/-- An object whose kind is told by a tag is legible when its names spell texts and all its
values are fit to be set aside. -/
theorem legible_tagged_iff {tag : String} {room : Nat} {kinds : List (String × List String)}
    {members : List (Bytes × Json)} :
    Legible (.tagged tag room kinds) (.object members true) ↔
      Named members ∧ ∀ m ∈ members, Fit room m.2 := by
  constructor
  · intro h
    cases h with
    | tagged names each => exact ⟨names, each⟩
  · exact fun h => .tagged h.1 h.2

/-! ## Shapes that read a form -/

/-- From a tree of the form, the shape reads the value that stands there and no other, and
it does so exactly when the tree is legible. -/
def Shape.Exact {α : Type} (s : Shape α) (R : Form α) (σ : Schema) : Prop :=
  ∀ a tree, R a tree → ∀ a', s.read tree = .ok a' ↔ Legible σ tree ∧ a' = a

/-- The field is read in the same way from the values of the members with its name. -/
def Field.Exact {α : Type} (field : Field α) (R : α → List Json → Prop) (σ : Schema) : Prop :=
  ∀ a values, R a values → ∀ a', field.Reads values a' ↔ (∀ x ∈ values, Legible σ x) ∧ a' = a

namespace Shape.Exact

variable {α β : Type} {s : Shape α} {R : Form α} {σ : Schema}

/-- A string is read as the text it spells. -/
theorem text : Shape.text.Exact Form.text .leaf := by
  rintro a _ ⟨raw, rfl, hraw⟩ a'
  rw [and_iff_right Legible.leaf]
  change textOf raw = .ok a' ↔ _
  rw [textOf_eq_ok_iff, hraw, Option.some.injEq, eq_comm]

/-- Digits alone are a natural number. -/
theorem kind_digits {digits : Bytes} (h : Number.digitsValue 0 digits < 2 ^ 64) :
    (Number.mk false digits [] none).kind = .natural (Number.digitsValue 0 digits) := by
  have hfits : ((([] : Bytes).isEmpty && (none : Option (Bool × Bytes)).isNone) &&
      decide (Number.digitsValue 0 digits < 1 <<< 64)) = true := by simpa using h
  unfold Number.kind
  dsimp only
  rw [if_pos hfits, if_neg Bool.false_ne_true]

/-- Digits are read as the number they spell. -/
theorem natural {limit : Nat} (hlimit : limit ≤ 2 ^ 64) :
    (Shape.natural limit).Exact (Form.natural limit) .leaf := by
  rintro n _ ⟨hn, digits, rfl, hdigits⟩ n'
  have hkind := @kind_digits digits (by omega)
  rw [and_iff_right Legible.leaf]
  simp only [Shape.natural, hkind, hdigits, if_pos hn, Except.ok.injEq]
  exact eq_comm

/-- What is made of the value that is read stands in the same form. -/
theorem imap (h : s.Exact R σ) (make : α → β) (parts : β → α) (hmake : ∀ b, make (parts b) = b) :
    (s.imap make parts).Exact (fun b tree => R (parts b) tree) σ := by
  intro b tree hform b'
  change (s.read tree).map make = .ok b' ↔ _
  simp only [map_eq_ok_iff, h _ _ hform]
  constructor
  · rintro ⟨_, ⟨hlegible, rfl⟩, rfl⟩
    exact ⟨hlegible, hmake b⟩
  · rintro ⟨hlegible, rfl⟩
    exact ⟨_, ⟨hlegible, rfl⟩, hmake b'⟩

/-- Items are read one by one. -/
theorem mapM_read (h : s.Exact R σ) {as : List α} {items : List Json}
    (hform : List.Forall₂ R as items) {as' : List α} :
    items.mapM s.read = .ok as' ↔ (∀ x ∈ items, Legible σ x) ∧ as' = as := by
  rw [mapM_eq_ok_iff]
  induction hform generalizing as' with
  | nil => simp
  | @cons a x as items hfirst _ ih =>
      rw [List.forall₂_cons_left_iff, List.forall_mem_cons]
      simp only [h a x hfirst, ih]
      constructor
      · rintro ⟨_, _, ⟨hx, rfl⟩, ⟨hitems, rfl⟩, rfl⟩
        exact ⟨⟨hx, hitems⟩, rfl⟩
      · rintro ⟨⟨hx, hitems⟩, rfl⟩
        exact ⟨a, as, ⟨hx, rfl⟩, ⟨hitems, rfl⟩, rfl⟩

/-- An array is read as its items. -/
theorem list (h : s.Exact R σ) : s.list.Exact (Form.list R) (.list σ) := by
  rintro as _ ⟨items, rfl, hform⟩ as'
  rw [Shape.Respects.list_read_eq_ok_iff, and_iff_right rfl, legible_list_iff]
  exact h.mapM_read hform

end Shape.Exact

namespace Field

variable {α : Type} {s : Shape α} {R : Form α} {σ : Schema}

/-- A required field is read from its only value. -/
theorem exact_required (name : String) (h : s.Exact R σ) :
    (required name s).Exact (One R) σ := by
  rintro a _ ⟨x, rfl, hform⟩ a'
  rw [List.forall_mem_singleton]
  exact h a x hform a'

/-- A field with a default may have no value. -/
theorem exact_of_default {field : Field α} (h : field.shape.Exact R σ) {value : α}
    (hdefault : field.default? = some value) : field.Exact (OneOr R value) σ := by
  rintro a _ (⟨rfl, rfl⟩ | ⟨x, rfl, hform⟩) a'
  · change field.default? = some a' ↔ _
    rw [hdefault, Option.some.injEq, and_iff_right (List.forall_mem_nil _), eq_comm]
  · rw [List.forall_mem_singleton]
    exact h a x hform a'

/-- An optional field is read from its only value; without one, or from null, it is absent. -/
theorem exact_valueOrNone (name : String) (h : s.Exact R σ) (hnull : ∀ a, ¬R a .null) :
    (valueOrNone name s).Exact (Maybe R) σ := by
  intro o values hform o'
  cases o with
  | none =>
      rcases hform with rfl | rfl
      · change some none = some o' ↔ _
        rw [Option.some.injEq, and_iff_right (List.forall_mem_nil _), eq_comm]
      · change (Except.ok none : Except Fault (Option α)) = .ok o' ↔ _
        rw [Except.ok.injEq, List.forall_mem_singleton, and_iff_right Legible.null, eq_comm]
  | some a =>
      obtain ⟨x, rfl, hform⟩ := hform
      have hread : s.optional.read x = (s.read x).map some := by
        cases x with
        | null => exact absurd hform (hnull a)
        | _ => rfl
      change s.optional.read x = .ok o' ↔ _
      simp only [hread, map_eq_ok_iff, h a x hform, List.forall_mem_singleton]
      constructor
      · rintro ⟨_, ⟨hlegible, rfl⟩, rfl⟩
        exact ⟨hlegible, rfl⟩
      · rintro ⟨hlegible, rfl⟩
        exact ⟨a, ⟨hlegible, rfl⟩, rfl⟩

end Field

namespace Fields

/-- The fields are read exactly, each from the values of the members with its name. -/
inductive Exact : {γ : Type} → Fields γ → (γ → List (Bytes × Json) → Prop) →
    List (String × Schema) → Prop
  | nil : Exact .nil (fun _ _ => True) []
  | cons {α β : Type} {field : Field α} {rest : Fields β} {R : α → List Json → Prop}
      {R' : β → List (Bytes × Json) → Prop} {σ : Schema} {fields : List (String × Schema)}
      (first : field.Exact R σ) (others : rest.Exact R' fields) :
      Exact (.cons field rest)
        (fun c members => R c.1 (valuesNamed field.name members) ∧ R' c.2 members)
        ((field.name, σ) :: fields)

variable {γ : Type} {fs : Fields γ} {R : γ → List (Bytes × Json) → Prop}
  {fields : List (String × Schema)}

/-- All fields are read when the values of the defined members are legible. -/
theorem Exact.reads (h : fs.Exact R fields) {members : List (Bytes × Json)} {c : γ}
    (hform : R c members) (c' : γ) :
    fs.Reads members c' ↔
      (∀ f ∈ fields, ∀ x ∈ valuesNamed f.1 members, Legible f.2 x) ∧ c' = c := by
  induction h with
  | nil => exact iff_of_true trivial ⟨List.forall_mem_nil _, rfl⟩
  | cons first others ih =>
      rw [Reads, List.forall_mem_cons, Prod.ext_iff, first _ _ hform.1 c'.1, ih hform.2 c'.2]
      tauto

/-- **Records** are read exactly when their fields are. -/
theorem Exact.record (h : fs.Exact R fields) (hdistinct : fs.names.Nodup) :
    (Shape.record fs).Exact (Form.object R) (.record fields) := by
  rintro c _ ⟨members, rfl, hform⟩ c'
  change fs.ofMembers members true = .ok c' ↔ _
  rw [ofMembers_eq_ok_iff hdistinct, and_iff_right rfl, legible_record_iff, h.reads hform c',
    and_assoc]

/-- A record whose members tell a value of another type. -/
theorem Exact.imap (h : fs.Exact R fields) (hdistinct : fs.names.Nodup) {β : Type} {make : γ → β}
    {parts : β → γ} (hmake : ∀ b, make (parts b) = b) {R' : β → List (Bytes × Json) → Prop}
    (himp : ∀ b members, R' b members → R (parts b) members) :
    ((Shape.record fs).imap make parts).Exact (Form.object R') (.record fields) := by
  rintro b _ ⟨members, rfl, hform⟩
  exact (h.record hdistinct).imap make parts hmake b _ ⟨members, rfl, himp b members hform⟩

end Fields

end KeyExchange.Json
