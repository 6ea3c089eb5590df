import KeyExchange.Proofs.Json.Members
import Mathlib.Data.List.Nodup
import Mathlib.Logic.Relation

/-!
# Reformatting

Two trees can differ and still say the same to a reader who knows what to look
for: in the order of members, in the escapes of their strings, and in members that
he does not know.  What he knows is a schema: which places of a tree are arrays of
one kind of value, and which are objects with which members.

Reformatting is a chain of such changes.  A shape respects a schema when it reads
the same from a tree after every change.

* `Schema`: what is known of a tree;
* `Step`, `Reformats`: one change, and several;
* `Redrawn`, `Step.redrawn`: what a change leaves of the members of an object;
* `Step.items`: what it leaves of the items of an array;
* `Shape.Respects`, `Shape.Respects.reformats`: a reader who is not disturbed;
* `Respects.list`, `Respects.optional`, `Fields.Respects.record`: how such shapes
  are made.
-/

namespace KeyExchange.Json

open Outcome

/-! ## Changes -/

/-- The tree is complete, its strings and names spell texts, its numbers are not too
large, and at most `room` arrays and objects are nested in each other. -/
inductive Fit : Nat → Json → Prop
  | null {room : Nat} : Fit room .null
  | bool {room : Nat} (value : Bool) : Fit room (.bool value)
  | number {room : Nat} {x : Number} (h : x.kind ≠ .tooLarge) : Fit room (.number x)
  | string {room : Nat} {raw : Bytes} (h : (Literal.decode? raw).isSome = true) :
      Fit room (.string raw)
  | array {room : Nat} {items : List Json} (each : ∀ x ∈ items, Fit room x) :
      Fit (room + 1) (.array items true)
  | object {room : Nat} {members : List (Bytes × Json)} (names : Named members)
      (each : ∀ m ∈ members, Fit room m.2) : Fit (room + 1) (.object members true)

/-- What is known of a tree. -/
inductive Schema where
  /-- Neither an array nor an object. -/
  | leaf
  /-- An array of values. -/
  | list (items : Schema)
  /-- An object with these members, or an array of their values. -/
  | record (fields : List (String × Schema))
  /-- An object whose member `tag` says which members it has besides, or an array.
  Members that it has not may only have values with at most `room` arrays and
  objects nested in each other. -/
  | tagged (tag : String) (room : Nat) (kinds : List (String × List String))

namespace Schema

/-- What is known of the item of an array at some place. -/
def item? : Schema → Nat → Option Schema
  | .leaf, _ => none
  | .list items, _ => some items
  | .record fields, i => fields[i]?.map Prod.snd
  | .tagged _ _ _, _ => some .leaf

/-- The text of the only member with a name. -/
def textNamed? (name : String) (members : List (Bytes × Json)) : Option String :=
  match valuesNamed name members with
  | [.string raw] => Literal.decode? raw
  | _ => none

/-- The members that are defined for an object. -/
def defined? : Schema → List (Bytes × Json) → Option (List (String × Schema))
  | .record fields, _ => some fields
  | .tagged tag _ kinds, members => do
      let kind ← textNamed? tag members
      let names ← kinds.lookup kind
      return (tag, .leaf) :: names.map fun name => (name, .leaf)
  | _, _ => none

/-- The value may stand in a member that is not defined. -/
def Admits : Schema → Json → Prop
  | .tagged _ room _, value => Fit room value
  | _, _ => True

end Schema

/-- One change of a tree of which a schema is known. -/
inductive Step : Schema → Json → Json → Prop
  /-- A string is spelled with other escapes. -/
  | string {σ : Schema} {raw raw' : Bytes} (h : Literal.decode? raw = Literal.decode? raw') :
      Step σ (.string raw) (.string raw')
  /-- An item changes. -/
  | item {σ τ : Schema} {before after : List Json} {x y : Json} {closed : Bool}
      (hitem : σ.item? before.length = some τ) (h : Step τ x y) :
      Step σ (.array (before ++ x :: after) closed) (.array (before ++ y :: after) closed)
  /-- The value of a defined member changes. -/
  | member {σ τ : Schema} {fields : List (String × Schema)} {before after : List (Bytes × Json)}
      {raw : Bytes} {name : String} {x y : Json} {closed : Bool}
      (hobject : σ.defined? (before ++ (raw, x) :: after) = some fields)
      (hname : Literal.decode? raw = some name) (hdefined : (name, τ) ∈ fields) (h : Step τ x y) :
      Step σ (.object (before ++ (raw, x) :: after) closed)
        (.object (before ++ (raw, y) :: after) closed)
  /-- A name is spelled with other escapes. -/
  | name {σ : Schema} {fields : List (String × Schema)} {before after : List (Bytes × Json)}
      {raw raw' : Bytes} {x : Json} {closed : Bool}
      (hobject : σ.defined? (before ++ (raw, x) :: after) = some fields)
      (h : Literal.decode? raw = Literal.decode? raw') :
      Step σ (.object (before ++ (raw, x) :: after) closed)
        (.object (before ++ (raw', x) :: after) closed)
  /-- The members stand in another order. -/
  | order {σ : Schema} {fields : List (String × Schema)} {members members' : List (Bytes × Json)}
      {closed : Bool} (hobject : σ.defined? members = some fields) (h : members.Perm members') :
      Step σ (.object members closed) (.object members' closed)
  /-- A member is added that is not defined. -/
  | add {σ : Schema} {fields : List (String × Schema)} {before after : List (Bytes × Json)}
      {raw : Bytes} {name : String} {x : Json} {closed : Bool}
      (hobject : σ.defined? (before ++ after) = some fields)
      (hname : Literal.decode? raw = some name) (hother : name ∉ fields.map Prod.fst)
      (hvalue : σ.Admits x) :
      Step σ (.object (before ++ after) closed) (.object (before ++ (raw, x) :: after) closed)
  /-- A member is removed that is not defined. -/
  | remove {σ : Schema} {fields : List (String × Schema)} {before after : List (Bytes × Json)}
      {raw : Bytes} {name : String} {x : Json} {closed : Bool}
      (hobject : σ.defined? (before ++ (raw, x) :: after) = some fields)
      (hname : Literal.decode? raw = some name) (hother : name ∉ fields.map Prod.fst) :
      Step σ (.object (before ++ (raw, x) :: after) closed) (.object (before ++ after) closed)

/-- Several changes, one after the other. -/
def Reformats (σ : Schema) : Json → Json → Prop := Relation.ReflTransGen (Step σ)

/-! ## Members after a change -/

/-- The values of a defined member after a change: a single one stays or changes
too. -/
def Follows (τ : Schema) (values values' : List Json) : Prop :=
  (values = [] → values' = []) ∧
  ∀ x, values = [x] → ∃ y, values' = [y] ∧ (y = x ∨ Step τ x y)

/-- The members of an object after a change: all names still spell texts, the values
of defined members follow those of before, and what is new may stand there. -/
structure Redrawn (σ : Schema) (fields : List (String × Schema))
    (members members' : List (Bytes × Json)) : Prop where
  named : Named members → Named members'
  values : ∀ f ∈ fields, Follows f.2 (valuesNamed f.1 members) (valuesNamed f.1 members')
  origin : ∀ m' ∈ members', σ.Admits m'.2 ∨ ∃ m ∈ members,
    Literal.decode? m.1 = Literal.decode? m'.1 ∧
      (m.2 = m'.2 ∨ ∃ f ∈ fields, Step f.2 m.2 m'.2)

/-- Values that stay follow themselves. -/
theorem follows_of_eq {τ : Schema} {values values' : List Json} (h : values' = values) :
    Follows τ values values' := by
  subst h
  exact ⟨id, fun x hx => ⟨x, hx, .inl rfl⟩⟩

/-- The values of a name in two lists of members, one after the other. -/
theorem valuesNamed_append (name : String) (before after : List (Bytes × Json)) :
    valuesNamed name (before ++ after) = valuesNamed name before ++ valuesNamed name after := by
  rw [valuesNamed, List.filter_append, List.map_append]
  rfl

/-- A member in between matters to its own name only. -/
theorem valuesNamed_between {raw : Bytes} {name name' : String}
    (h : Literal.decode? raw = some name) (hne : name ≠ name') (x : Json)
    (before after : List (Bytes × Json)) :
    valuesNamed name' (before ++ (raw, x) :: after) = valuesNamed name' (before ++ after) := by
  have hother : Literal.decode? raw ≠ some name' := by
    rw [h]
    exact fun hsame => hne (Option.some.inj hsame)
  rw [valuesNamed_append, valuesNamed_append, valuesNamed_cons_of_ne hother]

/-- A member in between is one more value of its own name. -/
theorem valuesNamed_among {raw : Bytes} {name : String} (h : Literal.decode? raw = some name)
    (x : Json) (before after : List (Bytes × Json)) :
    valuesNamed name (before ++ (raw, x) :: after)
      = valuesNamed name before ++ x :: valuesNamed name after := by
  rw [valuesNamed_append, valuesNamed_cons_of_eq h]

/-- A member in between is one more member. -/
theorem mem_between {m n : Bytes × Json} {before after : List (Bytes × Json)} :
    m ∈ before ++ n :: after ↔ m = n ∨ m ∈ before ++ after := by
  simp only [List.mem_append, List.mem_cons, or_left_comm]

/-- What is left of the members may stand where it stood. -/
theorem origin_of_subset {σ : Schema} {fields : List (String × Schema)}
    {members members' : List (Bytes × Json)} (h : ∀ m ∈ members', m ∈ members) :
    ∀ m' ∈ members', σ.Admits m'.2 ∨ ∃ m ∈ members,
      Literal.decode? m.1 = Literal.decode? m'.1 ∧
        (m.2 = m'.2 ∨ ∃ f ∈ fields, Step f.2 m.2 m'.2) :=
  fun m' hm' => .inr ⟨m', h m' hm', rfl, .inl rfl⟩

/-- A single value that changes is followed by what it becomes. -/
theorem follows_among {τ : Schema} {x y : Json} (h : Step τ x y) (values values' : List Json) :
    Follows τ (values ++ x :: values') (values ++ y :: values') := by
  constructor
  · exact fun hnil => absurd hnil (by simp)
  · intro v hv
    have hlength := congrArg List.length hv
    simp only [List.length_append, List.length_cons, List.length_nil] at hlength
    have hbefore : values = [] := List.length_eq_zero_iff.1 (by omega)
    have hafter : values' = [] := List.length_eq_zero_iff.1 (by omega)
    subst hbefore hafter
    cases hv
    exact ⟨y, rfl, .inr h⟩

section Redrawn

variable {σ τ : Schema} {fields : List (String × Schema)} {before after : List (Bytes × Json)}
  {members members' : List (Bytes × Json)} {raw raw' : Bytes} {name : String} {x y : Json}

/-- Another order of members redraws them. -/
theorem redrawn_of_perm (h : members.Perm members') : Redrawn σ fields members members' where
  named hnamed m hm := hnamed m (h.mem_iff.2 hm)
  values f _ := by
    have hperm : (valuesNamed f.1 members).Perm (valuesNamed f.1 members') :=
      (h.filter _).map _
    constructor
    · intro hnil
      rw [hnil] at hperm
      exact hperm.nil_eq.symm
    · intro v hv
      rw [hv] at hperm
      exact ⟨v, List.perm_singleton.1 hperm.symm, .inl rfl⟩
  origin := origin_of_subset fun m hm => h.mem_iff.2 hm

/-- So does leaving out a member that is not defined. -/
theorem redrawn_of_remove (hname : Literal.decode? raw = some name)
    (hother : name ∉ fields.map Prod.fst) :
    Redrawn σ fields (before ++ (raw, x) :: after) (before ++ after) where
  named hnamed m hm := hnamed m (mem_between.2 (.inr hm))
  values f hf := by
    have hne : name ≠ f.1 := fun hsame => hother (hsame ▸ List.mem_map_of_mem hf)
    exact follows_of_eq (valuesNamed_between hname hne x before after).symm
  origin := origin_of_subset fun m hm => mem_between.2 (.inr hm)

/-- So does a new member that is not defined. -/
theorem redrawn_of_add (hname : Literal.decode? raw = some name)
    (hother : name ∉ fields.map Prod.fst) (hvalue : σ.Admits x) :
    Redrawn σ fields (before ++ after) (before ++ (raw, x) :: after) where
  named hnamed m hm := by
    rcases mem_between.1 hm with rfl | hm
    · exact Option.isSome_iff_exists.2 ⟨name, hname⟩
    · exact hnamed m hm
  values f hf := by
    have hne : name ≠ f.1 := fun hsame => hother (hsame ▸ List.mem_map_of_mem hf)
    exact follows_of_eq (valuesNamed_between hname hne x before after)
  origin m hm := by
    rcases mem_between.1 hm with rfl | hm
    · exact .inl hvalue
    · exact .inr ⟨m, hm, rfl, .inl rfl⟩

/-- So does another spelling of a name. -/
theorem redrawn_of_name (h : Literal.decode? raw = Literal.decode? raw') :
    Redrawn σ fields (before ++ (raw, x) :: after) (before ++ (raw', x) :: after) where
  named hnamed m hm := by
    rcases mem_between.1 hm with rfl | hm
    · rw [← h]
      exact hnamed (raw, x) (mem_between.2 (.inl rfl))
    · exact hnamed m (mem_between.2 (.inr hm))
  values f _ := by
    apply follows_of_eq
    by_cases hname : Literal.decode? raw = some f.1
    · rw [valuesNamed_among hname, valuesNamed_among (h ▸ hname)]
    · rw [valuesNamed_append, valuesNamed_append, valuesNamed_cons_of_ne hname,
        valuesNamed_cons_of_ne (h ▸ hname)]
  origin m hm := by
    rcases mem_between.1 hm with rfl | hm
    · exact .inr ⟨(raw, x), mem_between.2 (.inl rfl), h, .inl rfl⟩
    · exact .inr ⟨m, mem_between.2 (.inr hm), rfl, .inl rfl⟩

/-- So does a change in the value of a defined member. -/
theorem redrawn_of_member (hdistinct : (fields.map Prod.fst).Nodup)
    (hname : Literal.decode? raw = some name) (hdefined : (name, τ) ∈ fields) (h : Step τ x y) :
    Redrawn σ fields (before ++ (raw, x) :: after) (before ++ (raw, y) :: after) where
  named hnamed m hm := by
    rcases mem_between.1 hm with rfl | hm
    · exact hnamed (raw, x) (mem_between.2 (.inl rfl))
    · exact hnamed m (mem_between.2 (.inr hm))
  values f hf := by
    by_cases hsame : f.1 = name
    · have hf' : f = (name, τ) := List.inj_on_of_nodup_map hdistinct hf hdefined hsame
      subst hf'
      rw [valuesNamed_among hname, valuesNamed_among hname]
      exact follows_among h _ _
    · have hne : name ≠ f.1 := fun heq => hsame heq.symm
      apply follows_of_eq
      rw [valuesNamed_between hname hne, valuesNamed_between hname hne]
  origin m hm := by
    rcases mem_between.1 hm with rfl | hm
    · exact .inr ⟨(raw, x), mem_between.2 (.inl rfl), rfl, .inr ⟨_, hdefined, h⟩⟩
    · exact .inr ⟨m, mem_between.2 (.inr hm), rfl, .inl rfl⟩

end Redrawn

/-- **One change of an object** redraws its members. -/
theorem Step.redrawn {σ : Schema} {fields : List (String × Schema)} {members : List (Bytes × Json)}
    {closed : Bool} {v : Json} (h : Step σ (.object members closed) v)
    (hobject : σ.defined? members = some fields) (hdistinct : (fields.map Prod.fst).Nodup) :
    ∃ members', v = .object members' closed ∧ Redrawn σ fields members members' := by
  cases h with
  | member hobject' hname hdefined h =>
      obtain rfl := Option.some.inj (hobject.symm.trans hobject')
      exact ⟨_, rfl, redrawn_of_member hdistinct hname hdefined h⟩
  | name _ h => exact ⟨_, rfl, redrawn_of_name h⟩
  | order _ h => exact ⟨_, rfl, redrawn_of_perm h⟩
  | add hobject' hname hother hvalue =>
      obtain rfl := Option.some.inj (hobject.symm.trans hobject')
      exact ⟨_, rfl, redrawn_of_add hname hother hvalue⟩
  | remove hobject' hname hother =>
      obtain rfl := Option.some.inj (hobject.symm.trans hobject')
      exact ⟨_, rfl, redrawn_of_remove hname hother⟩

/-- **One change of an array** is a change of one of its items. -/
theorem Step.items {σ : Schema} {items : List Json} {closed : Bool} {v : Json}
    (h : Step σ (.array items closed) v) :
    ∃ before behind x y τ, items = before ++ x :: behind ∧
      v = .array (before ++ y :: behind) closed ∧
      σ.item? before.length = some τ ∧ Step τ x y := by
  cases h with
  | item hitem h => exact ⟨_, _, _, _, _, rfl, rfl, hitem, h⟩

/-! ## Shapes that are not disturbed -/

/-- The shape reads the same after every change. -/
def Shape.Respects {α : Type} (s : Shape α) (σ : Schema) : Prop :=
  ∀ a b v, Step σ a b → s.read a = .ok v → s.read b = .ok v

/-- **Several changes** disturb as little as one. -/
theorem Shape.Respects.reformats {α : Type} {s : Shape α} {σ : Schema} (h : s.Respects σ)
    {a b : Json} {v : α} (hab : Reformats σ a b) (ha : s.read a = .ok v) : s.read b = .ok v := by
  induction hab with
  | refl => exact ha
  | tail _ hstep ih => exact h _ _ v hstep ih

/-- Only a string changes where neither an array nor an object is known of. -/
theorem Step.leaf {a b : Json} (h : Step .leaf a b) :
    ∃ raw raw', a = .string raw ∧ b = .string raw' ∧
      Literal.decode? raw = Literal.decode? raw' := by
  cases h with
  | string h => exact ⟨_, _, rfl, rfl, h⟩
  | item hitem _ => cases hitem
  | member hobject _ _ _ => cases hobject
  | name hobject _ => cases hobject
  | order hobject _ => cases hobject
  | add hobject _ _ _ => cases hobject
  | remove hobject _ _ => cases hobject

namespace Shape.Respects

variable {α β : Type} {s : Shape α} {σ : Schema}

/-- Strings may be escaped in another way. -/
theorem text : Shape.text.Respects .leaf := by
  intro a b v hstep ha
  obtain ⟨raw, raw', rfl, rfl, hsame⟩ := hstep.leaf
  have hdecode := textOf_eq_ok_iff.1 ha
  rw [hsame] at hdecode
  exact textOf_eq_ok_iff.2 hdecode

/-- A number is never changed. -/
theorem natural (limit : Nat) : (Shape.natural limit).Respects .leaf := by
  intro a b v hstep ha
  obtain ⟨raw, raw', rfl, rfl, -⟩ := hstep.leaf
  cases ha

/-- What is made of the value that is read stays, too. -/
theorem map_read (h : s.Respects σ) {a b : Json} (hstep : Step σ a b) {make : α → β} {v : β}
    (ha : (s.read a).map make = .ok v) : (s.read b).map make = .ok v := by
  obtain ⟨w, hread, rfl⟩ := map_eq_ok_iff.1 ha
  exact map_eq_ok_iff.2 ⟨w, h a b w hstep hread, rfl⟩

/-- What is made of the value that is read is not disturbed. -/
theorem imap (h : s.Respects σ) (make : α → β) (parts : β → α) :
    (s.imap make parts).Respects σ := fun _ _ _ hstep ha => h.map_read hstep ha

/-- Nothing changes to null or from null. -/
theorem optional (h : s.Respects σ) : s.optional.Respects σ := by
  intro a b v hstep ha
  have hread : ∀ x : Json, x ≠ .null → s.optional.read x = (s.read x).map some := by
    intro x hx
    cases x with
    | null => exact absurd rfl hx
    | _ => rfl
  have hnull : a ≠ .null ∧ b ≠ .null := by
    cases hstep with
    | _ => exact ⟨nofun, nofun⟩
  rw [hread a hnull.1] at ha
  rw [hread b hnull.2]
  exact h.map_read hstep ha

/-- A list is read from a complete array, item by item. -/
theorem list_read_eq_ok_iff {items : List Json} {closed : Bool} {values : List α} :
    s.list.read (.array items closed) = .ok values ↔
      closed = true ∧ items.mapM s.read = .ok values := by
  change (items.mapM s.read >>= fun values => if closed then pure values else throw .malformed)
    = .ok values ↔ _
  rw [bind_eq_ok_iff]
  constructor
  · intro hparts
    obtain ⟨read, hread, h⟩ := hparts
    cases closed with
    | true =>
        cases h
        exact ⟨rfl, hread⟩
    | false => cases h
  · intro hparts
    obtain ⟨rfl, hread⟩ := hparts
    exact ⟨values, hread, rfl⟩

/-- A list is not disturbed when its items are not. -/
theorem list (h : s.Respects σ) : s.list.Respects (.list σ) := by
  intro a b values hstep ha
  cases hstep with
  | string _ => cases ha
  | item hitem hstep =>
      cases hitem
      obtain ⟨hclosed, ha⟩ := list_read_eq_ok_iff.1 ha
      exact list_read_eq_ok_iff.2 ⟨hclosed, mapM_replace (fun v => h _ _ v hstep) ha⟩
  | member hobject _ _ _ => cases hobject
  | name hobject _ => cases hobject
  | order hobject _ => cases hobject
  | add hobject _ _ _ => cases hobject
  | remove hobject _ _ => cases hobject

end Shape.Respects

/-- A field is read from what follows its values. -/
theorem Field.Reads.follows {α : Type} {field : Field α} {τ : Schema}
    (h : field.shape.Respects τ) {values values' : List Json} (hvalues : Follows τ values values')
    {a : α} (hread : field.Reads values a) : field.Reads values' a := by
  obtain ⟨hnone, hone⟩ := hvalues
  match values with
  | [] =>
      rw [hnone rfl]
      exact hread
  | [x] =>
      obtain ⟨y, rfl, hsame | hstep⟩ := hone x rfl
      · rw [hsame]
        exact hread
      · exact h x y a hstep hread
  | _ :: _ :: _ => exact hread.elim

namespace Fields

/-- The fields have the names of a schema, and their shapes respect it. -/
inductive Respects : {γ : Type} → Fields γ → List (String × Schema) → Prop
  | nil : Respects .nil []
  | cons {α β : Type} {field : Field α} {rest : Fields β} {τ : Schema}
      {fields : List (String × Schema)} (first : field.shape.Respects τ)
      (others : rest.Respects fields) :
      Respects (.cons field rest) ((field.name, τ) :: fields)

/-- The fields have the names that the schema defines. -/
theorem Respects.names_eq {γ : Type} {fs : Fields γ} {fields : List (String × Schema)}
    (h : fs.Respects fields) : fields.map Prod.fst = fs.names := by
  induction h with
  | nil => rfl
  | cons _ _ ih => rw [List.map_cons, ih, names]

/-- The fields are read from the members as they were redrawn. -/
theorem Respects.reads {γ : Type} {fs : Fields γ} {fields : List (String × Schema)}
    (h : fs.Respects fields) {members members' : List (Bytes × Json)}
    (hvalues : ∀ f ∈ fields, Follows f.2 (valuesNamed f.1 members) (valuesNamed f.1 members'))
    {c : γ} (hread : fs.Reads members c) : fs.Reads members' c := by
  induction h with
  | nil => trivial
  | cons first others ih =>
      obtain ⟨hfirst, hothers⟩ := hread
      exact ⟨hfirst.follows first (hvalues _ List.mem_cons_self),
        ih (fun f hf => hvalues f (List.mem_cons_of_mem _ hf)) hothers⟩

/-- The first item is the first field. -/
theorem ofItems_cons_eq_ok_iff {α β : Type} {field : Field α} {rest : Fields β} {item : Json}
    {items left : List Json} {closed : Bool} {c : α × β} :
    (Fields.cons field rest).ofItems (item :: items) closed = .ok (c, left) ↔
      field.shape.read item = .ok c.1 ∧ rest.ofItems items closed = .ok (c.2, left) := by
  rw [Fields.ofItems]
  simp only [bind_eq_ok_iff]
  constructor
  · intro hparts
    obtain ⟨a, ha, ⟨b, left'⟩, hb, h⟩ := hparts
    cases h
    exact ⟨ha, hb⟩
  · intro hparts
    exact ⟨c.1, hparts.1, (c.2, left), hparts.2, rfl⟩

/-- Only items behind those of all fields are left over. -/
theorem length_le_of_ofItems {γ : Type} {fs : Fields γ} {items left : List Json} {closed : Bool}
    {c : γ} (h : fs.ofItems items closed = .ok (c, left)) :
    items.length ≤ fs.names.length + left.length := by
  induction fs generalizing items with
  | nil =>
      cases h
      simp
  | cons field rest ih =>
      cases items with
      | nil => simp
      | cons item items =>
          have hrest := ih (ofItems_cons_eq_ok_iff.1 h).2
          simp only [names, List.length_cons]
          omega

/-- The fields are read from the items after one of them changed. -/
theorem Respects.ofItems {γ : Type} {fs : Fields γ} {fields : List (String × Schema)}
    (h : fs.Respects fields) {before after left : List Json} {f : String × Schema} {x y : Json}
    {closed : Bool} (hitem : fields[before.length]? = some f) (hstep : Step f.2 x y) {c : γ}
    (hread : fs.ofItems (before ++ x :: after) closed = .ok (c, left)) :
    fs.ofItems (before ++ y :: after) closed = .ok (c, left) := by
  induction h generalizing before with
  | nil => cases hitem
  | cons first others ih =>
      cases before with
      | nil =>
          cases hitem
          obtain ⟨hfirst, hothers⟩ := ofItems_cons_eq_ok_iff.1 hread
          exact ofItems_cons_eq_ok_iff.2 ⟨first x y _ hstep hfirst, hothers⟩
      | cons z before =>
          obtain ⟨hfirst, hothers⟩ := ofItems_cons_eq_ok_iff.1 hread
          exact ofItems_cons_eq_ok_iff.2 ⟨hfirst, ih hitem hothers⟩

/-- A record is read from an array when all its items are used. -/
theorem record_read_array {γ : Type} {fs : Fields γ} {items : List Json} {closed : Bool} {c : γ} :
    (Shape.record fs).read (.array items closed) = .ok c ↔
      closed = true ∧ fs.ofItems items closed = .ok (c, []) := by
  change (fs.ofItems items closed >>= fun p =>
    if p.2.isEmpty && closed then pure p.1 else throw .malformed) = .ok c ↔ _
  rw [bind_eq_ok_iff]
  constructor
  · intro hparts
    obtain ⟨⟨c', left⟩, hread, h⟩ := hparts
    dsimp only at h
    by_cases hend : (left.isEmpty && closed) = true
    · rw [if_pos hend] at h
      cases h
      obtain ⟨hleft, hclosed⟩ := Bool.and_eq_true_iff.1 hend
      rw [List.isEmpty_iff.1 hleft] at hread
      exact ⟨hclosed, hread⟩
    · rw [if_neg hend] at h
      cases h
  · intro hparts
    obtain ⟨rfl, hread⟩ := hparts
    exact ⟨_, hread, rfl⟩

/-- **Records.**  A record is read the same when its members are redrawn. -/
theorem Respects.record {γ : Type} {fs : Fields γ} {fields : List (String × Schema)}
    (h : fs.Respects fields) (hdistinct : fs.names.Nodup) :
    (Shape.record fs).Respects (.record fields) := by
  intro a b c hstep ha
  cases a with
  | object members closed =>
      obtain ⟨members', rfl, hredrawn⟩ := hstep.redrawn rfl (h.names_eq ▸ hdistinct)
      obtain ⟨hclosed, hnamed, hread⟩ := (ofMembers_eq_ok_iff hdistinct).1 ha
      exact (ofMembers_eq_ok_iff hdistinct).2
        ⟨hclosed, hredrawn.named hnamed, h.reads hredrawn.values hread⟩
  | array items closed =>
      obtain ⟨before, behind, x, y, τ, rfl, rfl, hitem, hstep⟩ := hstep.items
      obtain ⟨f, hf, rfl⟩ := Option.map_eq_some_iff.1 hitem
      obtain ⟨hclosed, hread⟩ := record_read_array.1 ha
      exact record_read_array.2 ⟨hclosed, h.ofItems hf hstep hread⟩
  | string raw =>
      cases hstep
      cases ha
  | _ => cases hstep

end Fields

end KeyExchange.Json
