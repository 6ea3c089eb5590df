import KeyExchange.Json.Printer
import KeyExchange.Json.Reader

/-!
# Shapes of JSON values

A shape says how values of a type are spelled as JSON, in both directions.
Reading looks through a tree from left to right and gives the first problem
it meets.

* `text`, `natural`, `optional`, `list`: the plain shapes;
* `Fields`: the members of a record in the order of their declaration.  A
  record is an object, in which members may stand in any order and members of
  other names are skipped; it may also be an array of its members in order;
* a member with a default may be missing; some are left out in writing when
  they have that default.

What is skipped has been read as a tree, so it is well formed, but neither its
strings nor its numbers are looked at.
-/

namespace KeyExchange.Json

/-- The first problem met in a tree. -/
inductive Fault where
  /-- The text is no JSON text, or it spells no text or no number. -/
  | malformed
  | invalidType
  | invalidValue
  | invalidLength
  | missingField (name : String)
  | duplicateField (name : String)
  | unknownVariant (name : String)
deriving DecidableEq

/-- The wording of a problem. -/
def Fault.message : Fault → String
  | .malformed => "json: syntax"
  | .invalidType => "json: invalid type"
  | .invalidValue => "json: invalid value"
  | .invalidLength => "json: invalid length"
  | .missingField name => "json: missing field `" ++ name ++ "`"
  | .duplicateField name => "json: duplicate field `" ++ name ++ "`"
  | .unknownVariant name => "json: unknown variant `" ++ name ++ "`"

/-- The text that a string or a name spells. -/
def textOf (raw : Bytes) : Except Fault String :=
  match Literal.decode? raw with
  | some text => .ok text
  | none => .error .malformed

/-- What is wrong with a value that is of another type than it should be.
Strings and numbers are looked at in full before their type is. -/
def mismatch : Json → Fault
  | .string raw => if (Literal.decode? raw).isSome then .invalidType else .malformed
  | .number x => if x.kind = .tooLarge then .malformed else .invalidType
  | .broken => .malformed
  | _ => .invalidType

/-- How values of a type are spelled. -/
structure Shape (α : Type) where
  read : Json → Except Fault α
  write : α → Json

namespace Shape

/-- Any text. -/
def text : Shape String where
  read
    | .string raw => textOf raw
    | other => .error other.mismatch
  write := ofString

/-- A natural number below `limit`, which is at most 2^64. -/
def natural (limit : Nat) : Shape Nat where
  read
    | .number x =>
        match x.kind with
        | .natural n => if n < limit then .ok n else .error .invalidValue
        | .negative => .error .invalidValue
        | .other => .error .invalidType
        | .tooLarge => .error .malformed
    | other => .error other.mismatch
  write := ofNat

/-- A value or null. -/
def optional {α : Type} (s : Shape α) : Shape (Option α) where
  read
    | .null => .ok none
    | other => (s.read other).map some
  write
    | none => .null
    | some a => s.write a

/-- A shape of another type. -/
def imap {α β : Type} (s : Shape α) (make : α → β) (parts : β → α) : Shape β where
  read j := (s.read j).map make
  write b := s.write (parts b)

/-- An array of values. -/
def list {α : Type} (s : Shape α) : Shape (List α) where
  read
    | .array items closed => do
        let values ← items.mapM s.read
        if closed then return values else throw .malformed
    | other => .error other.mismatch
  write values := .array (values.map s.write) true

end Shape

/-- A member of a record. -/
structure Field (α : Type) where
  name : String
  shape : Shape α
  /-- The value of a missing member, if it may be missing. -/
  default? : Option α
  /-- The member is left out in writing. -/
  omits : α → Bool

namespace Field

/-- A member that must be there. -/
def required {α : Type} (name : String) (shape : Shape α) : Field α :=
  ⟨name, shape, none, fun _ => false⟩

/-- A member that may be missing, but is always written. -/
def defaulted {α : Type} (name : String) (shape : Shape α) (value : α) : Field α :=
  ⟨name, shape, some value, fun _ => false⟩

/-- A list that is left out when it is empty. -/
def listOrNone {α : Type} (name : String) (shape : Shape α) : Field (List α) :=
  ⟨name, shape.list, some [], List.isEmpty⟩

/-- A value that is left out when there is none; null counts as none too. -/
def valueOrNone {α : Type} (name : String) (shape : Shape α) : Field (Option α) :=
  ⟨name, shape.optional, some none, Option.isNone⟩

end Field

/-- The members of a record, in the order of their declaration. -/
inductive Fields : Type → Type 1 where
  | nil : Fields Unit
  | cons {α β : Type} (field : Field α) (rest : Fields β) : Fields (α × β)

namespace Fields

/-- What has been read of each member so far. -/
def Slots : {γ : Type} → Fields γ → Type
  | _, .nil => Unit
  | _, @Fields.cons α _ _ rest => Option α × rest.Slots

/-- Nothing has been read. -/
def empty : {γ : Type} → (fs : Fields γ) → fs.Slots
  | _, .nil => ()
  | _, .cons _ rest => (none, rest.empty)

/-- A member is met; nothing when no field has its name.  That a member comes
twice is noticed before its value is looked at. -/
def accept : {γ : Type} → (fs : Fields γ) → (name : String) → Json → fs.Slots →
    Option (Except Fault fs.Slots)
  | _, .nil, _, _, _ => none
  | _, .cons field rest, name, value, slots =>
      if name = field.name then
        some <|
          match slots.1 with
          | some _ => .error (.duplicateField name)
          | none => (field.shape.read value).map fun a => (some a, slots.2)
      else (rest.accept name value slots.2).map fun r => r.map fun others => (slots.1, others)

/-- The members of an object, one after the other. -/
def collect {γ : Type} (fs : Fields γ) :
    List (Bytes × Json) → fs.Slots → Except Fault fs.Slots
  | [], slots => .ok slots
  | (raw, value) :: rest, slots => do
      let name ← textOf raw
      match fs.accept name value slots with
      | some outcome => fs.collect rest (← outcome)
      | none => fs.collect rest slots

/-- The record, once all members were met. -/
def finish : {γ : Type} → (fs : Fields γ) → fs.Slots → Except Fault γ
  | _, .nil, _ => .ok ()
  | _, .cons field rest, slots =>
      match slots.1 <|> field.default? with
      | some a => (rest.finish slots.2).map fun b => (a, b)
      | none => .error (.missingField field.name)

/-- The record of an object's members. -/
def ofMembers {γ : Type} (fs : Fields γ) (members : List (Bytes × Json)) (closed : Bool) :
    Except Fault γ := do
  let slots ← fs.collect members fs.empty
  if closed then fs.finish slots else throw .malformed

/-- The record of an array's items, and the items left over.  Members with a
default may be missing at the end. -/
def ofItems : {γ : Type} → (fs : Fields γ) → List Json → (closed : Bool) →
    Except Fault (γ × List Json)
  | _, .nil, items, _ => .ok ((), items)
  | _, .cons field rest, item :: items, closed => do
      let a ← field.shape.read item
      let (b, left) ← rest.ofItems items closed
      return ((a, b), left)
  | _, .cons field rest, [], closed =>
      if closed then
        match field.default? with
        | some a => (rest.ofItems [] closed).map fun (b, left) => ((a, b), left)
        | none => .error .invalidLength
      else .error .malformed

/-- The members that are written for a record. -/
def write : {γ : Type} → Fields γ → γ → List (Bytes × Json)
  | _, .nil, _ => []
  | _, .cons field rest, (a, b) =>
      if field.omits a then rest.write b
      else member field.name (field.shape.write a) :: rest.write b

end Fields

/-- The shape of a record. -/
def Shape.record {γ : Type} (fs : Fields γ) : Shape γ where
  read
    | .object members closed => fs.ofMembers members closed
    | .array items closed => do
        let (record, left) ← fs.ofItems items closed
        if left.isEmpty && closed then return record else throw .malformed
    | other => .error other.mismatch
  write record := .object (fs.write record) true

/-- The value that a text spells in some shape. -/
def Shape.readText {α : Type} (s : Shape α) (text : Bytes) : Except Fault α := do
  let (tree, ended) := Json.readText text
  let value ← s.read tree
  if ended then return value else throw .malformed

/-- The text of a value. -/
def Shape.writeText {α : Type} (s : Shape α) (layout : Layout) (value : α) : Bytes :=
  (s.write value).render layout 0

end KeyExchange.Json
