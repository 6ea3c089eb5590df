import KeyExchange.Json.Number
import KeyExchange.Json.Literal

/-!
# JSON trees

A tree as far as a text spells it.  A text may break off or go wrong in the
middle of a tree; what was read up to there is kept, with a `broken` leaf for
a value that could not be read and with arrays and objects that are not
`closed`.  So whoever looks through a tree from left to right meets its
problems in the order in which they stand in the text.

Strings and names are kept as they are spelled, see `Literal`.
-/

namespace KeyExchange

/-- A JSON value, as far as it was read. -/
inductive Json where
  | null
  | bool (value : Bool)
  | number (value : Json.Number)
  | string (raw : Bytes)
  /-- An array, and whether its end was reached. -/
  | array (items : List Json) (closed : Bool)
  /-- An object with its members in the order of the text, and whether its
  end was reached. -/
  | object (members : List (Bytes × Json)) (closed : Bool)
  /-- No value could be read here. -/
  | broken

namespace Json

/-- A string that spells a text. -/
def ofString (text : String) : Json := .string (Literal.encode text)

/-- A member with a name. -/
def member (name : String) (value : Json) : Bytes × Json := (Literal.encode name, value)

/-- The number of a natural number. -/
def ofNat (n : Nat) : Json := .number (.ofNat n)

end Json

end KeyExchange
