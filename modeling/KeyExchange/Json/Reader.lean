import KeyExchange.Json.Token

/-!
# Reading a tree from tokens

The reader goes through the tokens once.  It remembers the arrays and objects
that are still open around the place where it stands (`Frame`), and what may
come next (`Mode`).  At the first token that does not fit, or when the tokens
end too early, it gives what it has read so far as a broken tree.

Since the open arrays and objects are on a list, nesting has no limit.
-/

namespace KeyExchange.Json

/-- An array or object that is open, while one of its values is being read.
What was read of it before stands in reverse order. -/
inductive Frame where
  | item (before : List Json)
  | member (before : List (Bytes × Json)) (name : Bytes)

/-- What may come next.  The items or members of the innermost array or object
stand in reverse order. -/
inductive Mode where
  | value
  | firstItem
  | afterItem (items : List Json)
  | firstName
  | nextName (members : List (Bytes × Json))
  | colon (members : List (Bytes × Json)) (name : Bytes)
  | afterMember (members : List (Bytes × Json))

/-- Where the reader stands after a token. -/
inductive Status where
  | reading (mode : Mode) (stack : List Frame)
  | complete (value : Json)
  | failed

/-- A value has been read; it goes into what is open around it. -/
def fill (value : Json) : List Frame → Status
  | [] => .complete value
  | .item before :: stack => .reading (.afterItem (value :: before)) stack
  | .member before name :: stack => .reading (.afterMember ((name, value) :: before)) stack

/-- A token where a value should start. -/
def startValue (stack : List Frame) : Token → Status
  | .null => fill .null stack
  | .bool b => fill (.bool b) stack
  | .number x => fill (.number x) stack
  | .string raw => fill (.string raw) stack
  | .arrayStart => .reading .firstItem stack
  | .objectStart => .reading .firstName stack
  | _ => .failed

/-- One token. -/
def step (mode : Mode) (stack : List Frame) (t : Token) : Status :=
  match mode with
  | .value => startValue stack t
  | .firstItem =>
      match t with
      | .arrayEnd => fill (.array [] true) stack
      | t => startValue (.item [] :: stack) t
  | .afterItem items =>
      match t with
      | .comma => .reading .value (.item items :: stack)
      | .arrayEnd => fill (.array items.reverse true) stack
      | _ => .failed
  | .firstName =>
      match t with
      | .string raw => .reading (.colon [] raw) stack
      | .objectEnd => fill (.object [] true) stack
      | _ => .failed
  | .nextName members =>
      match t with
      | .string raw => .reading (.colon members raw) stack
      | _ => .failed
  | .colon members name =>
      match t with
      | .colon => .reading .value (.member members name :: stack)
      | _ => .failed
  | .afterMember members =>
      match t with
      | .comma => .reading (.nextName members) stack
      | .objectEnd => fill (.object members.reverse true) stack
      | _ => .failed

/-- A broken value goes into what is open around it, which breaks too. -/
def breakOff (value : Json) : List Frame → Json
  | [] => value
  | .item before :: stack => breakOff (.array (before.reverse ++ [value]) false) stack
  | .member before name :: stack =>
      breakOff (.object (before.reverse ++ [(name, value)]) false) stack

/-- What has been read when reading stops in some mode. -/
def Mode.rest : Mode → Json
  | .value => .broken
  | .firstItem => .array [] false
  | .afterItem items => .array items.reverse false
  | .firstName => .object [] false
  | .nextName members => .object members.reverse false
  | .colon members name => .object (members.reverse ++ [(name, .broken)]) false
  | .afterMember members => .object members.reverse false

/-- The tree that the tokens spell, and the tokens behind it when it is
complete. -/
def run : List Token → Mode → List Frame → Json × Option (List Token)
  | [], mode, stack => (breakOff mode.rest stack, none)
  | t :: rest, mode, stack =>
      match step mode stack t with
      | .reading mode stack => run rest mode stack
      | .complete value => (value, some rest)
      | .failed => (breakOff mode.rest stack, none)

/-- The tree at the start of a text, and whether it is complete and nothing
stands behind it. -/
def readText (s : Bytes) : Json × Bool :=
  let (value, rest) := run (Token.all s) .value []
  (value, rest == some [])

end KeyExchange.Json
