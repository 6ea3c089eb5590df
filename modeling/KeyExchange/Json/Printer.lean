import KeyExchange.Json.Tree

/-!
# Writing JSON

A tree has two layouts.  The compact one has no blanks at all.  The indented
one puts every item and every member on a line of its own, two blanks deeper
than the line of its array or object, and a blank behind the colon; an empty
array or object stays on its line.
-/

namespace KeyExchange.Json

/-- How a text is laid out. -/
inductive Layout where
  | compact
  | indented
deriving DecidableEq

namespace Layout

/-- What stands before an item or a closing bracket at some depth. -/
def lineBreak (layout : Layout) (depth : Nat) : Bytes :=
  match layout with
  | .compact => []
  | .indented => 10 :: List.replicate (2 * depth) 32

/-- What stands between a name and its value. -/
def colon : Layout → Bytes
  | .compact => [58]
  | .indented => [58, 32]

end Layout

/-- A string between its quotes. -/
def renderString (raw : Bytes) : Bytes := 34 :: raw ++ [34]

mutual

/-- The text of a tree that stands at some depth. -/
def render (layout : Layout) (depth : Nat) : Json → Bytes
  | .null => [110, 117, 108, 108]
  | .bool true => [116, 114, 117, 101]
  | .bool false => [102, 97, 108, 115, 101]
  | .number x => x.render
  | .string raw => renderString raw
  | .array [] _ => [91, 93]
  | .array (first :: rest) _ =>
      91 :: layout.lineBreak (depth + 1) ++ render layout (depth + 1) first
        ++ renderItems layout (depth + 1) rest ++ layout.lineBreak depth ++ [93]
  | .object [] _ => [123, 125]
  | .object ((name, value) :: rest) _ =>
      123 :: layout.lineBreak (depth + 1) ++ renderString name ++ layout.colon
        ++ render layout (depth + 1) value
        ++ renderMembers layout (depth + 1) rest ++ layout.lineBreak depth ++ [125]
  | .broken => []

/-- Items that follow the first one. -/
def renderItems (layout : Layout) (depth : Nat) : List Json → Bytes
  | [] => []
  | item :: rest =>
      44 :: layout.lineBreak depth ++ render layout depth item ++ renderItems layout depth rest

/-- Members that follow the first one. -/
def renderMembers (layout : Layout) (depth : Nat) : List (Bytes × Json) → Bytes
  | [] => []
  | (name, value) :: rest =>
      44 :: layout.lineBreak depth ++ renderString name ++ layout.colon
        ++ render layout depth value ++ renderMembers layout depth rest

end

end KeyExchange.Json
