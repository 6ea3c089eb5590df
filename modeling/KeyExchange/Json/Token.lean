import KeyExchange.Json.Tree

/-!
# The tokens of a JSON text

A text is cut into tokens before its tree is read.  Blanks between tokens are
dropped: space, tab, line feed and carriage return, and no others.  Where no
token can be cut, the list of tokens ends with `bad`; nothing behind that
place is looked at.
-/

namespace KeyExchange.Json

inductive Token where
  | arrayStart
  | arrayEnd
  | objectStart
  | objectEnd
  | comma
  | colon
  | null
  | bool (value : Bool)
  | number (value : Number)
  | string (raw : Bytes)
  /-- No token can be cut here. -/
  | bad
deriving DecidableEq

namespace Token

/-- The octet may stand between tokens. -/
def isBlank (b : UInt8) : Bool := b = 32 || b = 9 || b = 10 || b = 13

/-- `word` at the start of a text, taken as the token `t`. -/
def word? (word : Bytes) (t : Token) (s : Bytes) : Option (Token × Bytes) :=
  if s.take word.length = word then some (t, s.drop word.length) else none

/-- The token that starts with the octet `b`, and what follows it. -/
def next? (b : UInt8) (rest : Bytes) : Option (Token × Bytes) :=
  if b = 91 then some (.arrayStart, rest)
  else if b = 93 then some (.arrayEnd, rest)
  else if b = 123 then some (.objectStart, rest)
  else if b = 125 then some (.objectEnd, rest)
  else if b = 44 then some (.comma, rest)
  else if b = 58 then some (.colon, rest)
  else if b = 34 then (Literal.scan rest).map fun (raw, rest) => (.string raw, rest)
  else if b = 110 then word? [117, 108, 108] .null rest
  else if b = 116 then word? [114, 117, 101] (.bool true) rest
  else if b = 102 then word? [97, 108, 115, 101] (.bool false) rest
  else if b = 45 ∨ Number.isDigit b then
    (Number.scan (b :: rest)).map fun (x, rest) => (.number x, rest)
  else none

/-- The tokens of a text, at most `fuel` of them. -/
def cut : (fuel : Nat) → Bytes → List Token
  | 0, _ => []
  | fuel + 1, s =>
      match s.dropWhile isBlank with
      | [] => []
      | b :: rest =>
          match next? b rest with
          | some (t, rest) => t :: cut fuel rest
          | none => [.bad]

/-- The tokens of a text.  Every token takes at least one octet. -/
def all (s : Bytes) : List Token := cut s.length s

end Token

end KeyExchange.Json
