import KeyExchange.Text.Utf8

/-!
# Strings in JSON text

Between its quotes a string is a sequence of characters and escapes.  What
stands there is first only cut out of the text (`scan`): the escapes must be
complete, and no control character may stand for itself.  Whether it spells a
text at all is asked when the text is needed (`decode?`): its octets must be
UTF-8, and surrogates must come in pairs.

Writing escapes quotes, backslashes and control characters, and nothing else.
-/

namespace KeyExchange.Json.Literal

/-- An escape other than one by number, and the character it stands for. -/
def namedEscapes : List (Char × Char) :=
  [('"', '"'), ('\\', '\\'), ('/', '/'), ('b', '\x08'), ('f', '\x0c'), ('n', '\n'),
   ('r', '\r'), ('t', '\t')]

/-- The character that a named escape stands for. -/
def named? (c : Char) : Option Char := namedEscapes.lookup c

def isHexDigit (b : UInt8) : Bool :=
  (48 ≤ b && b ≤ 57) || (97 ≤ b && b ≤ 102) || (65 ≤ b && b ≤ 70)

/-- A string at the start of a text, up to its closing quote, and what follows
that quote.  The opening quote has been taken off. -/
def scan : Bytes → Option (Bytes × Bytes)
  | [] => none
  | b :: rest =>
      if b = 34 then some ([], rest)
      else if b < 32 then none
      else if b = 92 then
        match rest with
        | [] => none
        | e :: rest =>
            if e = 117 then
              match rest with
              | h1 :: h2 :: h3 :: h4 :: rest =>
                  if isHexDigit h1 && isHexDigit h2 && isHexDigit h3 && isHexDigit h4 then
                    (scan rest).map fun (raw, rest) =>
                      (b :: e :: h1 :: h2 :: h3 :: h4 :: raw, rest)
                  else none
              | _ => none
            else if (named? (Char.ofNat e.toNat)).isSome then
              (scan rest).map fun (raw, rest) => (b :: e :: raw, rest)
            else none
      else (scan rest).map fun (raw, rest) => (b :: raw, rest)

/-- A piece of a string: a character, or a code unit of sixteen bits. -/
inductive Piece where
  | char (c : Char)
  | unit (n : Nat)
deriving DecidableEq

/-- The value of a hexadecimal digit. -/
def hexValue? (c : Char) : Option Nat :=
  if '0' ≤ c ∧ c ≤ '9' then some (c.toNat - 48)
  else if 'a' ≤ c ∧ c ≤ 'f' then some (c.toNat - 87)
  else if 'A' ≤ c ∧ c ≤ 'F' then some (c.toNat - 55)
  else none

/-- The code unit of four hexadecimal digits. -/
def unit? (a b c d : Char) : Option Nat := do
  let a ← hexValue? a
  let b ← hexValue? b
  let c ← hexValue? c
  let d ← hexValue? d
  return ((a * 16 + b) * 16 + c) * 16 + d

/-- The pieces of a string. -/
def pieces? : List Char → Option (List Piece)
  | [] => some []
  | c :: rest =>
      if c = '\\' then
        match rest with
        | [] => none
        | e :: rest =>
            if e = 'u' then
              match rest with
              | h1 :: h2 :: h3 :: h4 :: rest => do
                  let n ← unit? h1 h2 h3 h4
                  (pieces? rest).map (.unit n :: ·)
              | _ => none
            else do
              let c ← named? e
              (pieces? rest).map (.char c :: ·)
      else (pieces? rest).map (.char c :: ·)

/-- The characters of some pieces.  A leading surrogate needs a trailing one
right behind it, and a trailing one cannot stand alone. -/
def join? : List Piece → Option (List Char)
  | [] => some []
  | .char c :: rest => (join? rest).map (c :: ·)
  | .unit n :: rest =>
      if n < 0xD800 ∨ 0xDFFF < n then (join? rest).map (Char.ofNat n :: ·)
      else if 0xDC00 ≤ n then none
      else
        match rest with
        | .unit m :: rest =>
            if 0xDC00 ≤ m ∧ m ≤ 0xDFFF then
              (join? rest).map
                (Char.ofNat (0x10000 + (n - 0xD800) * 0x400 + (m - 0xDC00)) :: ·)
            else none
        | _ => none

/-- The text that a string spells. -/
def decode? (raw : Bytes) : Option String := do
  let chars ← Text.Utf8.decode raw
  let pieces ← pieces? chars
  let text ← join? pieces
  return String.ofList text

/-- A hexadecimal digit. -/
def hexDigit (n : Nat) : Char := if n < 10 then Char.ofNat (48 + n) else Char.ofNat (87 + n)

/-- How a character is written in a string. -/
def escape (c : Char) : List Char :=
  if c = '"' then ['\\', '"']
  else if c = '\\' then ['\\', '\\']
  else if c = '\x08' then ['\\', 'b']
  else if c = '\x0c' then ['\\', 'f']
  else if c = '\n' then ['\\', 'n']
  else if c = '\r' then ['\\', 'r']
  else if c = '\t' then ['\\', 't']
  else if c.toNat < 32 then
    ['\\', 'u', '0', '0', hexDigit (c.toNat / 16), hexDigit (c.toNat % 16)]
  else [c]

/-- What stands between the quotes for a text. -/
def encode (text : String) : Bytes :=
  Text.Utf8.encode (text.toList.flatMap escape)

end KeyExchange.Json.Literal
