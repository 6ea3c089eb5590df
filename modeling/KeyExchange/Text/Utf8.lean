import KeyExchange.Octets

/-!
# UTF-8

A text travels as octets: each character takes one to four of them, the first
telling how many.  Reading is strict: an octet that cannot start a character,
a missing continuation, a spelling longer than needed, a surrogate and a code
point above U+10FFFF are all refused.
-/

namespace KeyExchange.Text.Utf8

/-- The octets of a sequence of characters. -/
def encode (text : List Char) : Bytes :=
  text.flatMap String.utf8EncodeChar

/-- The octets of a text. -/
def ofString (text : String) : Bytes :=
  encode text.toList

/-- The six bits that a continuation octet carries. -/
def continuation? (b : UInt8) : Option Nat :=
  if 0x80 ≤ b ∧ b < 0xC0 then some (b.toNat - 0x80) else none

/-- The character with this code point, provided that it lies in the range
that the length of its spelling is for and is no surrogate. -/
def scalar? (least code : Nat) : Option Char :=
  if h : code.isValidChar then
    if least ≤ code then some (Char.ofNatAux code h) else none
  else none

/-- The characters spelled by a string of octets, if it is well formed. -/
def decode : Bytes → Option (List Char)
  | [] => some []
  | a :: rest =>
      if a < 0x80 then
        (decode rest).map (Char.ofNat a.toNat :: ·)
      else if a < 0xC0 then
        none
      else if a < 0xE0 then
        match rest with
        | b :: rest => do
            let x ← continuation? b
            let c ← scalar? 0x80 ((a.toNat - 0xC0) * 64 + x)
            (decode rest).map (c :: ·)
        | _ => none
      else if a < 0xF0 then
        match rest with
        | b :: c :: rest => do
            let x ← continuation? b
            let y ← continuation? c
            let d ← scalar? 0x800 (((a.toNat - 0xE0) * 64 + x) * 64 + y)
            (decode rest).map (d :: ·)
        | _ => none
      else if a < 0xF8 then
        match rest with
        | b :: c :: d :: rest => do
            let x ← continuation? b
            let y ← continuation? c
            let z ← continuation? d
            let e ← scalar? 0x10000 ((((a.toNat - 0xF0) * 64 + x) * 64 + y) * 64 + z)
            (decode rest).map (e :: ·)
        | _ => none
      else
        none

end KeyExchange.Text.Utf8
