import KeyExchange.Octets
import KeyExchange.Text.Quoted
import KeyExchange.Text.Utf8

/-!
# Hexadecimal text

Two digits for an octet, the high one first.  Writing uses small letters;
reading takes both cases.  A text that is no hexadecimal text has one of two
faults, looked for in this order:

* it has an odd number of octets;
* one of its octets is no digit; the first such octet is named, and its
  position counts octets, not characters.
-/

namespace KeyExchange.Text.Hex

/-- What is wrong with a text that should be hexadecimal. -/
inductive Fault where
  | oddLength
  | badDigit (octet : UInt8) (position : Nat)
deriving DecidableEq

/-- The wording of a fault.  The offending octet is shown as the character
of the same number. -/
def Fault.message : Fault → String
  | .oddLength => "Odd number of digits"
  | .badDigit octet position =>
      "Invalid character " ++ Text.quoteChar (Char.ofNat octet.toNat)
        ++ " at position " ++ toString position

/-- The digit of a value below sixteen. -/
def digit (n : Nat) : Char :=
  if n < 10 then Char.ofNat (48 + n) else Char.ofNat (87 + n)

/-- The value of a digit, in either letter case. -/
def value? (b : UInt8) : Option Nat :=
  if 48 ≤ b ∧ b ≤ 57 then some (b.toNat - 48)
  else if 97 ≤ b ∧ b ≤ 102 then some (b.toNat - 87)
  else if 65 ≤ b ∧ b ≤ 70 then some (b.toNat - 55)
  else none

/-- The digits of a string of octets. -/
def encodeChars (s : Bytes) : List Char :=
  s.flatMap fun b => [digit (b.toNat / 16), digit (b.toNat % 16)]

/-- The hexadecimal text of a string of octets. -/
def encode (s : Bytes) : String :=
  String.ofList (encodeChars s)

/-- The value of the digit at `position`, or the fault that it is none. -/
def digitAt (position : Nat) (b : UInt8) : Except Fault Nat :=
  match value? b with
  | some n => .ok n
  | none => .error (.badDigit b position)

/-- The octets spelled by pairs of digits, the first of which stands at
`position`. -/
def decodePairs (position : Nat) : Bytes → Except Fault Bytes
  | high :: low :: rest => do
      let h ← digitAt position high
      let l ← digitAt (position + 1) low
      let tail ← decodePairs (position + 2) rest
      return UInt8.ofNat (16 * h + l) :: tail
  | _ => .ok []

/-- The octets spelled by a hexadecimal text, which is given as octets. -/
def decodeOctets (text : Bytes) : Except Fault Bytes :=
  if text.length % 2 = 0 then decodePairs 0 text else .error .oddLength

/-- The octets spelled by a hexadecimal text. -/
def decode (text : String) : Except Fault Bytes :=
  decodeOctets (Text.Utf8.ofString text)

end KeyExchange.Text.Hex
