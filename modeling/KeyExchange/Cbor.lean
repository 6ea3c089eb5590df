import KeyExchange.Octets

/-!
# CBOR values

The values of RFC 8949, as far as they come up here: integers, strings,
arrays, maps, the simple values true, false and null, and the two kinds that
have no place in signed content, floating point numbers and tags.

An integer is kept the way it is encoded, by its sign and a natural number
below 2^64, so no integer is out of range.
-/

namespace KeyExchange

/-- A CBOR value. -/
inductive Cbor where
  /-- The integer `n`. -/
  | unsigned (n : UInt64)
  /-- The integer `-1 - n`. -/
  | negative (n : UInt64)
  | bytes (content : Bytes)
  | text (content : String)
  | bool (value : Bool)
  | null
  /-- A floating point number, by its bits in double precision. -/
  | float (bits : UInt64)
  | tag (number : UInt64) (content : Cbor)
  | array (items : List Cbor)
  | map (entries : List (Cbor × Cbor))

namespace Cbor

/-- The value of an integer, when it lies between -2^64 and 2^64 - 1. -/
def ofInt? : Int → Option Cbor
  | .ofNat n => if n < 1 <<< 64 then some (.unsigned (UInt64.ofNat n)) else none
  | .negSucc n => if n < 1 <<< 64 then some (.negative (UInt64.ofNat n)) else none

/-- `count` arrays of one element around `inner`. -/
def nest : (count : Nat) → (inner : Cbor) → Cbor
  | 0, inner => inner
  | count + 1, inner => .array [nest count inner]

/-- A string of fixed length. -/
def octets {n : Nat} (o : Octets n) : Cbor := .bytes o.toList

/-- A bound that may be absent. -/
def optional (n : Option UInt64) : Cbor := n.elim .null .unsigned

/-- An entry of a map whose keys are small integers. -/
def field (key : UInt64) (value : Cbor) : Cbor × Cbor := (.unsigned key, value)

end Cbor

end KeyExchange
