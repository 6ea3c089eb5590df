import KeyExchange.BasicFault
import KeyExchange.Entropy

/-!
# Ids of content keys

An id has sixteen octets.  It is shown as 32 small hexadecimal digits in
groups of 8, 4, 4, 4 and 12, with hyphens between; the digits may also stand
without hyphens.  Reading takes these two forms, in either letter case, and
refuses every other text.
-/

namespace KeyExchange

/-- The id of a content key. -/
structure KeyId where
  octets : Octets 16
deriving DecidableEq

namespace KeyId

/-- The digits of an id without hyphens. -/
def toHex (id : KeyId) : String := Text.Hex.encode id.octets.toList

/-- The digits of an id in groups of 8, 4, 4, 4 and 12. -/
def hyphenated (id : KeyId) : List Char :=
  let digits := Text.Hex.encodeChars id.octets.toList
  digits.take 8 ++ '-' :: (digits.drop 8).take 4 ++ '-' :: (digits.drop 12).take 4
    ++ '-' :: (digits.drop 16).take 4 ++ '-' :: digits.drop 20

/-- The text of an id. -/
def toText (id : KeyId) : String := String.ofList id.hyphenated

/-- An id with the name of its type. -/
def describe (id : KeyId) : String := "KeyId(" ++ id.toText ++ ")"

/-- The pieces of a text between hyphens. -/
def pieces : Bytes → List Bytes
  | [] => [[]]
  | b :: rest =>
      if b = 0x2d then [] :: pieces rest
      else
        match pieces rest with
        | piece :: others => (b :: piece) :: others
        | [] => [[b]]

/-- The id with the given text, if it has one of the two forms. -/
def parse? (text : String) : Option KeyId := do
  let groups := pieces (Text.Utf8.ofString text)
  let lengths := groups.map List.length
  guard (lengths = [32] ∨ lengths = [8, 4, 4, 4, 12])
  let octets ← (Text.Hex.decodeOctets groups.flatten).toOption
  let fixed ← Octets.ofList? 16 octets
  return ⟨fixed⟩

/-- The id with the given text. -/
def parse (text : String) : Except BasicFault KeyId :=
  match parse? text with
  | some id => .ok id
  | none => .error (.invalidKeyId text)

/-- Ids in ascending order, compared octet by octet. -/
def sort (ids : List KeyId) : List KeyId :=
  ids.mergeSort fun a b => decide (a.octets.toList ≤ b.octets.toList)

/-- An id drawn at random. -/
def generate {ε : Type} : Drawing ε KeyId := do
  return ⟨← draw 16⟩

end KeyId

end KeyExchange
