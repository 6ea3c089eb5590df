import KeyExchange.Cbor.Canonical
import KeyExchange.Text.Hex

/-!
# Faults of the building blocks

What can be wrong with an id, a key, a signature or a text that should be one
of them.  A fault names its cause; `message` is its wording.
-/

namespace KeyExchange

/-- What is wrong with an id, a key, a signature, or with content that should
be encoded. -/
inductive BasicFault where
  | invalidSignature
  | invalidPublicKey
  | invalidKeyId (text : String)
  | invalidLength (field : String) (expected actual : Nat)
  | invalidHex (field : String) (reason : Text.Hex.Fault)
  | encoding (reason : Cbor.EncodingFault)
deriving DecidableEq

/-- The wording of a fault. -/
def BasicFault.message : BasicFault → String
  | .invalidSignature => "invalid signature"
  | .invalidPublicKey => "invalid public key"
  | .invalidKeyId text => "invalid key id: " ++ text
  | .invalidLength field expected actual =>
      "invalid length for " ++ field ++ ": expected " ++ toString expected
        ++ " bytes, got " ++ toString actual
  | .invalidHex field reason => "invalid hex in " ++ field ++ ": " ++ reason.message
  | .encoding reason => "encoding error: " ++ reason.message

/-- The octets of a hexadecimal text; `field` names it in a fault. -/
def hexField (field text : String) : Except BasicFault Bytes :=
  match Text.Hex.decode text with
  | .ok octets => .ok octets
  | .error reason => .error (.invalidHex field reason)

/-- Exactly `n` octets; `field` names them in a fault. -/
def exactly (n : Nat) (field : String) (octets : Bytes) : Except BasicFault (Octets n) :=
  match Octets.ofList? n octets with
  | some fixed => .ok fixed
  | none => .error (.invalidLength field n octets.length)

/-- Exactly `n` octets from a hexadecimal text.  The digits are looked at
before the length. -/
def fixedHexField (n : Nat) (field text : String) : Except BasicFault (Octets n) := do
  exactly n field (← hexField field text)

/-- The canonical encoding of some content. -/
def canonicalBytes (content : Cbor) : Except BasicFault Bytes :=
  content.canonical.mapError .encoding

end KeyExchange
