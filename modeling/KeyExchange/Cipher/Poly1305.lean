import KeyExchange.Octets

/-!
# The one-time authenticator

A message is cut into pieces of sixteen octets.  Each piece, with a one
written behind it, is a number; the numbers are the coefficients of a
polynomial, which is evaluated at the first half of the key modulo
2^130 - 5.  The second half of the key is added to give the tag.
-/

namespace KeyExchange.Poly1305

/-- The modulus of the polynomial. -/
def prime : Nat := 1 <<< 130 - 5

/-- The bits that a point of evaluation may have. -/
def clampMask : Nat := 0x0ffffffc0ffffffc0ffffffc0fffffff

/-- The value at `r` of the polynomial that the pieces of `message` spell.
`fuel` bounds the number of pieces. -/
def evaluate (r : Nat) : (fuel accumulator : Nat) → (message : Bytes) → Nat
  | 0, acc, _ => acc
  | fuel + 1, acc, message =>
      match message with
      | [] => acc
      | _ :: _ =>
          let piece := littleEndian (message.take 16 ++ [1])
          evaluate r fuel ((acc + piece) * r % prime) (message.drop 16)

/-- The tag of a message under a key that is used once. -/
def tag (key : Octets 32) (message : Bytes) : Bytes :=
  let r := littleEndian (key.toList.take 16) &&& clampMask
  let s := littleEndian (key.toList.drop 16)
  ofNatLE 16 (evaluate r message.length 0 message + s)

/-- A tag has 16 octets. -/
@[simp] theorem length_tag (key : Octets 32) (message : Bytes) : (tag key message).length = 16 :=
  length_ofNatLE 16 _

end KeyExchange.Poly1305
