import KeyExchange.Octets

/-!
# Squares of words

Sixteen 32-bit words in four rows of four.  The stream cipher and the hash of
this library both stir such a square with one step, `mixColumns`: additions,
exclusive ors and rotations applied to the four columns at once.  Between two
such steps the rows are turned against each other, so that what were
diagonals become columns, and turned back afterwards.

Cipher and hash differ in the amounts of rotation and in the words that the
hash adds on the way (the cipher adds none).
-/

namespace KeyExchange

/-- Four words side by side. -/
structure Row where
  w0 : UInt32
  w1 : UInt32
  w2 : UInt32
  w3 : UInt32
deriving DecidableEq

namespace Row

def zero : Row := ⟨0, 0, 0, 0⟩

instance : Add Row := ⟨fun a b => ⟨a.w0 + b.w0, a.w1 + b.w1, a.w2 + b.w2, a.w3 + b.w3⟩⟩

instance : XorOp Row :=
  ⟨fun a b => ⟨a.w0 ^^^ b.w0, a.w1 ^^^ b.w1, a.w2 ^^^ b.w2, a.w3 ^^^ b.w3⟩⟩

/-- A word turned left by `k` bits, for `k` from 1 to 31. -/
@[inline] def rotateWord (k w : UInt32) : UInt32 :=
  (w <<< k) ||| (w >>> (32 - k))

/-- Every word turned left by `k` bits. -/
def rotateBits (k : UInt32) (a : Row) : Row :=
  ⟨rotateWord k a.w0, rotateWord k a.w1, rotateWord k a.w2, rotateWord k a.w3⟩

/-- The words moved one, two or three places to the left. -/
def turn1 (a : Row) : Row := ⟨a.w1, a.w2, a.w3, a.w0⟩
def turn2 (a : Row) : Row := ⟨a.w2, a.w3, a.w0, a.w1⟩
def turn3 (a : Row) : Row := ⟨a.w3, a.w0, a.w1, a.w2⟩

/-- The octets of a word, least significant first. -/
def wordOctets (w : UInt32) : Bytes :=
  [w.toUInt8, (w >>> 8).toUInt8, (w >>> 16).toUInt8, (w >>> 24).toUInt8]

/-- The octets of the four words, one word after the other. -/
def octets (a : Row) : Bytes :=
  wordOctets a.w0 ++ (wordOctets a.w1 ++ (wordOctets a.w2 ++ wordOctets a.w3))

/-- A row has 16 octets. -/
@[simp] theorem length_octets (a : Row) : a.octets.length = 16 := rfl

end Row

/-- Four octets as a word, the first one least significant. -/
def wordOf (a b c d : UInt8) : UInt32 :=
  a.toUInt32 ||| (b.toUInt32 <<< 8) ||| (c.toUInt32 <<< 16) ||| (d.toUInt32 <<< 24)

/-- The words spelled by a string of octets; up to three octets at its end
that fill no word are left out. -/
def wordsOf : Bytes → List UInt32
  | a :: b :: c :: d :: rest => wordOf a b c d :: wordsOf rest
  | _ => []

/-- The first four words of a list, and those after them.  Missing words are
zero. -/
def Row.ofWords : List UInt32 → Row × List UInt32
  | a :: b :: c :: d :: rest => (⟨a, b, c, d⟩, rest)
  | ws => (⟨ws.getD 0 0, ws.getD 1 0, ws.getD 2 0, 0⟩, [])

/-- Sixteen words in four rows. -/
structure WordSquare where
  r0 : Row
  r1 : Row
  r2 : Row
  r3 : Row
deriving DecidableEq

/-- How many bits to the left the four rotations of a step turn. -/
structure Rotations where
  first : UInt32
  second : UInt32
  third : UInt32
  fourth : UInt32

namespace WordSquare

/-- The square of the first sixteen words of a list. -/
def ofWords (ws : List UInt32) : WordSquare :=
  let (r0, ws) := Row.ofWords ws
  let (r1, ws) := Row.ofWords ws
  let (r2, ws) := Row.ofWords ws
  let (r3, _) := Row.ofWords ws
  ⟨r0, r1, r2, r3⟩

/-- Row by row sum. -/
instance : Add WordSquare :=
  ⟨fun a b => ⟨a.r0 + b.r0, a.r1 + b.r1, a.r2 + b.r2, a.r3 + b.r3⟩⟩

/-- One step on the four columns: `x` and `y` are added on the way. -/
def mixColumns (k : Rotations) (x y : Row) (s : WordSquare) : WordSquare :=
  let a := s.r0 + s.r1 + x
  let d := (s.r3 ^^^ a).rotateBits k.first
  let c := s.r2 + d
  let b := (s.r1 ^^^ c).rotateBits k.second
  let a := a + b + y
  let d := (d ^^^ a).rotateBits k.third
  let c := c + d
  let b := (b ^^^ c).rotateBits k.fourth
  ⟨a, b, c, d⟩

/-- The same step on the four diagonals. -/
def mixDiagonals (k : Rotations) (x y : Row) (s : WordSquare) : WordSquare :=
  let t := mixColumns k x y ⟨s.r0, s.r1.turn1, s.r2.turn2, s.r3.turn3⟩
  ⟨t.r0, t.r1.turn3, t.r2.turn2, t.r3.turn1⟩

/-- The sixty-four octets of a square, row by row. -/
def octets (s : WordSquare) : Bytes :=
  s.r0.octets ++ (s.r1.octets ++ (s.r2.octets ++ s.r3.octets))

/-- A square has 64 octets. -/
@[simp] theorem length_octets (s : WordSquare) : s.octets.length = 64 := rfl

end WordSquare

end KeyExchange
