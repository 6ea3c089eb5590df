import KeyExchange.Octets

/-!
# SHA-512

The message, a one bit, zeros and the length of the message in bits fill
whole blocks of 128 octets.  Each block is spread over eighty words by a
recurrence on the last sixteen, and every word turns a state of eight words
once.
-/

namespace KeyExchange.Sha512

/-- A word turned right by `k` bits, for `k` from 1 to 63. -/
@[inline] def rotate (k w : UInt64) : UInt64 :=
  (w >>> k) ||| (w <<< (64 - k))

/-- The state that blocks turn. -/
structure State where
  a : UInt64
  b : UInt64
  c : UInt64
  d : UInt64
  e : UInt64
  f : UInt64
  g : UInt64
  h : UInt64
deriving DecidableEq

/-- The state before the first block. -/
def initial : State :=
  ⟨0x6a09e667f3bcc908, 0xbb67ae8584caa73b, 0x3c6ef372fe94f82b, 0xa54ff53a5f1d36f1,
   0x510e527fade682d1, 0x9b05688c2b3e6c1f, 0x1f83d9abfb41bd6b, 0x5be0cd19137e2179⟩

/-- The constant of each of the eighty rounds. -/
def constants : List UInt64 := [
  0x428a2f98d728ae22, 0x7137449123ef65cd, 0xb5c0fbcfec4d3b2f, 0xe9b5dba58189dbbc,
  0x3956c25bf348b538, 0x59f111f1b605d019, 0x923f82a4af194f9b, 0xab1c5ed5da6d8118,
  0xd807aa98a3030242, 0x12835b0145706fbe, 0x243185be4ee4b28c, 0x550c7dc3d5ffb4e2,
  0x72be5d74f27b896f, 0x80deb1fe3b1696b1, 0x9bdc06a725c71235, 0xc19bf174cf692694,
  0xe49b69c19ef14ad2, 0xefbe4786384f25e3, 0x0fc19dc68b8cd5b5, 0x240ca1cc77ac9c65,
  0x2de92c6f592b0275, 0x4a7484aa6ea6e483, 0x5cb0a9dcbd41fbd4, 0x76f988da831153b5,
  0x983e5152ee66dfab, 0xa831c66d2db43210, 0xb00327c898fb213f, 0xbf597fc7beef0ee4,
  0xc6e00bf33da88fc2, 0xd5a79147930aa725, 0x06ca6351e003826f, 0x142929670a0e6e70,
  0x27b70a8546d22ffc, 0x2e1b21385c26c926, 0x4d2c6dfc5ac42aed, 0x53380d139d95b3df,
  0x650a73548baf63de, 0x766a0abb3c77b2a8, 0x81c2c92e47edaee6, 0x92722c851482353b,
  0xa2bfe8a14cf10364, 0xa81a664bbc423001, 0xc24b8b70d0f89791, 0xc76c51a30654be30,
  0xd192e819d6ef5218, 0xd69906245565a910, 0xf40e35855771202a, 0x106aa07032bbd1b8,
  0x19a4c116b8d2d0c8, 0x1e376c085141ab53, 0x2748774cdf8eeb99, 0x34b0bcb5e19b48a8,
  0x391c0cb3c5c95a63, 0x4ed8aa4ae3418acb, 0x5b9cca4f7763e373, 0x682e6ff3d6b2b8a3,
  0x748f82ee5defb2fc, 0x78a5636f43172f60, 0x84c87814a1f0ab72, 0x8cc702081a6439ec,
  0x90befffa23631e28, 0xa4506cebde82bde9, 0xbef9a3f7b2c67915, 0xc67178f2e372532b,
  0xca273eceea26619c, 0xd186b8c721c0c207, 0xeada7dd6cde0eb1e, 0xf57d4f7fee6ed178,
  0x06f067aa72176fba, 0x0a637dc5a2c898a6, 0x113f9804bef90dae, 0x1b710b35131c471b,
  0x28db77f523047d84, 0x32caab7b40c72493, 0x3c9ebe0a15c9bebc, 0x431d67c49c100d4c,
  0x4cc5d4becb3e42b6, 0x597f299cfc657e2a, 0x5fcb6fab3ad6faec, 0x6c44198c4a475817]

/-- One round, with the round's constant and message word already added. -/
def State.turn (s : State) (kw : UInt64) : State :=
  let s1 := rotate 14 s.e ^^^ rotate 18 s.e ^^^ rotate 41 s.e
  let choice := (s.e &&& s.f) ^^^ ((~~~s.e) &&& s.g)
  let t1 := s.h + s1 + choice + kw
  let s0 := rotate 28 s.a ^^^ rotate 34 s.a ^^^ rotate 39 s.a
  let majority := (s.a &&& s.b) ^^^ (s.a &&& s.c) ^^^ (s.b &&& s.c)
  ⟨t1 + (s0 + majority), s.a, s.b, s.c, s.d + t1, s.e, s.f, s.g⟩

/-- Sixteen consecutive words of the schedule. -/
structure Window where
  w0 : UInt64
  w1 : UInt64
  w2 : UInt64
  w3 : UInt64
  w4 : UInt64
  w5 : UInt64
  w6 : UInt64
  w7 : UInt64
  w8 : UInt64
  w9 : UInt64
  w10 : UInt64
  w11 : UInt64
  w12 : UInt64
  w13 : UInt64
  w14 : UInt64
  w15 : UInt64

/-- The window one word later: the new word is a sum of four older ones, two
of them stirred. -/
def Window.slide (w : Window) : Window :=
  let s0 := rotate 1 w.w1 ^^^ rotate 8 w.w1 ^^^ (w.w1 >>> 7)
  let s1 := rotate 19 w.w14 ^^^ rotate 61 w.w14 ^^^ (w.w14 >>> 6)
  ⟨w.w1, w.w2, w.w3, w.w4, w.w5, w.w6, w.w7, w.w8, w.w9, w.w10, w.w11, w.w12, w.w13, w.w14,
    w.w15, s1 + w.w9 + s0 + w.w0⟩

/-- A round for each constant. -/
def rounds : List UInt64 → Window → State → State
  | [], _, s => s
  | k :: ks, w, s => rounds ks w.slide (s.turn (k + w.w0))

/-- The word spelled by the next eight octets, most significant first, and
the octets after them. -/
def nextWord (data : Bytes) : UInt64 × Bytes :=
  ((data.take 8).foldl (fun w b => (w <<< 8) ||| b.toUInt64) 0, data.drop 8)

/-- The first sixteen words of a block's schedule. -/
def Window.ofBlock (data : Bytes) : Window :=
  let (w0, data) := nextWord data
  let (w1, data) := nextWord data
  let (w2, data) := nextWord data
  let (w3, data) := nextWord data
  let (w4, data) := nextWord data
  let (w5, data) := nextWord data
  let (w6, data) := nextWord data
  let (w7, data) := nextWord data
  let (w8, data) := nextWord data
  let (w9, data) := nextWord data
  let (w10, data) := nextWord data
  let (w11, data) := nextWord data
  let (w12, data) := nextWord data
  let (w13, data) := nextWord data
  let (w14, data) := nextWord data
  let (w15, _) := nextWord data
  ⟨w0, w1, w2, w3, w4, w5, w6, w7, w8, w9, w10, w11, w12, w13, w14, w15⟩

/-- The state after one block. -/
def State.absorb (s : State) (block : Bytes) : State :=
  let t := rounds constants (Window.ofBlock block) s
  ⟨s.a + t.a, s.b + t.b, s.c + t.c, s.d + t.d, s.e + t.e, s.f + t.f, s.g + t.g, s.h + t.h⟩

/-- The message filled up to whole blocks. -/
def padded (message : Bytes) : Bytes :=
  message ++ 0x80 :: List.replicate ((239 - message.length % 128) % 128) 0
    ++ ofNatBE 16 (8 * message.length)

/-- The state after `count` blocks. -/
def absorbAll : (count : Nat) → State → Bytes → State
  | 0, s, _ => s
  | count + 1, s, data => absorbAll count (s.absorb (data.take 128)) (data.drop 128)

/-- The octets of a word, most significant first. -/
def wordOctets (w : UInt64) : Bytes :=
  [(w >>> 56).toUInt8, (w >>> 48).toUInt8, (w >>> 40).toUInt8, (w >>> 32).toUInt8,
   (w >>> 24).toUInt8, (w >>> 16).toUInt8, (w >>> 8).toUInt8, w.toUInt8]

/-- The octets of a state. -/
def State.octets (s : State) : Bytes :=
  wordOctets s.a ++ wordOctets s.b ++ wordOctets s.c ++ wordOctets s.d
    ++ wordOctets s.e ++ wordOctets s.f ++ wordOctets s.g ++ wordOctets s.h

/-- The digest of a message. -/
def hash (message : Bytes) : Octets 64 :=
  let data := padded message
  ⟨(absorbAll (data.length / 128) initial data).octets, by simp [State.octets, wordOctets]⟩

end KeyExchange.Sha512
