import KeyExchange.Cipher.WordSquare

/-!
# The ChaCha keystream

A block of sixty-four octets is made from a key of eight words and a row of
four words that tells blocks apart (a counter and a nonce).  The number of
double rounds is a parameter: ten for encryption, six for the seeded random
stream.
-/

namespace KeyExchange.ChaCha

/-- The rotations of the cipher. -/
def rotations : Rotations := ⟨16, 12, 8, 7⟩

/-- The words of the phrase "expand 32-byte k". -/
def constants : Row := ⟨0x61707865, 0x3320646e, 0x79622d32, 0x6b206574⟩

/-- `n` rounds on the columns, each followed by one on the diagonals. -/
def doubleRounds : Nat → WordSquare → WordSquare
  | 0, s => s
  | n + 1, s =>
      doubleRounds n
        ((s.mixColumns rotations Row.zero Row.zero).mixDiagonals rotations Row.zero Row.zero)

/-- A key, as the two rows it fills. -/
structure Key where
  low : Row
  high : Row

/-- The key spelled by thirty-two octets. -/
def Key.ofOctets (key : Octets 32) : Key :=
  let (low, rest) := Row.ofWords (wordsOf key.toList)
  ⟨low, (Row.ofWords rest).1⟩

/-- The keystream block of a key and a row of counter and nonce. -/
def block (rounds : Nat) (key : Key) (position : Row) : Bytes :=
  let start : WordSquare := ⟨constants, key.low, key.high, position⟩
  (doubleRounds rounds start + start).octets

/-- A block of the key stream has 64 octets. -/
@[simp] theorem length_block (rounds : Nat) (key : Key) (position : Row) :
    (block rounds key position).length = 64 :=
  WordSquare.length_octets _

/-- The row of a 32-bit counter and a nonce of three words. -/
def noncePosition (counter : Nat) (nonce : Octets 12) : Row :=
  let words := (Row.ofWords (wordsOf nonce.toList)).1
  ⟨UInt32.ofNat counter, words.w0, words.w1, words.w2⟩

/-- `count` blocks of keystream under a nonce, the first of which has the
given counter. -/
def keystream (key : Key) (nonce : Octets 12) : (counter count : Nat) → Bytes
  | _, 0 => []
  | counter, count + 1 =>
      block 10 key (noncePosition counter nonce) ++ keystream key nonce (counter + 1) count

/-- `data` combined with the keystream that starts at block 1.  Applied twice
it gives `data` back. -/
def apply (key : Key) (nonce : Octets 12) (data : Bytes) : Bytes :=
  List.zipWith (· ^^^ ·) data (keystream key nonce 1 (data.length / 64 + 1))

end KeyExchange.ChaCha
