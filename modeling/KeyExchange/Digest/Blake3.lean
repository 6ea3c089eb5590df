import KeyExchange.Cipher.WordSquare

/-!
# BLAKE3

The input is cut into chunks of 1024 octets, and each chunk into blocks of
64.  The blocks of a chunk are compressed one after the other; the chunks are
the leaves of a binary tree whose left subtrees are full.  A node that has
not been compressed yet is a `Node`: only when it is known whether it is the
root can that be said in its flags.

* `hash`: the plain digest;
* `deriveKey`: the digest under a context string, for keys made from other
  key material.
-/

namespace KeyExchange.Blake3

/-- Eight words that pass from one compression to the next. -/
structure Chain where
  low : Row
  high : Row
deriving DecidableEq

/-- The octets of a chaining value. -/
def Chain.octets (c : Chain) : Bytes := c.low.octets ++ c.high.octets

/-- The chaining value spelled by thirty-two octets. -/
def Chain.ofOctets (s : Bytes) : Chain :=
  let (low, rest) := Row.ofWords (wordsOf s)
  ⟨low, (Row.ofWords rest).1⟩

/-- The initial value: the first words of the square roots of the first
eight primes. -/
def initial : Chain :=
  ⟨⟨0x6A09E667, 0xBB67AE85, 0x3C6EF372, 0xA54FF53A⟩,
   ⟨0x510E527F, 0x9B05688C, 0x1F83D9AB, 0x5BE0CD19⟩⟩

/-! The flags that tell the kinds of blocks apart. -/

def chunkStart : UInt32 := 1
def chunkEnd : UInt32 := 2
def parent : UInt32 := 4
def root : UInt32 := 8
def contextMode : UInt32 := 32
def materialMode : UInt32 := 64

/-- The rotations of the hash: 16, 12, 8 and 7 bits to the right. -/
def rotations : Rotations := ⟨16, 20, 24, 25⟩

/-- One round: the first half of the message words goes into the columns, the
second half into the diagonals. -/
def round (m s : WordSquare) : WordSquare :=
  let x : Row := ⟨m.r0.w0, m.r0.w2, m.r1.w0, m.r1.w2⟩
  let y : Row := ⟨m.r0.w1, m.r0.w3, m.r1.w1, m.r1.w3⟩
  let z : Row := ⟨m.r2.w0, m.r2.w2, m.r3.w0, m.r3.w2⟩
  let w : Row := ⟨m.r2.w1, m.r2.w3, m.r3.w1, m.r3.w3⟩
  (s.mixColumns rotations x y).mixDiagonals rotations z w

/-- The order in which the next round takes the message words. -/
def permute (m : WordSquare) : WordSquare :=
  ⟨⟨m.r0.w2, m.r1.w2, m.r0.w3, m.r2.w2⟩,
   ⟨m.r1.w3, m.r0.w0, m.r1.w0, m.r3.w1⟩,
   ⟨m.r0.w1, m.r2.w3, m.r3.w0, m.r1.w1⟩,
   ⟨m.r2.w1, m.r3.w2, m.r3.w3, m.r2.w0⟩⟩

/-- `n` rounds. -/
def rounds : Nat → WordSquare → WordSquare → WordSquare
  | 0, _, s => s
  | n + 1, m, s => rounds n (permute m) (round m s)

/-- A compression that is still to be done. -/
structure Node where
  chain : Chain
  message : WordSquare
  counter : UInt64
  length : UInt32
  flags : UInt32

/-- The chaining value of a node, with further flags. -/
def Node.compress (node : Node) (flags : UInt32) : Chain :=
  let last : Row :=
    ⟨node.counter.toUInt32, (node.counter >>> 32).toUInt32, node.length, node.flags ||| flags⟩
  let s := rounds 7 node.message ⟨node.chain.low, node.chain.high, initial.low, last⟩
  ⟨s.r0 ^^^ s.r2, s.r1 ^^^ s.r3⟩

/-- The last block of a chunk, after the blocks before it were compressed.
`fuel` bounds the number of blocks. -/
def chunkNode (flags : UInt32) (counter : UInt64) :
    (fuel : Nat) → (start : UInt32) → Chain → Bytes → Node
  | 0, start, chain, data =>
      ⟨chain, WordSquare.ofWords (wordsOf (data ++ List.replicate (64 - data.length) 0)),
        counter, UInt32.ofNat data.length, flags ||| start ||| chunkEnd⟩
  | fuel + 1, start, chain, data =>
      if data.length ≤ 64 then
        chunkNode flags counter 0 start chain data
      else
        let node : Node :=
          ⟨chain, WordSquare.ofWords (wordsOf (data.take 64)), counter, 64, flags ||| start⟩
        chunkNode flags counter fuel 0 (node.compress 0) (data.drop 64)

/-- The node over two subtrees. -/
def parentNode (key : Chain) (flags : UInt32) (left right : Node) : Node :=
  let l := left.compress 0
  let r := right.compress 0
  ⟨key, ⟨l.low, l.high, r.low, r.high⟩, 0, 64, flags ||| parent⟩

/-- The top node of the tree over `count` chunks, the first of which has
number `start`.  `depth` is large enough that `count ≤ 2 ^ depth`; a left
subtree holds the largest power of two of chunks that leaves some to the
right. -/
def subtree (key : Chain) (flags : UInt32) :
    (depth start count : Nat) → Bytes → Node
  | 0, start, _, data => chunkNode flags (UInt64.ofNat start) 16 chunkStart key data
  | depth + 1, start, count, data =>
      if count ≤ 2 ^ depth then
        subtree key flags depth start count data
      else
        let split := 2 ^ depth
        parentNode key flags
          (subtree key flags depth start split (data.take (1024 * split)))
          (subtree key flags depth (start + split) (count - split) (data.drop (1024 * split)))

/-- Thirty-two octets of output. -/
def digest (key : Chain) (flags : UInt32) (data : Bytes) : Chain :=
  let count := (data.length + 1023) / 1024
  (subtree key flags (Nat.log2 count + 1) 0 count data).compress root

/-- A digest, as octets. -/
def Chain.toDigest (c : Chain) : Octets 32 :=
  ⟨c.octets, by simp [Chain.octets]⟩

/-- The digest of some data. -/
def hash (data : Bytes) : Octets 32 :=
  (digest initial 0 data).toDigest

/-- The digest of some key material under a context. -/
def deriveKey (context material : Bytes) : Octets 32 :=
  (digest (digest initial contextMode context) materialMode material).toDigest

end KeyExchange.Blake3
