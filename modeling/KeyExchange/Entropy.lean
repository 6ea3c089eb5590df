import KeyExchange.Cipher.ChaCha

/-!
# Random sources

The library makes no randomness of its own: a caller hands it an endless
stream of octets, and every secret, id and nonce is a piece cut from it.  A
source remembers how far it has been used, so a piece is never cut twice.

* `draw`: the next `n` octets;
* `cycle`: a source that repeats a given string;
* `seeded`: the reproducible source of a 64-bit seed.
-/

namespace KeyExchange

/-- A stream of octets and the number of those that were already drawn. -/
structure Entropy where
  byteAt : Nat → UInt8
  position : Nat

/-- A computation that may draw octets and may fail.  What was drawn before a
failure stays drawn. -/
abbrev Drawing (ε : Type) : Type → Type := ExceptT ε (StateM Entropy)

namespace Entropy

/-- The `n` octets of the stream from `start` on. -/
def slice (e : Entropy) (start n : Nat) : Octets n :=
  ⟨(List.range n).map fun i => e.byteAt (start + i), by simp⟩

/-- The source that hands out `seed` over and over; zeros when it is empty. -/
def cycle (seed : Bytes) : Entropy where
  byteAt i := seed.getD (i % seed.length) 0
  position := 0

/-- One step of the generator that spreads a seed over a key. -/
def seedStep (state : UInt64) : UInt64 :=
  state * 6364136223846793005 + 11634580027462260723

/-- The word that a state of that generator stands for. -/
def seedWord (state : UInt64) : UInt32 :=
  let x := (((state >>> 18) ^^^ state) >>> 27).toUInt32
  let turn := (state >>> 59).toUInt32
  (x >>> turn) ||| (x <<< (32 - turn))

/-- The words of the `count` states after `state`. -/
def seedWords : (count : Nat) → (state : UInt64) → List UInt32
  | 0, _ => []
  | count + 1, state =>
      let state := seedStep state
      seedWord state :: seedWords count state

/-- The key that a seed is spread over. -/
def seedKey (seed : UInt64) : ChaCha.Key :=
  let (low, rest) := Row.ofWords (seedWords 8 seed)
  ⟨low, (Row.ofWords rest).1⟩

/-- The keystream of a seed: twelve rounds, blocks counted with 64 bits. -/
def seeded (seed : UInt64) : Entropy where
  byteAt i :=
    let counter := i / 64
    let position : Row := ⟨UInt32.ofNat counter, UInt32.ofNat (counter / (1 <<< 32)), 0, 0⟩
    (ChaCha.block 6 (seedKey seed) position).getD (i % 64) 0
  position := 0

end Entropy

/-- A computation that draws nothing. -/
def liftExcept {ε α : Type} (outcome : Except ε α) : Drawing ε α :=
  fun e => (outcome, e)

/-- The next `n` octets of the source. -/
def draw {ε : Type} (n : Nat) : Drawing ε (Octets n) :=
  fun e => (.ok (e.slice e.position n), { e with position := e.position + n })

end KeyExchange
