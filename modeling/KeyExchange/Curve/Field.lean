/-!
# The field of 2^255 - 19 elements

An element is a number below the prime; every operation reduces its result.
Inverses and square roots are powers: the prime is 5 modulo 8, so a root of a
square `a` is the power of `a` with exponent (p + 3) / 8, or that times a
root of minus one.
-/

namespace KeyExchange.CurveField

/-- The number of elements. -/
def prime : Nat := 1 <<< 255 - 19

def add (a b : Nat) : Nat := (a + b) % prime

def sub (a b : Nat) : Nat := (a + (prime - b % prime)) % prime

def mul (a b : Nat) : Nat := a * b % prime

def neg (a : Nat) : Nat := sub 0 a

/-- `a` to the power `e`, for an exponent of at most `bits` bits. -/
def powBits : (bits a e : Nat) → Nat
  | 0, _, _ => 1
  | bits + 1, a, e =>
      let rest := powBits bits (mul a a) (e / 2)
      if e % 2 = 1 then mul a rest else rest

/-- `a` to the power `e`, for `e` below 2^255. -/
def pow (a e : Nat) : Nat := powBits 255 a e

/-- The inverse of an element, zero for zero. -/
def inv (a : Nat) : Nat := pow a (prime - 2)

/-- A square root of minus one. -/
def rootOfMinusOne : Nat :=
  19681161376707505956807079304988542015446066515923890162744021073123829784752

/-- The even square root of `u / v`, if that is a square. -/
def ratioRoot? (u v : Nat) : Option Nat :=
  let v3 := mul (mul v v) v
  let v7 := mul (mul v3 v3) v
  let r := mul (mul u v3) (pow (mul u v7) ((prime - 5) / 8))
  let check := mul v (mul r r)
  let root? :=
    if check = u % prime then some r
    else if check = neg u then some (mul r rootOfMinusOne)
    else none
  root?.map fun r => if r % 2 = 1 then neg r else r

end KeyExchange.CurveField
