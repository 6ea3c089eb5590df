import KeyExchange.Octets

/-!
# Numbers in JSON text

A number is kept as it is spelled.  What matters of it is its `kind`: an
integer that fits sixty-four bits without or with sign, a number that is no
such integer, or one that is too large for a double.

Too large is a matter of arithmetic on doubles, and it is decided here exactly.
The digits that fit sixty-four bits are taken as one number and rounded to a
double, so is the power of ten that is to be multiplied, and the product is too
large when it is half a unit above the largest double or more.
-/

namespace KeyExchange.Json

/-- A number as it is spelled; digits are octets. -/
structure Number where
  negative : Bool
  /-- The digits before the point. -/
  whole : Bytes
  /-- The digits after the point; none when there is no point. -/
  fraction : Bytes
  /-- The exponent: it is negative, and its digits. -/
  exponent : Option (Bool × Bytes)
deriving DecidableEq

/-- What a number can be used for. -/
inductive NumberKind where
  /-- An integer from 0 to 2^64 - 1. -/
  | natural (n : Nat)
  /-- An integer from -2^63 to -1. -/
  | negative
  /-- Any other number; zero with a minus sign is one. -/
  | other
  /-- A number too large for a double. -/
  | tooLarge
deriving DecidableEq

namespace Number

def isDigit (b : UInt8) : Bool := 48 ≤ b && b ≤ 57

/-- The number that some digits spell behind the digits of `start`. -/
def digitsValue (start : Nat) (digits : Bytes) : Nat :=
  digits.foldl (fun n d => 10 * n + (d.toNat - 48)) start

/-- The digits of a number in base ten. -/
def digitsOf (n : Nat) : Bytes :=
  (Nat.toDigits 10 n).map fun c => UInt8.ofNat c.toNat

/-- The number with the digits of a natural number. -/
def ofNat (n : Nat) : Number := ⟨false, digitsOf n, [], none⟩

/-- The digits written behind `n` one by one as long as the number stays below
2^64: the number they make, and how many were written. -/
def absorb : Nat → Bytes → Nat × Nat
  | n, [] => (n, 0)
  | n, d :: rest =>
      let m := 10 * n + (d.toNat - 48)
      if m < 1 <<< 64 then
        let (result, count) := absorb m rest
        (result, count + 1)
      else (n, 0)

/-- The double nearest to a natural number, of two equally near ones the even
one. -/
def nearestDouble (n : Nat) : Nat :=
  if n < 1 <<< 53 then n
  else
    let unit := 1 <<< (Nat.log2 n - 52)
    let floor := n / unit
    let rest := n % unit
    if unit < 2 * rest ∨ (unit = 2 * rest ∧ floor % 2 = 1) then (floor + 1) * unit
    else floor * unit

/-- The least number that is rounded to infinity. -/
def doubleLimit : Nat := 1 <<< 1024 - 1 <<< 970

/-- The number is too large for a double. -/
def isTooLarge (x : Number) : Bool :=
  let (n, count) := absorb 0 x.whole
  let (n, fractionCount) := absorb n x.fraction
  let written : Int :=
    match x.exponent with
    | none => 0
    | some (false, digits) => digitsValue 0 digits
    | some (true, digits) => -digitsValue 0 digits
  let power : Int := x.whole.length - count - fractionCount + written
  match power with
  | .ofNat e =>
      n ≠ 0 && (308 < e || doubleLimit ≤ nearestDouble n * nearestDouble (Nat.pow 10 e))
  | .negSucc _ => false

/-- What a number can be used for. -/
def kind (x : Number) : NumberKind :=
  let n := digitsValue 0 x.whole
  if x.fraction.isEmpty && x.exponent.isNone && n < 1 <<< 64 then
    if x.negative then
      if n = 0 ∨ 1 <<< 63 < n then .other else .negative
    else .natural n
  else if x.isTooLarge then .tooLarge
  else .other

/-- The octets of a number. -/
def render (x : Number) : Bytes :=
  (if x.negative then [45] else []) ++ x.whole
    ++ (if x.fraction.isEmpty then [] else 46 :: x.fraction)
    ++ (match x.exponent with
        | none => []
        | some (false, digits) => 101 :: digits
        | some (true, digits) => 101 :: 45 :: digits)

/-- Digits at the start of a text, and what follows them. -/
def takeDigits (s : Bytes) : Bytes × Bytes := (s.takeWhile isDigit, s.dropWhile isDigit)

/-- A fraction at the start of a text, and what follows it. -/
def scanFraction : Bytes → Option (Bytes × Bytes)
  | 46 :: rest =>
      let (digits, rest) := takeDigits rest
      if digits.isEmpty then none else some (digits, rest)
  | rest => some ([], rest)

/-- An exponent at the start of a text, and what follows it. -/
def scanExponent : Bytes → Option (Option (Bool × Bytes) × Bytes)
  | [] => some (none, [])
  | b :: rest =>
      if b = 101 ∨ b = 69 then
        let (negative, rest) :=
          match rest with
          | 43 :: rest => (false, rest)
          | 45 :: rest => (true, rest)
          | rest => (false, rest)
        let (digits, rest) := takeDigits rest
        if digits.isEmpty then none else some (some (negative, digits), rest)
      else some (none, b :: rest)

/-- A number at the start of a text, and what follows it.  There is at least
one digit before the point, and no needless zero in front. -/
def scan (s : Bytes) : Option (Number × Bytes) := do
  let (negative, s) :=
    match s with
    | 45 :: rest => (true, rest)
    | rest => (false, rest)
  let (whole, s) := takeDigits s
  guard (whole = [48] ∨ (whole ≠ [] ∧ whole.head? ≠ some 48))
  let (fraction, s) ← scanFraction s
  let (exponent, s) ← scanExponent s
  return (⟨negative, whole, fraction, exponent⟩, s)

end Number

end KeyExchange.Json
