import KeyExchange.Curve.Field
import KeyExchange.Octets

/-!
# The twisted Edwards curve

The points of -x² + y² = 1 + d x² y² form a group whose addition law has no
exceptions, so one formula serves for all points, also those of small order.
A point is kept in extended coordinates: x = X / Z, y = Y / Z, x y = T / Z.

A point is written as its y coordinate with the parity of x in the top bit.
Reading takes y modulo the prime, so some points have a second spelling.
-/

namespace KeyExchange.Edwards

open CurveField

/-- A point in extended coordinates. -/
structure Point where
  x : Nat
  y : Nat
  z : Nat
  t : Nat
deriving DecidableEq

/-- The constant d of the curve, -121665 / 121666. -/
def coefficient : Nat :=
  37095705934669439343138083508754565189542113879843219016388785533085940283555

/-- The neutral element. -/
def identity : Point := ⟨0, 1, 1, 0⟩

/-- The generator of the subgroup of prime order. -/
def base : Point :=
  ⟨15112221349535400772501151409588531511454012693041857206046113283949847762202,
   46316835694926478169428394003475163141307993866256225615783033603165251855960,
   1,
   46827403850823179245072216630277197565144205554125654976674165829533817101731⟩

/-- The order of the subgroup that the generator generates. -/
def order : Nat := 1 <<< 252 + 27742317777372353535851937790883648493

def Point.add (p q : Point) : Point :=
  let a := mul (sub p.y p.x) (sub q.y q.x)
  let b := mul (CurveField.add p.y p.x) (CurveField.add q.y q.x)
  let c := mul (mul p.t (2 * coefficient % prime)) q.t
  let d := mul (CurveField.add p.z p.z) q.z
  let e := sub b a
  let f := sub d c
  let g := CurveField.add d c
  let h := CurveField.add b a
  ⟨mul e f, mul g h, mul f g, mul e h⟩

def Point.double (p : Point) : Point :=
  let a := mul p.x p.x
  let b := mul p.y p.y
  let c := mul 2 (mul p.z p.z)
  let h := CurveField.add a b
  let s := CurveField.add p.x p.y
  let e := sub h (mul s s)
  let g := sub a b
  let f := CurveField.add c g
  ⟨mul e f, mul g h, mul f g, mul e h⟩

def Point.neg (p : Point) : Point :=
  ⟨CurveField.neg p.x, p.y, p.z, CurveField.neg p.t⟩

/-- `k` times a point, for a `k` of at most `bits` bits. -/
def Point.scaleBits : (bits k : Nat) → Point → Point
  | 0, _, _ => identity
  | bits + 1, k, p =>
      let rest := Point.scaleBits bits (k / 2) p.double
      if k % 2 = 1 then p.add rest else rest

/-- `k` times a point, for `k` below 2^256. -/
def Point.scale (k : Nat) (p : Point) : Point := p.scaleBits 256 k

/-- The thirty-two octets of a point. -/
def Point.compress (p : Point) : Octets 32 :=
  let zi := inv p.z
  let x := mul p.x zi
  let y := mul p.y zi
  Octets.ofNatLE 32 (y + (x % 2) * (1 <<< 255))

/-- The point with the given spelling, if there is one.  A point with x = 0
may be spelled with either parity. -/
def decompress? (s : Octets 32) : Option Point :=
  let n := littleEndian s.toList
  let y := n % (1 <<< 255) % prime
  let yy := mul y y
  let u := sub yy 1
  let v := CurveField.add (mul yy coefficient) 1
  (ratioRoot? u v).map fun r =>
    let x := if n / (1 <<< 255) % 2 = 1 then CurveField.neg r else r
    ⟨x, y, 1, mul x y⟩

end KeyExchange.Edwards
