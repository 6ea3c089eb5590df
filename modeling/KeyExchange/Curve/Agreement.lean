import KeyExchange.Curve.Field
import KeyExchange.Octets

/-!
# Key agreement

Two parties that hold each other's public keys reach the same secret: the
ladder multiplies a point, known by its u coordinate on the Montgomery form
of the curve, by a secret scalar.

The top bit of a peer's key is ignored.  A peer key of small order leads to
the secret zero whatever the scalar; such an agreement is not contributory.
-/

namespace KeyExchange.Agreement

open CurveField

/-- Two points of the ladder, whose difference is fixed, in projective u
coordinates. -/
structure Rung where
  x2 : Nat
  z2 : Nat
  x3 : Nat
  z3 : Nat

/-- The first point doubled and the sum of both, where `u` is the coordinate
of their difference. -/
def Rung.step (u : Nat) (r : Rung) : Rung :=
  let a := add r.x2 r.z2
  let aa := mul a a
  let b := sub r.x2 r.z2
  let bb := mul b b
  let e := sub aa bb
  let da := mul (sub r.x3 r.z3) a
  let cb := mul (add r.x3 r.z3) b
  let s := add da cb
  let d := sub da cb
  ⟨mul aa bb, mul e (add aa (mul 121665 e)), mul s s, mul u (mul d d)⟩

def Rung.swap (r : Rung) : Rung := ⟨r.x3, r.z3, r.x2, r.z2⟩

/-- The rung for the first `bits` bits of `k`, counted from bit `bits - 1`
down. -/
def ladder (u : Nat) : (bits k : Nat) → Rung → Rung
  | 0, _, r => r
  | bits + 1, k, r =>
      let next :=
        if k / (1 <<< bits) % 2 = 1 then (r.swap.step u).swap else r.step u
      ladder u bits k next

/-- A secret with the bits that a scalar must and must not have. -/
def scalarOf (secret : Octets 32) : Nat :=
  littleEndian secret.toList % (1 <<< 254) / 8 * 8 + 1 <<< 254

/-- The scalar multiple of the point with coordinate `u`. -/
def multiply (k u : Nat) : Octets 32 :=
  let r := ladder u 255 k ⟨1, 0, u, 1⟩
  Octets.ofNatLE 32 (mul r.x2 (inv r.z2))

/-- The public key of a secret. -/
def publicKey (secret : Octets 32) : Octets 32 :=
  multiply (scalarOf secret) 9

/-- The secret shared with the holder of a peer key. -/
def shared (secret peer : Octets 32) : Octets 32 :=
  multiply (scalarOf secret) (littleEndian peer.toList % (1 <<< 255) % prime)

/-- The shared secret depends on both parties. -/
def isContributory (secret : Octets 32) : Bool :=
  secret.toList.any (· != 0)

end KeyExchange.Agreement
