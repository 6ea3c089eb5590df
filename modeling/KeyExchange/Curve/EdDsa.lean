import KeyExchange.Curve.Edwards
import KeyExchange.Digest.Sha512

/-!
# Signatures on the Edwards curve

The digest of a seed gives a secret scalar and a secret string.  A signature
is a point `R`, made from the secret string and the message, and a number
`S` that answers for it.  To verify is to compute from `S`, the public key
and the message the only `R` that fits, and to compare its octets.

The public key enters the digest as it was given, and no point is refused for
its order: a key of small order verifies signatures that nobody made.
-/

namespace KeyExchange.EdDsa

open Edwards

/-- The number spelled by a digest. -/
def scalarOf (digest : Octets 64) : Nat :=
  littleEndian digest.toList % order

/-- A number with the bits that a secret scalar must and must not have. -/
def clamp (n : Nat) : Nat :=
  n % (1 <<< 254) / 8 * 8 + 1 <<< 254

/-- The secret scalar of a seed. -/
def secretScalar (seed : Octets 32) : Nat :=
  clamp (littleEndian ((Sha512.hash seed.toList).toList.take 32))

/-- The public key of a seed. -/
def publicKey (seed : Octets 32) : Octets 32 :=
  (base.scale (secretScalar seed)).compress

/-- The signature of a message. -/
def sign (seed : Octets 32) (message : Bytes) : Octets 64 :=
  let expanded := (Sha512.hash seed.toList).toList
  let a := clamp (littleEndian (expanded.take 32))
  let key := (base.scale a).compress
  let r := scalarOf (Sha512.hash (expanded.drop 32 ++ message))
  let point := (base.scale r).compress
  let k := scalarOf (Sha512.hash (point.toList ++ key.toList ++ message))
  ⟨point.toList ++ ofNatLE 32 ((k * a + r) % order), by simp [point.length_toList]⟩

/-- What verification says about a signature. -/
inductive Verdict where
  | valid
  | badKey
  | badSignature
deriving DecidableEq

/-- What verification says about a signature once its key was read. -/
def judge (point : Point) (key : Octets 32) (message : Bytes) (signature : Octets 64) : Verdict :=
  let claimed := signature.toList.take 32
  let s := littleEndian (signature.toList.drop 32)
  if order ≤ s then .badSignature
  else
    let k := scalarOf (Sha512.hash (claimed ++ key.toList ++ message))
    let expected := ((base.scale s).add (point.neg.scale k)).compress
    if expected.toList = claimed then .valid else .badSignature

/-- Verification.  The key is looked at before the signature. -/
def verify (key : Octets 32) (message : Bytes) (signature : Octets 64) : Verdict :=
  ((decompress? key).map fun point => judge point key message signature).getD .badKey

end KeyExchange.EdDsa
