import KeyExchange.BasicFault
import KeyExchange.Curve.Agreement
import KeyExchange.Curve.EdDsa
import KeyExchange.Digest.Blake3
import KeyExchange.Entropy

/-!
# Keys, signatures and fingerprints

Octet strings of the same length mean different things, so each meaning has
a type of its own: the key that verifies signatures, the key that others
agree with, a signature, the hash that identifies a certificate, a symmetric
key, a nonce.

`SharedSecret` is the outcome of a key agreement.  It shows whether both
parties contributed; one that is not contributory must not be used.
-/

namespace KeyExchange

/-- The first sixteen digits of an octet string, as it is shown in short. -/
def briefHex {n : Nat} (o : Octets n) : String :=
  String.ofList ((Text.Hex.encodeChars o.toList).take 16)

/-- The hexadecimal text of a fixed-length string. -/
def Octets.toHex {n : Nat} (o : Octets n) : String := Text.Hex.encode o.toList

/-- The identity of a certificate. -/
structure Fingerprint where
  octets : Octets 32
deriving DecidableEq

namespace Fingerprint

def ofHex (text : String) : Except BasicFault Fingerprint :=
  return ⟨← fixedHexField 32 "fingerprint" text⟩

def describe (f : Fingerprint) : String := "Fingerprint(" ++ briefHex f.octets ++ ")"

end Fingerprint

/-- A signature. -/
structure Signature where
  octets : Octets 64
deriving DecidableEq

namespace Signature

def ofHex (text : String) : Except BasicFault Signature :=
  return ⟨← fixedHexField 64 "signature" text⟩

def describe (s : Signature) : String := "Ed25519Sig(" ++ briefHex s.octets ++ "...)"

end Signature

/-- A key that verifies signatures. -/
structure VerifyingKey where
  octets : Octets 32
deriving DecidableEq

namespace VerifyingKey

def ofHex (text : String) : Except BasicFault VerifyingKey :=
  return ⟨← fixedHexField 32 "signing_key" text⟩

def describe (k : VerifyingKey) : String := "Ed25519Pub(" ++ briefHex k.octets ++ ")"

/-- The fault that a verdict stands for, if any. -/
def outcomeOf : EdDsa.Verdict → Except BasicFault Unit
  | .valid => .ok ()
  | .badKey => .error .invalidPublicKey
  | .badSignature => .error .invalidSignature

/-- The signature is one of this message under this key.  A key that is no
point of the curve is reported before the signature is looked at. -/
def verify (key : VerifyingKey) (message : Bytes) (signature : Signature) :
    Except BasicFault Unit :=
  outcomeOf (EdDsa.verify key.octets message signature.octets)

end VerifyingKey

/-- A key that others agree with. -/
structure AgreementKey where
  octets : Octets 32
deriving DecidableEq

namespace AgreementKey

def ofHex (text : String) : Except BasicFault AgreementKey :=
  return ⟨← fixedHexField 32 "encryption_key" text⟩

def describe (k : AgreementKey) : String := "X25519Pub(" ++ briefHex k.octets ++ ")"

end AgreementKey

/-- The seed of a signing key. -/
structure SigningSeed where
  octets : Octets 32
deriving DecidableEq

namespace SigningSeed

def publicKey (seed : SigningSeed) : VerifyingKey := ⟨EdDsa.publicKey seed.octets⟩

def sign (seed : SigningSeed) (message : Bytes) : Signature := ⟨EdDsa.sign seed.octets message⟩

/-- A key pair is shown by its public half only. -/
def describe (seed : SigningSeed) : String := "Keypair(" ++ seed.publicKey.describe ++ ")"

def generate {ε : Type} : Drawing ε SigningSeed := return ⟨← draw 32⟩

end SigningSeed

/-- What two parties agreed on. -/
structure SharedSecret where
  octets : Octets 32
deriving DecidableEq

namespace SharedSecret

/-- Both parties contributed: the secret is not the one that a peer key of
small order forces. -/
def isContributory (s : SharedSecret) : Bool := Agreement.isContributory s.octets

/-- Thirty-two octets of key material, bound to a context and to `info`. -/
def deriveKey (s : SharedSecret) (context info : Bytes) : Octets 32 :=
  Blake3.deriveKey context (s.octets.toList ++ info)

end SharedSecret

/-- A secret for key agreement. -/
structure AgreementSecret where
  octets : Octets 32
deriving DecidableEq

namespace AgreementSecret

def publicKey (s : AgreementSecret) : AgreementKey := ⟨Agreement.publicKey s.octets⟩

/-- What the holder of this secret and the holder of the peer key's secret
both reach. -/
def agree (s : AgreementSecret) (peer : AgreementKey) : SharedSecret :=
  ⟨Agreement.shared s.octets peer.octets⟩

def generate {ε : Type} : Drawing ε AgreementSecret := return ⟨← draw 32⟩

end AgreementSecret

/-- A key for authenticated encryption. -/
structure SymmetricKey where
  octets : Octets 32
deriving DecidableEq

def SymmetricKey.generate {ε : Type} : Drawing ε SymmetricKey := return ⟨← draw 32⟩

/-- A number used once with a key. -/
structure Nonce where
  octets : Octets 12
deriving DecidableEq

def Nonce.generate {ε : Type} : Drawing ε Nonce := return ⟨← draw 12⟩

/-- How a digest is shown. -/
def describeDigest (digest : Octets 32) : String := "Blake3(" ++ briefHex digest ++ ")"

end KeyExchange
