import KeyExchange.Keys
import KeyExchange.Text.Quoted

/-!
# Certificates and credentials

A certificate is the public half of a party: a name, a key that verifies its
signatures and a key that secrets are sent to.  Its identity is its
fingerprint, a hash of its canonical encoding under a context of its own.

A credential is the private half.  It carries its certificate with it, and
the two keys of that certificate are those of its secrets.  Whether a
certificate deserves trust is for the caller to say.
-/

namespace KeyExchange

/-- A public key credential. -/
structure Certificate where
  subject : String
  signingKey : VerifyingKey
  encryptionKey : AgreementKey
deriving DecidableEq

namespace Certificate

/-- The context in which fingerprints are hashed. -/
def fingerprintContext : String := "cpix 2024 certificate fingerprint v1"

/-- The content of a certificate. -/
def toCbor (c : Certificate) : Cbor :=
  .map [Cbor.field 0 (.text c.subject),
        Cbor.field 1 (.octets c.signingKey.octets),
        Cbor.field 2 (.octets c.encryptionKey.octets)]

/-- The identity of a certificate. -/
def fingerprint (c : Certificate) : Except BasicFault Fingerprint := do
  let encoded ← canonicalBytes c.toCbor
  return ⟨Blake3.deriveKey (Text.Utf8.ofString fingerprintContext) encoded⟩

def describe (c : Certificate) : String :=
  "Certificate \x7b subject: " ++ Text.quote c.subject
    ++ ", signing_key: " ++ c.signingKey.describe ++ " \x7d"

end Certificate

/-- A party's secrets, with the certificate that belongs to them. -/
structure Credential where
  seed : SigningSeed
  secret : AgreementSecret
  certificate : Certificate
  signingKey_eq : certificate.signingKey = seed.publicKey
  encryptionKey_eq : certificate.encryptionKey = secret.publicKey

namespace Credential

/-- The credential of two secrets under a name. -/
def ofParts (subject : String) (seed : SigningSeed) (secret : AgreementSecret) : Credential where
  seed := seed
  secret := secret
  certificate := ⟨subject, seed.publicKey, secret.publicKey⟩
  signingKey_eq := rfl
  encryptionKey_eq := rfl

/-- The context in which the agreement secret is derived from a seed. -/
def seedContext : String := "cpix 2024 credential seed expansion v1"

/-- The credential that one seed stands for. -/
def ofSeed (subject : String) (seed : Octets 32) : Credential :=
  ofParts subject ⟨seed⟩ ⟨Blake3.deriveKey (Text.Utf8.ofString seedContext) seed.toList⟩

/-- A fresh credential. -/
def generate {ε : Type} (subject : String) : Drawing ε Credential := do
  let seed ← SigningSeed.generate
  let secret ← AgreementSecret.generate
  return ofParts subject seed secret

def fingerprint (c : Credential) : Except BasicFault Fingerprint := c.certificate.fingerprint

def sign (c : Credential) (message : Bytes) : Signature := c.seed.sign message

def agree (c : Credential) (peer : AgreementKey) : SharedSecret := c.secret.agree peer

/-- A credential is shown by its name only. -/
def describe (c : Credential) : String :=
  "Credential(" ++ Text.quote c.certificate.subject ++ ")"

end Credential

end KeyExchange
