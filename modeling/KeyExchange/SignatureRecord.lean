import KeyExchange.Certificate

/-!
# Signature records and what is observed of them

A signature on a part of a document is kept with the certificate of its
signer, so it can be checked without asking anybody.  What is signed is the
content behind a fixed prefix.

A signature that fails is no error.  It is reported, beside those that hold,
and a caller decides what to make of it:

* `Outcome`: what checking one record says;
* `SectionReport`: the signers of a section, each named once, in the order in
  which they were first met;
* `SignatureReport`: all that was observed on a document.
-/

namespace KeyExchange

/-- What stands before signed content. -/
def signDomain : String := "cpix/scope-sig/v1"

/-- The message that is signed for some content. -/
def signedMessage (content : Bytes) : Bytes := Text.Utf8.ofString signDomain ++ content

/-- A signature and the certificate of its signer. -/
structure SignatureRecord where
  certificate : Certificate
  signature : Signature
deriving DecidableEq

/-- What checking a record says. -/
inductive Outcome where
  | valid (signer : Certificate)
  /-- The record claims this signer, wrongly. -/
  | invalid (claimed : Certificate)
deriving DecidableEq

def Outcome.isValid : Outcome → Bool
  | .valid _ => true
  | .invalid _ => false

/-- The outcome for a signer whose signature was verified with this result. -/
def Outcome.ofVerification (signer : Certificate) : Except BasicFault Unit → Outcome
  | .ok () => .valid signer
  | .error _ => .invalid signer

namespace SignatureRecord

/-- The record of a signer for some content. -/
def create (content : Bytes) (signer : Credential) : SignatureRecord :=
  ⟨signer.certificate, signer.sign (signedMessage content)⟩

/-- The record checked against some content, under its own certificate. -/
def check (r : SignatureRecord) (content : Bytes) : Outcome :=
  .ofVerification r.certificate
    (r.certificate.signingKey.verify (signedMessage content) r.signature)

end SignatureRecord

/-- What was observed of the signature on a whole document. -/
inductive Observation where
  | unsigned
  | valid (signer : Certificate)
  | invalid (claimed : Certificate)
deriving DecidableEq

namespace Observation

def ofOutcome : Outcome → Observation
  | .valid signer => .valid signer
  | .invalid claimed => .invalid claimed

/-- The signer, when the signature holds. -/
def signer? : Observation → Option Certificate
  | .valid signer => some signer
  | _ => none

/-- The certificate's holder signed the document. -/
def isSignedBy (o : Observation) (certificate : Certificate) : Bool :=
  o.signer? == some certificate

end Observation

/-- `certificate` behind those already listed, unless it is one of them. -/
def appendNew (certificate : Certificate) (listed : List Certificate) : List Certificate :=
  if certificate ∈ listed then listed else listed ++ [certificate]

/-- Signers observed on one section. -/
structure SectionReport where
  /-- Those whose signature holds. -/
  valid : List Certificate
  /-- Those named by a signature that does not. -/
  invalid : List Certificate
deriving DecidableEq

namespace SectionReport

/-- Nothing was signed. -/
def empty : SectionReport := ⟨[], []⟩

/-- The report with one more outcome. -/
def record (r : SectionReport) : Outcome → SectionReport
  | .valid signer => { r with valid := appendNew signer r.valid }
  | .invalid claimed => { r with invalid := appendNew claimed r.invalid }

/-- The certificate's holder signed the section. -/
def isSignedBy (r : SectionReport) (certificate : Certificate) : Bool :=
  r.valid.contains certificate

/-- There was no signature at all. -/
def isUnsigned (r : SectionReport) : Bool := r.valid.isEmpty && r.invalid.isEmpty

end SectionReport

/-- All signatures observed on a document. -/
structure SignatureReport where
  document : Observation
  contentKeys : SectionReport
  usageRules : SectionReport
deriving DecidableEq

/-- Some signature does not hold. -/
def SignatureReport.hasInvalid (r : SignatureReport) : Bool :=
  (match r.document with
    | .invalid _ => true
    | _ => false)
    || !r.contentKeys.invalid.isEmpty || !r.usageRules.invalid.isEmpty

end KeyExchange
