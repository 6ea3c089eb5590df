import KeyExchange.Proofs.Curve.SmallKey
import KeyExchange.Proofs.Document.Report

/-!
# Records and the scopes they serve

The octets of a scope begin with the number of the scope, so the messages that
are signed for two scopes of a document are different.  Whether one record can
hold for both depends on its key.  Under the key of a credential it would take
two messages whose digests agree modulo the order of the group.  Under a key of
small order it takes nothing of the kind: such keys are accepted, and one record
under the neutral key holds for every scope of every document.

* `getElem?_scopeBytes`: the number of the scope in its octets;
* `holds_iff_challenge_eq`: when a record holds for a second content;
* `serves_one_scope`: which records serve one scope only;
* `neutralRecord_serves_both`: one that does not.
-/

namespace KeyExchange

open Cbor Outcome

/-- The key is a point of small order. -/
def VerifyingKey.isSmall (key : VerifyingKey) : Bool := EdDsa.isSmall key.octets

/-- Of all verdicts one is a success. -/
theorem VerifyingKey.outcomeOf_eq_ok_iff {verdict : EdDsa.Verdict} :
    outcomeOf verdict = .ok () ↔ verdict = .valid := by
  cases verdict <;> simp [outcomeOf]

/-- **Credentials have no small keys.** -/
theorem Credential.isSmall_signingKey (c : Credential) :
    c.certificate.signingKey.isSmall = false := by
  rw [c.signingKey_eq]
  exact EdDsa.isSmall_publicKey c.seed.octets

/-! ## Messages for two scopes -/

namespace StoredDocument

/-- The third octet of a scope is its number. -/
theorem getElem?_scopeBytes {d : StoredDocument} {s : Scope} {content : Bytes}
    (h : d.scopeBytes s = .ok content) : content[2]? = some (UInt8.ofNat s.number.toNat) := by
  have hcanonical := mapError_eq_ok_iff.1 h
  rw [scopeContent_eq] at hcanonical
  obtain ⟨pieces, hpieces, rfl⟩ :=
    (canonical_record_eq_ok_iff (d.scopeFields_ascending s)).1 hcanonical
  have hlength := hpieces.length_eq
  rw [← hlength]
  cases s with
  | contentKeys | usageRules | wholeDocument =>
      cases hpieces with
      | @cons _ piece _ rest hfirst _ =>
          obtain ⟨name, value⟩ := piece
          obtain ⟨rfl, hnumber⟩ := hfirst
          obtain rfl := Except.ok.inj hnumber
          rfl

/-- **Different scopes have different messages.** -/
theorem signedMessage_ne {d : StoredDocument} {s t : Scope} (hst : s ≠ t) {c c' : Bytes}
    (hs : d.scopeBytes s = .ok c) (ht : d.scopeBytes t = .ok c') :
    signedMessage c ≠ signedMessage c' := by
  intro hsame
  have hcontent : c = c' := List.append_cancel_left hsame
  have hnumber := getElem?_scopeBytes hs
  rw [hcontent, getElem?_scopeBytes ht] at hnumber
  apply hst
  cases s <;> cases t <;> first | rfl | exact absurd hnumber (by decide)

end StoredDocument

/-! ## Records that hold twice -/

namespace SignatureRecord

/-- The multiple of the key that the record has to answer for on some content. -/
def challenge (r : SignatureRecord) (content : Bytes) : Nat :=
  EdDsa.challenge r.certificate.signingKey.octets r.signature.octets (signedMessage content)

/-- The digests of two different messages agree, for this record, modulo the order of
the group. -/
def Collides (r : SignatureRecord) (c c' : Bytes) : Prop :=
  signedMessage c ≠ signedMessage c' ∧ r.challenge c = r.challenge c'

/-- What checking says of a record is whether it holds. -/
theorem isValid_check_iff {r : SignatureRecord} {c : Bytes} :
    (r.check c).isValid = true ↔ r.Holds c := by
  by_cases h : r.Holds c
  · rw [check_of_holds h]
    exact iff_of_true rfl h
  · rw [check_of_not_holds h]
    exact iff_of_false Bool.false_ne_true h

/-- A record holds when its signature is valid for the signed message. -/
theorem holds_iff_verify {r : SignatureRecord} {c : Bytes} :
    r.Holds c ↔ EdDsa.verify r.certificate.signingKey.octets (signedMessage c) r.signature.octets
      = .valid :=
  VerifyingKey.outcomeOf_eq_ok_iff

/-- A record under a key that is not small, which holds for one content, holds for
another exactly when both call for one multiple of the key. -/
theorem holds_iff_challenge_eq {r : SignatureRecord} {c c' : Bytes}
    (hkey : r.certificate.signingKey.isSmall = false) (h : r.Holds c) :
    r.Holds c' ↔ r.challenge c = r.challenge c' :=
  holds_iff_verify.trans (EdDsa.verify_iff_challenge_eq hkey (holds_iff_verify.1 h))

/-- **Records serve one scope.**  Under a key that is not small, as no credential's is, a
record that holds for one scope of a document holds for another exactly when the
digests of the two messages, which are different, agree modulo the order of the
group. -/
theorem serves_one_scope {d : StoredDocument} {r : SignatureRecord} {s t : Scope} {c c' : Bytes}
    (hst : s ≠ t) (hs : d.scopeBytes s = .ok c) (ht : d.scopeBytes t = .ok c')
    (hkey : r.certificate.signingKey.isSmall = false) (hvalid : (r.check c).isValid = true) :
    (r.check c').isValid = true ↔ r.Collides c c' := by
  have hmessages := StoredDocument.signedMessage_ne hst hs ht
  rw [isValid_check_iff, holds_iff_challenge_eq hkey (isValid_check_iff.1 hvalid), Collides]
  exact (and_iff_right hmessages).symm

/-- The octets of a scope of a small document. -/
def bareContent (s : Scope) : Bytes :=
  ((StoredDocument.bareDocument formatVersion [] none).scopeBytes s).toOption.getD []

/-- The octets that are signed for a scope of the bare document. -/
theorem scopeBytes_bareDocument (s : Scope) :
    (StoredDocument.bareDocument formatVersion [] none).scopeBytes s = .ok (bareContent s) := by
  obtain ⟨c, hc⟩ := (StoredDocument.bareDocument formatVersion [] none).exists_scopeBytes s
  rw [bareContent, hc]
  rfl

/-- The producer's record for the keys does not hold for the rules. -/
theorem serves_one_scope_producer :
    let r := create (bareContent .contentKeys) Sample.producer
    (r.check (bareContent .contentKeys)).isValid = true ∧
      ¬(r.check (bareContent .usageRules)).isValid = true := by
  intro r
  have hchallenge : r.challenge (bareContent .contentKeys)
      ≠ r.challenge (bareContent .usageRules) := by decide +kernel
  have hvalid : (r.check (bareContent .contentKeys)).isValid = true :=
    isValid_check_iff.2 (holds_create _ _)
  have hscopes : Scope.contentKeys ≠ .usageRules := by decide
  have hkey : r.certificate.signingKey.isSmall = false := Sample.producer.isSmall_signingKey
  have hrules := serves_one_scope hscopes (scopeBytes_bareDocument .contentKeys)
    (scopeBytes_bareDocument .usageRules) hkey hvalid
  exact ⟨hvalid, fun h => hchallenge (hrules.1 h).2⟩

/-- A record under the neutral key. -/
def neutralRecord : SignatureRecord where
  certificate := ⟨"nobody", ⟨EdDsa.neutralKey⟩, ⟨.replicate 32 0⟩⟩
  signature := ⟨EdDsa.neutralSignature⟩

/-- **Small keys are accepted.**  The record under the neutral key holds for everything. -/
theorem holds_neutralRecord (content : Bytes) : neutralRecord.Holds content :=
  holds_iff_verify.2 (EdDsa.verify_neutral _)

/-- So it holds for the keys and for the rules of one document. -/
theorem neutralRecord_serves_both :
    Scope.contentKeys ≠ Scope.usageRules ∧
      ∃ c c', (StoredDocument.bareDocument formatVersion [] none).scopeBytes .contentKeys = .ok c ∧
        (StoredDocument.bareDocument formatVersion [] none).scopeBytes .usageRules = .ok c' ∧
        (neutralRecord.check c).isValid = true ∧ (neutralRecord.check c').isValid = true :=
  ⟨by decide, _, _, scopeBytes_bareDocument .contentKeys, scopeBytes_bareDocument .usageRules,
    isValid_check_iff.2 (holds_neutralRecord _), isValid_check_iff.2 (holds_neutralRecord _)⟩

end SignatureRecord

end KeyExchange
