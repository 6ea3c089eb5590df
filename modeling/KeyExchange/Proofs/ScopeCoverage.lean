import KeyExchange.Proofs.Artifact.RoundTrip
import KeyExchange.Proofs.ScopeContents

/-!
# What the signed octets say

A signature on a scope stands for everything the scope covers and for nothing
else: the octets that are signed tell the scope and every covered part, and
parts that are not covered leave no trace in them.

* `scopeContent_tells`: the content of a scope, scope by scope;
* `canonical_scopeContent_eq_iff`: contents of two scopes of two documents;
* `scopeBytes_exact`: what the signed octets and the signed messages tell.
-/

namespace KeyExchange

open Cbor Scope

/-- The two documents agree on what the scope covers. -/
def Scope.Agrees (d e : StoredDocument) : Scope → Prop
  | .contentKeys => d.contentKeys = e.contentKeys
  | .usageRules => d.usageRules = e.usageRules
  | .wholeDocument =>
      d.version = e.version ∧
      d.delivery.map Delivery.covered = e.delivery.map Delivery.covered ∧
      d.contentKeys = e.contentKeys ∧
      d.contentKeySignatures = e.contentKeySignatures ∧
      d.usageRules = e.usageRules ∧
      d.usageRuleSignatures = e.usageRuleSignatures

namespace StoredDocument

/-- The fields of a scope.  The first one is its number. -/
def scopeFields (d : StoredDocument) : Scope → List (UInt64 × Cbor)
  | .contentKeys => [(0, .unsigned 1), (1, .array (d.contentKeys.map storedKeyContent))]
  | .usageRules => [(0, .unsigned 2), (1, .array (d.usageRules.map ruleContent))]
  | .wholeDocument =>
      [(0, .unsigned 3), (1, .unsigned d.version.toUInt64),
        (2, .array (d.delivery.map deliveryContent)),
        (3, .array (d.contentKeys.map storedKeyContent)),
        (4, .array (d.contentKeySignatures.map recordContent)),
        (5, .array (d.usageRules.map ruleContent)),
        (6, .array (d.usageRuleSignatures.map recordContent))]

/-- The content of a scope is the record of its fields. -/
theorem scopeContent_eq (d : StoredDocument) (s : Scope) :
    d.scopeContent s = record (d.scopeFields s) := by
  cases s <;> rfl

/-- The numbers of the fields of a scope ascend. -/
theorem scopeFields_ascending (d : StoredDocument) (s : Scope) :
    Ascending ((d.scopeFields s).map Prod.fst) := by
  cases s with
  | contentKeys => exact (by decide : Ascending [0, 1])
  | usageRules => exact (by decide : Ascending [0, 1])
  | wholeDocument => exact (by decide : Ascending [0, 1, 2, 3, 4, 5, 6])

/-- Every field of a scope can be encoded. -/
theorem scopeFields_encodable (d : StoredDocument) (s : Scope) :
    ∀ f ∈ d.scopeFields s, Encodable f.2 := by
  have hkeys := storedKey_tells.array.encodable d.contentKeys
  have hrules := rule_tells.array.encodable d.usageRules
  have hdelivery := delivery_tells.array.encodable d.delivery
  have hrecords := record_tells.array.encodable
  cases s <;> simp [scopeFields, encodable_unsigned, hkeys, hrules, hdelivery, hrecords]

/-- The fields of a sized document are sized. -/
theorem Sized.fields {d : StoredDocument} (h : d.Sized) (s : Scope) :
    ∀ f ∈ d.scopeFields s, Cbor.Sized f.2 := by
  have hkeys := storedKey_tells.array.sized d.contentKeys ⟨h.contentKeys, h.eachKey⟩
  have hrules := rule_tells.array.sized d.usageRules ⟨h.usageRules, h.eachRule⟩
  have hdelivery := delivery_tells.array.sized d.delivery ⟨h.delivery, h.eachDelivery⟩
  have hkeyRecords := record_tells.array.sized d.contentKeySignatures
    ⟨h.contentKeySignatures, h.eachKeySignature⟩
  have hruleRecords := record_tells.array.sized d.usageRuleSignatures
    ⟨h.usageRuleSignatures, h.eachRuleSignature⟩
  cases s <;>
    simp [scopeFields, Cbor.Sized.unsigned, hkeys, hrules, hdelivery, hkeyRecords, hruleRecords]

/-- The number of the version takes part in its content as it is. -/
theorem version_told {v w : UInt32} : v.toUInt64 = w.toUInt64 ↔ v = w := by
  constructor
  · intro h
    have hnat := congrArg UInt64.toNat h
    rw [UInt32.toNat_toUInt64, UInt32.toNat_toUInt64] at hnat
    exact UInt32.toNat_inj.1 hnat
  · intro hsame
    subst hsame
    rfl

/-- **Coverage.**  The content of a scope tells the scope and what it covers. -/
theorem canonical_scopeContent_eq_iff {d e : StoredDocument} (hd : d.Sized) (he : e.Sized)
    (s t : Scope) :
    canonical (d.scopeContent s) = canonical (e.scopeContent t) ↔ s = t ∧ s.Agrees d e := by
  have hkeys := storedKey_tells.array.told d.contentKeys e.contentKeys
    ⟨hd.contentKeys, hd.eachKey⟩ ⟨he.contentKeys, he.eachKey⟩
  have hrules := rule_tells.array.told d.usageRules e.usageRules
    ⟨hd.usageRules, hd.eachRule⟩ ⟨he.usageRules, he.eachRule⟩
  have hdelivery := delivery_tells.array.told d.delivery e.delivery
    ⟨hd.delivery, hd.eachDelivery⟩ ⟨he.delivery, he.eachDelivery⟩
  have hkeyRecords := record_tells.array.told d.contentKeySignatures e.contentKeySignatures
    ⟨hd.contentKeySignatures, hd.eachKeySignature⟩ ⟨he.contentKeySignatures, he.eachKeySignature⟩
  have hruleRecords := record_tells.array.told d.usageRuleSignatures e.usageRuleSignatures
    ⟨hd.usageRuleSignatures, hd.eachRuleSignature⟩ ⟨he.usageRuleSignatures, he.eachRuleSignature⟩
  rw [List.map_id, List.map_id] at hkeys hrules hkeyRecords hruleRecords
  rw [scopeContent_eq, scopeContent_eq, canonical_record_eq_iff (scopeFields_ascending d s)
    (scopeFields_ascending e t) (scopeFields_encodable d s) (hd.fields s) (he.fields t)]
  cases s <;> cases t <;>
    simp [scopeFields, Agrees, hkeys, hrules, hdelivery, hkeyRecords, hruleRecords, version_told]

/-- Every scope of every document can be signed. -/
theorem exists_scopeBytes (d : StoredDocument) (s : Scope) : ∃ b, d.scopeBytes s = .ok b := by
  obtain ⟨b, hb⟩ := encodable_record (scopeFields_ascending d s) (scopeFields_encodable d s)
  rw [← scopeContent_eq] at hb
  exact ⟨b, by rw [scopeBytes, canonicalBytes, hb]; rfl⟩

/-- The octets to sign are equal when the canonical contents are. -/
theorem scopeBytes_eq_iff {d e : StoredDocument} {s t : Scope} :
    d.scopeBytes s = e.scopeBytes t ↔
      canonical (d.scopeContent s) = canonical (e.scopeContent t) := by
  constructor
  · intro h
    obtain ⟨b, hb⟩ := d.exists_scopeBytes s
    have hd := Outcome.mapError_eq_ok_iff.1 hb
    have he := Outcome.mapError_eq_ok_iff.1 (h.symm.trans hb)
    rw [hd, he]
  · intro h
    rw [scopeBytes, scopeBytes, canonicalBytes, canonicalBytes, h]

/-- What stands before signed content does not hide any of it. -/
theorem signedMessage_eq_iff {d e : StoredDocument} {s t : Scope} :
    (d.scopeBytes s).map signedMessage = (e.scopeBytes t).map signedMessage ↔
      d.scopeBytes s = e.scopeBytes t := by
  constructor
  · intro h
    obtain ⟨b, hb⟩ := d.exists_scopeBytes s
    obtain ⟨c, hc⟩ := e.exists_scopeBytes t
    rw [hb, hc, Outcome.map_ok, Outcome.map_ok, Except.ok.injEq, signedMessage, signedMessage] at h
    rw [hb, hc, List.append_cancel_left h]
  · intro h
    rw [h]

/-- In documents whose addresses are right, entries with the same covered part
are the same. -/
theorem delivery_eq_of_covered {ds es : List Delivery}
    (hds : ∀ d ∈ ds, d.recipient.fingerprint = .ok d.wrappedKey.recipient)
    (hes : ∀ e ∈ es, e.recipient.fingerprint = .ok e.wrappedKey.recipient)
    (h : ds.map Delivery.covered = es.map Delivery.covered) : ds = es := by
  induction ds generalizing es with
  | nil => exact (List.map_eq_nil_iff.1 h.symm).symm
  | cons d ds ih =>
      cases es with
      | nil => cases h
      | cons e es =>
          rw [List.map_cons, List.map_cons, List.cons.injEq] at h
          obtain ⟨hfirst, hrest⟩ := h
          have haddress := hds d (by simp)
          have haddress' := hes e (by simp)
          obtain ⟨recipient, address, key, nonce, ciphertext⟩ := d
          obtain ⟨recipient', address', key', nonce', ciphertext'⟩ := e
          simp only [Delivery.covered, Prod.mk.injEq] at hfirst
          obtain ⟨rfl, rfl, rfl, rfl⟩ := hfirst
          have hsame : address = address' := Except.ok.inj (haddress.symm.trans haddress')
          rw [hsame, ih (fun d hd => hds d (by simp [hd])) (fun e he => hes e (by simp [he])) hrest]

/-- Well-formed documents that agree as a whole are equal but for the signature
on them. -/
theorem agrees_wholeDocument_iff {d e : StoredDocument} (hd : d.WellFormed) (he : e.WellFormed) :
    Scope.wholeDocument.Agrees d e ↔
      { d with documentSignature := none } = { e with documentSignature := none } := by
  constructor
  · intro hparts
    obtain ⟨hversion, hdelivery, hkeys, hkeyRecords, hrules, hruleRecords⟩ := hparts
    rw [hversion, hkeys, hkeyRecords, hrules, hruleRecords,
      delivery_eq_of_covered hd.addressed he.addressed hdelivery]
  · intro h
    simp only [StoredDocument.mk.injEq, and_true] at h
    obtain ⟨hversion, hdelivery, hkeys, hkeyRecords, hrules, hruleRecords⟩ := h
    exact ⟨hversion, by rw [hdelivery], hkeys, hkeyRecords, hrules, hruleRecords⟩

/-- **Exact coverage.**  Every scope of every document has octets to sign.  Those
of two scopes of two documents are equal exactly when the scopes are and the
documents agree on what they cover; for documents that were read and are signed
as a whole, exactly when they are equal but for the signature.  The same holds
of the messages that are signed. -/
theorem scopeBytes_exact :
    (∀ (d : StoredDocument) (s : Scope), ∃ b, d.scopeBytes s = .ok b) ∧
    (∀ (d e : StoredDocument) (s t : Scope), d.Sized → e.Sized →
      (d.scopeBytes s = e.scopeBytes t ↔ s = t ∧ s.Agrees d e) ∧
      ((d.scopeBytes s).map signedMessage = (e.scopeBytes t).map signedMessage ↔
        s = t ∧ s.Agrees d e)) ∧
    (∀ (a b : Bytes) (d e : StoredDocument), ofArtifact a = .ok d → ofArtifact b = .ok e →
      d.Sized → e.Sized →
      (d.scopeBytes .wholeDocument = e.scopeBytes .wholeDocument ↔
        { d with documentSignature := none } = { e with documentSignature := none }) ∧
      ((d.scopeBytes .wholeDocument).map signedMessage
          = (e.scopeBytes .wholeDocument).map signedMessage ↔
        { d with documentSignature := none } = { e with documentSignature := none })) := by
  refine ⟨exists_scopeBytes, ?_, ?_⟩
  · intro d e s t hd he
    have hbytes := scopeBytes_eq_iff.trans (canonical_scopeContent_eq_iff hd he s t)
    exact ⟨hbytes, signedMessage_eq_iff.trans hbytes⟩
  · intro a b d e hread hread' hd he
    have hbytes : d.scopeBytes .wholeDocument = e.scopeBytes .wholeDocument ↔
        { d with documentSignature := none } = { e with documentSignature := none } := by
      rw [scopeBytes_eq_iff, canonical_scopeContent_eq_iff hd he,
        ← agrees_wholeDocument_iff (wellFormed_of_ofArtifact hread)
          (wellFormed_of_ofArtifact hread')]
      exact and_iff_right rfl
    exact ⟨hbytes, signedMessage_eq_iff.trans hbytes⟩

/-- A document with one key and one rule is sized, whatever signature it carries. -/
theorem sized_bareDocument (r : Option SignatureRecord) :
    (bareDocument formatVersion [] r).Sized := by
  constructor <;> simp [bareDocument, StoredKey.Sized, StoredValue.Sized, UsageRule.Sized,
    UsageFilter.Sized]

/-- A document without recipients has no address that could be wrong. -/
theorem wellFormed_bareDocument (r : Option SignatureRecord) :
    (bareDocument formatVersion [] r).WellFormed where
  toConsistent := consistent_bareDocument [] r
  addressed := by simp [Addressed, bareDocument]

/-- A record that nobody signed. -/
def forgedRecord : SignatureRecord :=
  ⟨⟨"alice", ⟨.replicate 32 0⟩, ⟨.replicate 32 0⟩⟩, ⟨.replicate 64 0⟩⟩

/-- The signature on a document takes no part in what is signed, and the two
sections of one document are not mistaken for each other. -/
theorem scopeBytes_exact_bareDocument :
    (bareDocument formatVersion [] none).scopeBytes .wholeDocument
      = (bareDocument formatVersion [] (some forgedRecord)).scopeBytes .wholeDocument ∧
    (bareDocument formatVersion [] none).scopeBytes .contentKeys
      ≠ (bareDocument formatVersion [] none).scopeBytes .usageRules := by
  have hread (r : Option SignatureRecord) :=
    (wellFormed_bareDocument r).ofArtifact_toArtifact .compact
  obtain ⟨-, hscopes, hdocuments⟩ := scopeBytes_exact
  constructor
  · exact (hdocuments _ _ _ _ (hread none) (hread (some forgedRecord)) (sized_bareDocument _)
      (sized_bareDocument _)).1.2 rfl
  · intro h
    have hsame := (hscopes _ _ _ _ (sized_bareDocument _) (sized_bareDocument _)).1.1 h
    exact absurd hsame.1 (by decide)

end StoredDocument

end KeyExchange
