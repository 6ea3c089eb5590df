import KeyExchange.Proofs.Cbor.Record
import KeyExchange.Scope

/-!
# The contents that signatures cover

Each part of a document that a signature covers is encoded as a record.  Its
encoding tells the part: certificates, key values in the clear and sealed,
filters with present and absent bounds, rules, delivery entries and the
signatures on the sections.

* `certificate_tells`, `storedKey_tells`, `rule_tells`, `delivery_tells`,
  `record_tells`: the content of each part tells the part;
* `Certificate.exists_fingerprint`: every certificate has a fingerprint.
-/

namespace KeyExchange

open Cbor Scope

/-! ## Lengths -/

/-- The name fits a head. -/
def Certificate.Sized (c : Certificate) : Prop :=
  (Text.Utf8.ofString c.subject).length < 2 ^ 64

/-- The label fits a head. -/
def UsageFilter.Sized : UsageFilter → Prop
  | .label wanted => (Text.Utf8.ofString wanted).length < 2 ^ 64
  | _ => True

/-- The number of filters fits a head, and so does each label. -/
def UsageRule.Sized (r : UsageRule) : Prop :=
  r.filters.length < 2 ^ 64 ∧ ∀ f ∈ r.filters, f.Sized

/-- The ciphertext fits a head. -/
def StoredValue.Sized : StoredValue → Prop
  | .plain _ => True
  | .encrypted v => v.ciphertext.length < 2 ^ 64

/-- The value of the key fits. -/
def StoredKey.Sized (k : StoredKey) : Prop := k.value.Sized

/-- The name and the ciphertext of an entry fit a head. -/
def Delivery.Sized (d : Delivery) : Prop :=
  d.recipient.Sized ∧ d.wrappedKey.ciphertext.length < 2 ^ 64

/-- The name of the signer fits a head. -/
def SignatureRecord.Sized (r : SignatureRecord) : Prop := r.certificate.Sized

/-- All lists and strings that a scope covers are shorter than 2^64. -/
structure StoredDocument.Sized (d : StoredDocument) : Prop where
  delivery : d.delivery.length < 2 ^ 64
  contentKeys : d.contentKeys.length < 2 ^ 64
  contentKeySignatures : d.contentKeySignatures.length < 2 ^ 64
  usageRules : d.usageRules.length < 2 ^ 64
  usageRuleSignatures : d.usageRuleSignatures.length < 2 ^ 64
  eachDelivery : ∀ e ∈ d.delivery, e.Sized
  eachKey : ∀ k ∈ d.contentKeys, k.Sized
  eachKeySignature : ∀ r ∈ d.contentKeySignatures, r.Sized
  eachRule : ∀ r ∈ d.usageRules, r.Sized
  eachRuleSignature : ∀ r ∈ d.usageRuleSignatures, r.Sized

/-! ## What each content tells -/

/-- The content of a certificate tells all of it. -/
theorem certificate_tells : Tells Certificate.toCbor Certificate.Sized id := by
  refine tells_record (fun c : Certificate => [(0, .text c.subject),
    (1, .octets c.signingKey.octets), (2, .octets c.encryptionKey.octets)])
    (fun _ => (by decide : Ascending [0, 1, 2])) ?_ ?_ ?_
  · simp [encodable_text, encodable_octets]
  · intro c hc
    simp [sized_octets, Cbor.Sized.text hc]
  · intro c c' hs hs'
    obtain ⟨s, ⟨v⟩, ⟨k⟩⟩ := c
    obtain ⟨s', ⟨v'⟩, ⟨k'⟩⟩ := c'
    simp [canonical_text_eq_iff hs hs', Cbor.canonical_octets_eq_iff]

/-- A certificate can be encoded, so it has a fingerprint. -/
theorem Certificate.exists_fingerprint (c : Certificate) : ∃ f, c.fingerprint = .ok f := by
  obtain ⟨b, hb⟩ := certificate_tells.encodable c
  refine ⟨⟨Blake3.deriveKey (Text.Utf8.ofString fingerprintContext) b⟩, ?_⟩
  rw [fingerprint, canonicalBytes, hb]
  rfl

/-- So does every credential. -/
theorem Credential.exists_fingerprint (c : Credential) : ∃ f, c.fingerprint = .ok f :=
  c.certificate.exists_fingerprint

/-- The fields of a stored value.  The first one tells its kind. -/
def storedValueFields : StoredValue → List (UInt64 × Cbor)
  | .plain value => [(0, .unsigned 0), (1, .octets value.octets)]
  | .encrypted v => [(0, .unsigned 1), (1, .unsigned (UInt64.ofNat v.format.toNat)),
      (2, .octets v.nonce.octets), (3, .bytes v.ciphertext)]

/-- The content of a stored value is the record of its fields. -/
theorem storedValueContent_eq (v : StoredValue) :
    storedValueContent v = record (storedValueFields v) := by
  cases v <;> rfl

/-- The content of a stored value tells its kind and all of it. -/
theorem storedValue_tells : Tells storedValueContent StoredValue.Sized id := by
  rw [funext storedValueContent_eq]
  refine tells_record storedValueFields ?_ ?_ ?_ ?_
  · intro v
    cases v with
    | plain value => exact (by decide : Ascending [0, 1])
    | encrypted value => exact (by decide : Ascending [0, 1, 2, 3])
  · intro v
    cases v with
    | plain value => simp [storedValueFields, encodable_unsigned, encodable_octets]
    | encrypted value =>
        simp [storedValueFields, encodable_unsigned, encodable_octets, encodable_bytes]
  · intro v hv
    cases v with
    | plain value => simp [storedValueFields, sized_octets, Cbor.Sized.unsigned]
    | encrypted value =>
        simp [storedValueFields, sized_octets, Cbor.Sized.unsigned, Cbor.Sized.bytes hv]
  · intro v w hv hw
    rcases v with ⟨⟨a⟩⟩ | ⟨⟨⟩, ⟨n⟩, c⟩
    · rcases w with ⟨⟨b⟩⟩ | ⟨⟨⟩, ⟨m⟩, d⟩
      · simp [storedValueFields]
      · simp [storedValueFields]
    · rcases w with ⟨⟨b⟩⟩ | ⟨⟨⟩, ⟨m⟩, d⟩
      · simp [storedValueFields]
      · simp [storedValueFields, canonical_bytes_eq_iff hv hw]

/-- The content of a key tells its id and its value. -/
theorem storedKey_tells : Tells storedKeyContent StoredKey.Sized id := by
  refine tells_record (fun k : StoredKey => [(0, .octets k.id.octets),
    (1, storedValueContent k.value)]) (fun _ => (by decide : Ascending [0, 1])) ?_ ?_ ?_
  · simp [encodable_octets, storedValue_tells.encodable]
  · intro k hk
    simp [sized_octets, storedValue_tells.sized k.value hk]
  · intro k l hv hv'
    obtain ⟨⟨i⟩, v⟩ := k
    obtain ⟨⟨i'⟩, v'⟩ := l
    simp [storedValue_tells.told v v' hv hv']

/-- The fields of a filter.  The first one tells its kind. -/
def filterFields : UsageFilter → List (UInt64 × Cbor)
  | .video b => [(0, .unsigned 0), (1, optional b.least), (2, optional b.most)]
  | .audio b => [(0, .unsigned 1), (1, optional b.least), (2, optional b.most)]
  | .bitrate b => [(0, .unsigned 2), (1, optional b.least), (2, optional b.most)]
  | .label wanted => [(0, .unsigned 3), (1, .text wanted)]

/-- The content of a filter is the record of its fields. -/
theorem filterContent_eq (f : UsageFilter) : filterContent f = record (filterFields f) := by
  cases f <;> rfl

/-- The content of a filter tells its kind and each of its bounds, present or
absent. -/
theorem filter_tells : Tells filterContent UsageFilter.Sized id := by
  rw [funext filterContent_eq]
  refine tells_record filterFields ?_ ?_ ?_ ?_
  · intro f
    cases f with
    | video _ | audio _ | bitrate _ => exact (by decide : Ascending [0, 1, 2])
    | label _ => exact (by decide : Ascending [0, 1])
  · intro f
    cases f with
    | video _ | audio _ | bitrate _ =>
        simp [filterFields, encodable_unsigned, encodable_optional]
    | label _ => simp [filterFields, encodable_unsigned, encodable_text]
  · intro f hf
    cases f with
    | video _ | audio _ | bitrate _ => simp [filterFields, sized_optional, Cbor.Sized.unsigned]
    | label _ => simp [filterFields, Cbor.Sized.unsigned, Cbor.Sized.text hf]
  · intro f g hf hg
    rcases f with ⟨a, b⟩ | ⟨a, b⟩ | ⟨a, b⟩ | l <;>
      rcases g with ⟨c, d⟩ | ⟨c, d⟩ | ⟨c, d⟩ | m <;>
      simp [filterFields]
    exact canonical_text_eq_iff hf hg

/-- The content of a rule tells its key id and its filters in their order. -/
theorem rule_tells : Tells ruleContent UsageRule.Sized id := by
  have hfilters := filter_tells.array
  refine tells_record (fun r : UsageRule => [(0, .octets r.keyId.octets),
    (1, .array (r.filters.map filterContent))]) (fun _ => (by decide : Ascending [0, 1])) ?_ ?_ ?_
  · intro r
    simp [encodable_octets, hfilters.encodable r.filters]
  · intro r hr
    simp [sized_octets, hfilters.sized r.filters hr]
  · intro r q hf hg
    obtain ⟨⟨i⟩, fs⟩ := r
    obtain ⟨⟨j⟩, gs⟩ := q
    simp [hfilters.told fs gs hf hg]

/-- What signatures cover of a delivery entry: all but the address, which the
certificate determines. -/
def Delivery.covered (d : Delivery) : Certificate × AgreementKey × Nonce × Bytes :=
  (d.recipient, d.wrappedKey.ephemeralKey, d.wrappedKey.nonce, d.wrappedKey.ciphertext)

/-- The content of a delivery entry tells what is covered of it. -/
theorem delivery_tells : Tells deliveryContent Delivery.Sized Delivery.covered := by
  refine tells_record (fun d : Delivery => [(0, d.recipient.toCbor),
    (1, .octets d.wrappedKey.ephemeralKey.octets), (2, .octets d.wrappedKey.nonce.octets),
    (3, .bytes d.wrappedKey.ciphertext)])
    (fun _ => (by decide : Ascending [0, 1, 2, 3])) ?_ ?_ ?_
  · simp [encodable_octets, encodable_bytes, certificate_tells.encodable]
  · intro d hparts
    obtain ⟨hname, hcipher⟩ := hparts
    simp [sized_octets, Cbor.Sized.bytes hcipher, certificate_tells.sized d.recipient hname]
  · intro d d' hd hd'
    obtain ⟨c, a, ⟨e⟩, ⟨n⟩, t⟩ := d
    obtain ⟨c', a', ⟨e'⟩, ⟨n'⟩, t'⟩ := d'
    obtain ⟨hc, ht⟩ := hd
    obtain ⟨hc', ht'⟩ := hd'
    simp [Delivery.covered, certificate_tells.told c c' hc hc', canonical_bytes_eq_iff ht ht']

/-- The content of a signature record tells all of it. -/
theorem record_tells : Tells recordContent SignatureRecord.Sized id := by
  refine tells_record (fun r : SignatureRecord => [(0, r.certificate.toCbor),
    (1, .octets r.signature.octets)]) (fun _ => (by decide : Ascending [0, 1])) ?_ ?_ ?_
  · simp [encodable_octets, certificate_tells.encodable]
  · intro r hr
    simp [sized_octets, certificate_tells.sized r.certificate hr]
  · intro r r' hc hc'
    obtain ⟨c, ⟨s⟩⟩ := r
    obtain ⟨c', ⟨s'⟩⟩ := r'
    simp [certificate_tells.told c c' hc hc']

end KeyExchange
