import KeyExchange.Artifact.Spelling
import KeyExchange.Proofs.KeyIdText
import KeyExchange.Proofs.ScopeContents

/-!
# Documents that an artifact can hold

An artifact spells every stored document, but only some come back from it.
Reading asks three things of the texts together: the version, ids that are
pairwise different, and recipients when a value is sealed.  It asks nothing of
the addresses of wrapped keys, since they are not spelled; it makes them anew
from the recipients.

* `DocumentText.wellFormed_of_toStored`: what is read is well-formed;
* `DocumentText.toStored_ofStored`: the texts of a consistent document are read
  as that document with its addresses made anew;
* `DocumentText.toStored_ofStored_error`: those of any other are malformed.
-/

namespace KeyExchange

open Outcome

/-- What reading asks of a document. -/
structure StoredDocument.Consistent (d : StoredDocument) : Prop where
  version : d.version = formatVersion
  distinct : (d.contentKeys.map StoredKey.id).Nodup
  delivered : (∃ k ∈ d.contentKeys, k.value.isEncrypted = true) → d.delivery ≠ []

/-- Each wrapped key carries the address of its recipient. -/
def StoredDocument.Addressed (d : StoredDocument) : Prop :=
  ∀ e ∈ d.delivery, e.recipient.fingerprint = .ok e.wrappedKey.recipient

/-- What a document is that was read. -/
structure StoredDocument.WellFormed (d : StoredDocument) : Prop extends d.Consistent where
  addressed : d.Addressed

/-- The entry with the address of its recipient. -/
def Delivery.readdressed (e : Delivery) : Delivery :=
  match e.recipient.fingerprint with
  | .ok address => { e with wrappedKey := { e.wrappedKey with recipient := address } }
  | .error _ => e

/-- The document with its addresses made anew. -/
def StoredDocument.readdressed (d : StoredDocument) : StoredDocument :=
  { d with delivery := d.delivery.map Delivery.readdressed }

/-- The new address is the fingerprint of the recipient. -/
theorem Delivery.readdressed_of_ok {e : Delivery} {address : Fingerprint}
    (h : e.recipient.fingerprint = .ok address) :
    e.readdressed = { e with wrappedKey := { e.wrappedKey with recipient := address } } := by
  rw [readdressed, h]

/-- An entry keeps its recipient and gets the right address. -/
theorem Delivery.fingerprint_readdressed (e : Delivery) :
    e.readdressed.recipient.fingerprint = .ok e.readdressed.wrappedKey.recipient := by
  obtain ⟨address, haddress⟩ := e.recipient.exists_fingerprint
  rw [readdressed_of_ok haddress]
  exact haddress

/-- An entry changes exactly when its address is wrong. -/
theorem Delivery.readdressed_eq_self_iff {e : Delivery} :
    e.readdressed = e ↔ e.recipient.fingerprint = .ok e.wrappedKey.recipient := by
  constructor
  · intro h
    rw [← h]
    exact e.fingerprint_readdressed
  · intro h
    rw [readdressed_of_ok h]

namespace StoredDocument

/-- A document changes exactly when some address in it is wrong. -/
theorem readdressed_eq_self_iff {d : StoredDocument} : d.readdressed = d ↔ d.Addressed := by
  constructor
  · intro h e he
    have hmap : d.delivery.map Delivery.readdressed = d.delivery := congrArg delivery h
    rw [← hmap] at he
    obtain ⟨e', -, rfl⟩ := List.mem_map.1 he
    exact e'.fingerprint_readdressed
  · intro h
    have hmap : d.delivery.map Delivery.readdressed = d.delivery := by
      conv_rhs => rw [← List.map_id d.delivery]
      exact List.map_congr_left fun e he => Delivery.readdressed_eq_self_iff.2 (h e he)
    rw [readdressed, hmap]

/-- Making the addresses anew keeps a document consistent and makes it
well-formed. -/
theorem Consistent.wellFormed_readdressed {d : StoredDocument} (h : d.Consistent) :
    d.readdressed.WellFormed where
  version := h.version
  distinct := h.distinct
  delivered hsealed := by
    rw [readdressed]
    exact fun hnone => h.delivered hsealed (List.map_eq_nil_iff.1 hnone)
  addressed e he := by
    obtain ⟨e', -, rfl⟩ := List.mem_map.1 he
    exact e'.fingerprint_readdressed

end StoredDocument

namespace Artifact

/-! ## What reading establishes -/

/-- The address of an entry that was read is that of its recipient. -/
theorem DeliveryText.addressed_of_toDelivery {t : DeliveryText} {e : Delivery}
    (h : t.toDelivery = .ok e) : e.recipient.fingerprint = .ok e.wrappedKey.recipient := by
  simp only [toDelivery, bind_eq_ok_iff, mapError_eq_ok_iff] at h
  obtain ⟨recipient, -, address, haddress, _, -, _, -, _, -, h⟩ := h
  cases h
  exact haddress

/-- The keys that are read: each text on its own, no id twice or among those
seen before, and no sealed value without recipients. -/
theorem toKeys_eq_ok_iff {delivered : Bool} {seen : List KeyId} {ts : List KeyText}
    {ks : List StoredKey} :
    toKeys delivered seen ts = .ok ks ↔
      List.Forall₂ (fun t k => t.toKey = .ok k) ts ks ∧ (ks.map StoredKey.id).Nodup ∧
        (∀ k ∈ ks, k.id ∉ seen) ∧ ∀ k ∈ ks, k.value.isEncrypted = true → delivered = true := by
  induction ts generalizing seen ks with
  | nil =>
      rw [toKeys, List.forall₂_nil_left_iff]
      constructor
      · intro h
        cases h
        simp
      · intro hparts
        obtain ⟨rfl, -⟩ := hparts
        rfl
  | cons t ts ih =>
      rw [toKeys, bind_eq_ok_iff, List.forall₂_cons_left_iff]
      constructor
      · intro hparts
        obtain ⟨k, hk, h⟩ := hparts
        by_cases hseen : k.id ∈ seen
        · rw [if_pos hseen] at h
          cases h
        rw [if_neg hseen] at h
        by_cases hsealed : (k.value.isEncrypted && !delivered) = true
        · rw [if_pos hsealed] at h
          cases h
        rw [if_neg hsealed, bind_eq_ok_iff] at h
        obtain ⟨rest, hrest, h⟩ := h
        cases h
        obtain ⟨hread, hdistinct, hfresh, hdelivered⟩ := ih.1 hrest
        refine ⟨⟨k, rest, hk, hread, rfl⟩, ?_, ?_, ?_⟩
        · rw [List.map_cons, List.nodup_cons]
          refine ⟨fun hmem => ?_, hdistinct⟩
          obtain ⟨k', hk', heq⟩ := List.mem_map.1 hmem
          exact hfresh k' hk' (by simp [heq])
        · intro k' hk'
          rcases List.mem_cons.1 hk' with rfl | hk'
          · exact hseen
          · exact fun hmem => hfresh k' hk' (List.mem_cons_of_mem _ hmem)
        · intro k' hk' hsecret
          rcases List.mem_cons.1 hk' with rfl | hk'
          · simpa [hsecret] using hsealed
          · exact hdelivered k' hk' hsecret
      · intro hparts
        obtain ⟨⟨k, rest, hk, hread, rfl⟩, hdistinct, hfresh, hdelivered⟩ := hparts
        rw [List.map_cons, List.nodup_cons] at hdistinct
        refine ⟨k, hk, ?_⟩
        rw [if_neg (hfresh k (by simp))]
        have hsealed : ¬(k.value.isEncrypted && !delivered) = true := by
          intro h
          rw [Bool.and_eq_true] at h
          rw [hdelivered k (by simp) h.1] at h
          exact absurd h.2 (by decide)
        have hrest : toKeys delivered (k.id :: seen) ts = .ok rest := by
          refine ih.2 ⟨hread, hdistinct.2, ?_, fun k' hk' => hdelivered k' (by simp [hk'])⟩
          intro k' hk' hmem
          rcases List.mem_cons.1 hmem with heq | hmem
          · exact hdistinct.1 (heq ▸ List.mem_map_of_mem hk')
          · exact hfresh k' (by simp [hk']) hmem
        rw [if_neg hsealed, hrest]
        rfl

/-- **Reading validates.**  What is read is well-formed. -/
theorem DocumentText.wellFormed_of_toStored {t : DocumentText} {d : StoredDocument}
    (h : t.toStored = .ok d) : d.WellFormed := by
  rw [toStored] at h
  by_cases hversion : t.version ≠ formatVersion.toNat
  · rw [if_pos hversion] at h
    cases h
  rw [if_neg hversion] at h
  simp only [bind_eq_ok_iff] at h
  obtain ⟨delivery, hdelivery, keys, hkeys, _, -, _, -, _, -, _, -, h⟩ := h
  cases h
  obtain ⟨-, hdistinct, -, hdelivered⟩ := toKeys_eq_ok_iff.1 hkeys
  refine ⟨⟨rfl, hdistinct, ?_⟩, ?_⟩
  · intro hparts hnone
    obtain ⟨k, hk, hsealed⟩ := hparts
    have hnone : delivery = [] := hnone
    have hsome := hdelivered k hk hsealed
    rw [hnone] at hsome
    exact absurd hsome (by decide)
  · intro e he
    obtain ⟨t, -, ht⟩ := exists_left_of_forall₂ (mapM_eq_ok_iff.1 hdelivery) he
    exact DeliveryText.addressed_of_toDelivery ht

/-! ## Reading what was spelled -/

/-- A certificate comes back from its texts. -/
theorem CertificateText.toCertificate_ofCertificate (c : Certificate) :
    (ofCertificate c).toCertificate = .ok c := by
  simp only [toCertificate, ofCertificate, VerifyingKey.ofHex, AgreementKey.ofHex, Octets.toHex,
    meant, fixedHexField_encode, ok_bind]
  rfl

/-- An entry is read with the address of its recipient, whatever address it had. -/
theorem DeliveryText.toDelivery_ofDelivery (e : Delivery) :
    (ofDelivery e).toDelivery = .ok e.readdressed := by
  obtain ⟨address, haddress⟩ := e.recipient.exists_fingerprint
  simp only [toDelivery, ofDelivery, CertificateText.toCertificate_ofCertificate, ok_bind,
    haddress, mapError_ok, AgreementKey.ofHex, Octets.toHex, meant, fixedHexField_encode,
    hexField_encode, Delivery.readdressed]
  rfl

/-- A signature comes back from its texts. -/
theorem SignatureText.toRecord_ofRecord (r : SignatureRecord) : (ofRecord r).toRecord = .ok r := by
  simp only [toRecord, ofRecord, CertificateText.toCertificate_ofCertificate, ok_bind,
    Signature.ofHex, Octets.toHex, meant, fixedHexField_encode]
  rfl

/-- A sealed value comes back from its texts. -/
theorem SealedText.toSealed_ofSealed (v : SealedValue) : (ofSealed v).toSealed = .ok v := by
  obtain ⟨⟨⟩, nonce, ciphertext⟩ := v
  simp only [toSealed, ofSealed, SealFormat.toNat, SealFormat.ofNat?, Octets.toHex, meant,
    fixedHexField_encode, hexField_encode, mapError_ok, ok_bind]
  rfl

/-- A key comes back from its texts. -/
theorem KeyText.toKey_ofKey (k : StoredKey) : (ofKey k).toKey = .ok k := by
  obtain ⟨id, value | value⟩ := k
  · simp only [toKey, ofKey, KeyId.parse_toText, meant, Octets.toHex, hexField_encode,
      KeyValue.ofBytes, exactly_toList, mapError_ok, ok_bind]
    rfl
  · simp only [toKey, ofKey, KeyId.parse_toText, meant, SealedText.toSealed_ofSealed,
      mapError_ok, ok_bind]
    rfl

/-- A rule comes back from its texts. -/
theorem RuleText.toRule_ofRule (r : UsageRule) : (ofRule r).toRule = .ok r := by
  simp only [toRule, ofRule, KeyId.parse_toText, meant, mapError_ok, ok_bind]
  rfl

/-- Texts of keys are read as these keys, or something is wrong with them
together. -/
theorem toKeys_spelled (delivered : Bool) (seen : List KeyId) (ks : List StoredKey) :
    toKeys delivered seen (ks.map .ofKey) = .ok ks ∨
      ∃ cause, toKeys delivered seen (ks.map .ofKey) = .error (.parse cause) := by
  induction ks generalizing seen with
  | nil => exact .inl rfl
  | cons k ks ih =>
      rw [List.map_cons, toKeys, KeyText.toKey_ofKey, ok_bind]
      by_cases hseen : k.id ∈ seen
      · rw [if_pos hseen]
        exact .inr ⟨_, rfl⟩
      rw [if_neg hseen]
      by_cases hsealed : (k.value.isEncrypted && !delivered) = true
      · rw [if_pos hsealed]
        exact .inr ⟨_, rfl⟩
      rw [if_neg hsealed]
      rcases ih (k.id :: seen) with hrest | ⟨cause, hrest⟩
      · rw [hrest]
        exact .inl rfl
      · rw [hrest]
        exact .inr ⟨cause, rfl⟩

/-- A document is consistent when its version is the one that is read and its
keys come back together. -/
theorem consistent_iff {d : StoredDocument} :
    d.Consistent ↔ d.version = formatVersion ∧
      toKeys (!d.delivery.isEmpty) [] (d.contentKeys.map .ofKey) = .ok d.contentKeys := by
  have hread : List.Forall₂ (fun t k => KeyText.toKey t = .ok k)
      (d.contentKeys.map .ofKey) d.contentKeys := by
    rw [List.forall₂_map_left_iff, List.forall₂_same]
    exact fun k _ => KeyText.toKey_ofKey k
  have hsome : (!d.delivery.isEmpty) = true ↔ d.delivery ≠ [] := by simp
  rw [toKeys_eq_ok_iff, hsome]
  constructor
  · intro hparts
    obtain ⟨hversion, hdistinct, hdelivered⟩ := hparts
    exact ⟨hversion, hread, hdistinct, by simp, fun k hk hsealed => hdelivered ⟨k, hk, hsealed⟩⟩
  · intro hparts
    obtain ⟨hversion, -, hdistinct, -, hdelivered⟩ := hparts
    exact ⟨hversion, hdistinct, fun ⟨k, hk, hsealed⟩ => hdelivered k hk hsealed⟩

/-- The texts of a document of the right version are read as its keys are. -/
theorem DocumentText.toStored_ofStored_eq {d : StoredDocument}
    (hversion : d.version = formatVersion) :
    (ofStored d).toStored =
      (toKeys (!d.delivery.isEmpty) [] (d.contentKeys.map .ofKey)).map fun keys =>
        { d.readdressed with contentKeys := keys } := by
  have hdelivery : (d.delivery.map DeliveryText.ofDelivery).mapM DeliveryText.toDelivery
      = .ok (d.delivery.map Delivery.readdressed) := by
    rw [mapM_eq_ok_iff, List.forall₂_map_left_iff, List.forall₂_map_right_iff, List.forall₂_same]
    exact fun e _ => DeliveryText.toDelivery_ofDelivery e
  have hrecords (rs : List SignatureRecord) :
      (rs.map SignatureText.ofRecord).mapM SignatureText.toRecord = .ok rs := by
    rw [mapM_eq_ok_iff, List.forall₂_map_left_iff, List.forall₂_same]
    exact fun r _ => SignatureText.toRecord_ofRecord r
  have hrules : (d.usageRules.map RuleText.ofRule).mapM RuleText.toRule = .ok d.usageRules := by
    rw [mapM_eq_ok_iff, List.forall₂_map_left_iff, List.forall₂_same]
    exact fun r _ => RuleText.toRule_ofRule r
  have hsignature : (d.documentSignature.map SignatureText.ofRecord).mapM SignatureText.toRecord
      = .ok d.documentSignature := by
    cases d.documentSignature with
    | none => rfl
    | some r =>
        rw [Option.map_some, Option.mapM_some, SignatureText.toRecord_ofRecord]
        rfl
  have hsome : (d.delivery.map Delivery.readdressed).isEmpty = d.delivery.isEmpty := by simp
  have hnumber : ¬(d.version.toNat ≠ formatVersion.toNat) := by simp [hversion]
  simp only [toStored, ofStored, if_neg hnumber, hdelivery, hrecords, hrules, hsignature, ok_bind,
    hsome, StoredDocument.readdressed]
  cases toKeys (!d.delivery.isEmpty) [] (d.contentKeys.map .ofKey) with
  | error e => rfl
  | ok keys =>
      rw [ok_bind, map_ok, hversion]
      rfl

/-- **Reading back.**  The texts of a consistent document are read as that
document, with its addresses made anew. -/
theorem DocumentText.toStored_ofStored {d : StoredDocument} (h : d.Consistent) :
    (ofStored d).toStored = .ok d.readdressed := by
  obtain ⟨hversion, hkeys⟩ := consistent_iff.1 h
  rw [toStored_ofStored_eq hversion, hkeys]
  rfl

/-- The texts of any other document are malformed. -/
theorem DocumentText.toStored_ofStored_error {d : StoredDocument} (h : ¬d.Consistent) :
    ∃ cause, (ofStored d).toStored = .error (.parse cause) := by
  by_cases hversion : d.version = formatVersion
  · rcases toKeys_spelled (!d.delivery.isEmpty) [] d.contentKeys with hkeys | ⟨cause, hkeys⟩
    · exact absurd (consistent_iff.2 ⟨hversion, hkeys⟩) h
    · rw [toStored_ofStored_eq hversion, hkeys]
      exact ⟨cause, rfl⟩
  · have hnumber : d.version.toNat ≠ formatVersion.toNat := fun heq =>
      hversion (UInt32.toNat_inj.1 heq)
    rw [toStored]
    exact ⟨.version d.version.toNat, if_pos hnumber⟩

end Artifact

/-- What is read from an artifact is well-formed. -/
theorem StoredDocument.wellFormed_of_ofArtifact {artifact : Bytes} {d : StoredDocument}
    (h : ofArtifact artifact = .ok d) : d.WellFormed := by
  obtain ⟨text, -, htext⟩ := bind_eq_ok_iff.1 h
  exact Artifact.DocumentText.wellFormed_of_toStored htext

end KeyExchange
