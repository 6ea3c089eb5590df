import KeyExchange.Proofs.Artifact.Form
import KeyExchange.Proofs.Document.Failure
import KeyExchange.Proofs.KeyIdText

/-!
# Which artifacts are accepted

An artifact of the right form is accepted exactly when it is legible and its texts are
valid: each on its own, and three rules for several of them together.  Nothing else is
asked of it.  That it be legible is asked of filters only, apart from the names of members:
a filter is set aside whole before its kind is known, so a member in it that no filter has
is not passed over, as it is everywhere else, but has to be readable itself.

* `DocumentText.Valid`: what the texts of a document have to be;
* `DocumentText.exists_toStored_iff`: that and no more is checked;
* `ofArtifact_accepts_exactly`: which artifacts are accepted;
* `ofArtifact_refuses_notedTree`: one that is not, though its form and its texts are right.
-/

namespace KeyExchange

/-- A format is known by its number. -/
theorem SealFormat.ofNat?_eq_some_iff {n : ℕ} {format : SealFormat} :
    SealFormat.ofNat? n = some format ↔ n = format.toNat := by
  cases format
  constructor
  · intro h
    unfold SealFormat.ofNat? at h
    split at h
    · rfl
    · cases h
  · rintro rfl
    rfl

/-! ## Valid texts -/

namespace Artifact

open Text (Hex.IsSpelling)

/-- The text spells `n` octets. -/
def IsHex (n : ℕ) (text : String) : Prop := ∃ o : Octets n, Hex.IsSpelling text o.toList

/-- Both keys are spelled. -/
structure CertificateText.Valid (t : CertificateText) : Prop where
  signingKey : IsHex 32 t.signingKey
  encryptionKey : IsHex 32 t.encryptionKey

/-- The recipient is valid, and what is wrapped for it is spelled. -/
structure DeliveryText.Valid (t : DeliveryText) : Prop where
  recipient : t.recipient.Valid
  ephemeralKey : IsHex 32 t.wrappedKey.ephemeralKey
  nonce : IsHex 12 t.wrappedKey.nonce
  ciphertext : ∃ s, Hex.IsSpelling t.wrappedKey.ciphertext s

/-- The signer is valid, and the signature is spelled. -/
structure SignatureText.Valid (t : SignatureText) : Prop where
  certificate : t.certificate.Valid
  value : IsHex 64 t.value

/-- The format is known, and nonce and ciphertext are spelled. -/
structure SealedText.Valid (t : SealedText) : Prop where
  format : t.format = 1
  nonce : IsHex 12 t.nonce
  ciphertext : ∃ s, Hex.IsSpelling t.ciphertext s

/-- There is one of the two values, and it is valid. -/
inductive ValidValue : Option String → Option SealedText → Prop
  | plain {text : String} (h : IsHex 16 text) : ValidValue (some text) none
  | encrypted {t : SealedText} (h : t.Valid) : ValidValue none (some t)

/-- The id is spelled, and there is one valid value. -/
structure KeyText.Valid (t : KeyText) : Prop where
  id : ∃ id, KeyId.IsSpelling t.id id
  value : ValidValue t.plain t.encrypted

/-- What the texts of a document have to be. -/
structure DocumentText.Valid (t : DocumentText) : Prop where
  version : t.version = 1
  delivery : ∀ e ∈ t.delivery, e.Valid
  contentKeys : ∀ k ∈ t.contentKeys.keys, k.Valid
  /-- No id is spelled twice, be it in two ways. -/
  distinct : t.contentKeys.keys.Pairwise fun k k' =>
    ∀ id, KeyId.IsSpelling k.id id → ¬KeyId.IsSpelling k'.id id
  /-- A sealed value needs recipients. -/
  delivered : (∃ k ∈ t.contentKeys.keys, k.encrypted.isSome = true) → t.delivery ≠ []
  usageRules : ∀ r ∈ t.usageRules.rules, ∃ id, KeyId.IsSpelling r.keyId id
  signatures : ∀ s ∈ t.contentKeys.signatures ++ t.usageRules.signatures ++ t.signature.toList,
    s.Valid

/-! ## What is checked -/

open Outcome

/-- What is meant is what the text was read as. -/
theorem meant_eq_ok_iff {α : Type} {outcome : Except BasicFault α} {a : α} :
    meant outcome = .ok a ↔ outcome = .ok a := mapError_eq_ok_iff

/-- A field of `n` octets is read when its text spells so many. -/
theorem exists_fixedHexField_iff {n : ℕ} {field text : String} :
    (∃ o, fixedHexField n field text = .ok o) ↔ IsHex n text :=
  exists_congr fun _ => fixedHexField_eq_ok_iff

/-- A certificate is read when both of its keys are spelled. -/
theorem CertificateText.exists_toCertificate_iff {t : CertificateText} :
    (∃ c, t.toCertificate = .ok c) ↔ t.Valid := by
  simp only [toCertificate, VerifyingKey.ofHex, AgreementKey.ofHex, exists_bind_eq_ok_iff,
    meant_eq_ok_iff, exists_and_right, exists_pure_eq_ok, exists_fixedHexField_iff, and_true]
  exact ⟨fun h => ⟨h.1, h.2⟩, fun h => ⟨h.1, h.2⟩⟩

/-- A delivery entry is read when its texts are valid, since its address is made anew. -/
theorem DeliveryText.exists_toDelivery_iff {t : DeliveryText} :
    (∃ e, t.toDelivery = .ok e) ↔ t.Valid := by
  simp only [toDelivery, AgreementKey.ofHex, exists_bind_eq_ok_iff, meant_eq_ok_iff,
    mapError_eq_ok_iff, exists_and_right, exists_pure_eq_ok, exists_fixedHexField_iff,
    hexField_eq_ok_iff, Certificate.exists_fingerprint, CertificateText.exists_toCertificate_iff,
    and_true, true_and]
  exact ⟨fun h => ⟨h.1, h.2.1, h.2.2.1, h.2.2.2⟩, fun h => ⟨h.1, h.2, h.3, h.4⟩⟩

/-- A signature is read when its signer and its octets are valid. -/
theorem SignatureText.exists_toRecord_iff {t : SignatureText} :
    (∃ r, t.toRecord = .ok r) ↔ t.Valid := by
  simp only [toRecord, Signature.ofHex, exists_bind_eq_ok_iff, meant_eq_ok_iff, exists_and_right,
    exists_pure_eq_ok, exists_fixedHexField_iff, CertificateText.exists_toCertificate_iff, and_true]
  exact ⟨fun h => ⟨h.1, h.2⟩, fun h => ⟨h.1, h.2⟩⟩

/-- A sealed value is read when its format is known and its octets are spelled. -/
theorem SealedText.exists_toSealed_iff {t : SealedText} :
    (∃ v, t.toSealed = .ok v) ↔ t.Valid := by
  rw [toSealed]
  rcases hformat : SealFormat.ofNat? t.format with _ | format
  · constructor
    · rintro ⟨v, h⟩
      exact absurd h (error_ne_ok _ _)
    · intro h
      rw [h.format] at hformat
      cases hformat
  · have hone : t.format = 1 := SealFormat.ofNat?_eq_some_iff.1 hformat
    simp only [exists_bind_eq_ok_iff, meant_eq_ok_iff, exists_and_right, exists_pure_eq_ok,
      exists_fixedHexField_iff, hexField_eq_ok_iff, and_true]
    exact ⟨fun h => ⟨hone, h.1, h.2⟩, fun h => ⟨h.2, h.3⟩⟩

/-- A key is read under the id that its text spells, and it is sealed when the member for
sealed values is there. -/
theorem KeyText.of_toKey {t : KeyText} {k : StoredKey} (h : t.toKey = .ok k) :
    KeyId.IsSpelling t.id k.id ∧ k.value.isEncrypted = t.encrypted.isSome := by
  obtain ⟨text, plain, encrypted⟩ := t
  simp only [toKey, bind_eq_ok_iff, meant_eq_ok_iff, KeyId.parse_eq_ok_iff] at h
  obtain ⟨id, hid, h⟩ := h
  cases plain with
  | none =>
      cases encrypted with
      | none => cases h
      | some sealedText =>
          obtain ⟨v, -, h⟩ := bind_eq_ok_iff.1 h
          cases h
          exact ⟨hid, rfl⟩
  | some value =>
      cases encrypted with
      | none =>
          obtain ⟨octets, -, h⟩ := bind_eq_ok_iff.1 h
          obtain ⟨v, -, h⟩ := bind_eq_ok_iff.1 h
          cases h
          exact ⟨hid, rfl⟩
      | some sealedText => cases h

/-- A value is read when there is one and it is valid, whatever the id. -/
theorem KeyText.exists_toKey_iff {t : KeyText} : (∃ k, t.toKey = .ok k) ↔ t.Valid := by
  obtain ⟨text, plain, encrypted⟩ := t
  simp only [toKey, exists_bind_eq_ok_iff, meant_eq_ok_iff, KeyId.parse_eq_ok_iff]
  cases plain with
  | none =>
      cases encrypted with
      | none =>
          constructor
          · rintro ⟨id, -, k, h⟩
            cases h
          · rintro ⟨-, hvalue⟩
            cases hvalue
      | some sealedText =>
          simp only [exists_bind_eq_ok_iff, exists_pure_eq_ok, and_true, exists_and_right,
            SealedText.exists_toSealed_iff]
          constructor
          · exact fun h => ⟨h.1, .encrypted h.2⟩
          · rintro ⟨hid, hvalue⟩
            cases hvalue with
            | encrypted h => exact ⟨hid, h⟩
  | some value =>
      cases encrypted with
      | none =>
          simp only [exists_bind_eq_ok_iff, exists_pure_eq_ok, and_true, exists_and_right,
            meant_eq_ok_iff, hexField_eq_ok_iff, KeyValue.ofBytes, exactly_eq_ok_iff]
          constructor
          · rintro ⟨hid, s, hs, o, rfl⟩
            exact ⟨hid, .plain ⟨o, hs⟩⟩
          · rintro ⟨hid, hvalue⟩
            cases hvalue with
            | plain h =>
                obtain ⟨o, ho⟩ := h
                exact ⟨hid, _, ho, o, rfl⟩
      | some sealedText =>
          constructor
          · rintro ⟨id, -, k, h⟩
            cases h
          · rintro ⟨-, hvalue⟩
            cases hvalue

/-- Keys have different ids exactly when their texts spell no id in common. -/
theorem nodup_ids_iff {ts : List KeyText} {ks : List StoredKey}
    (h : List.Forall₂ (fun t k => t.toKey = .ok k) ts ks) :
    (ks.map StoredKey.id).Nodup ↔
      ts.Pairwise fun t t' => ∀ id, KeyId.IsSpelling t.id id → ¬KeyId.IsSpelling t'.id id := by
  induction h with
  | nil => simp
  | @cons t k ts ks ht hts ih =>
      rw [List.map_cons, List.nodup_cons, List.pairwise_cons, ih]
      refine and_congr_left fun _ => ?_
      have hid := (KeyText.of_toKey ht).1
      constructor
      · intro hfresh t' ht' id hspells hspells'
        obtain ⟨k', hk', htk'⟩ := exists_right_of_forall₂ hts ht'
        have hid' := (KeyText.of_toKey htk').1
        apply hfresh
        rw [hid.unique hspells, hspells'.unique hid']
        exact List.mem_map_of_mem hk'
      · intro hfresh hmem
        obtain ⟨k', hk', hsame⟩ := List.mem_map.1 hmem
        obtain ⟨t', ht', htk'⟩ := exists_left_of_forall₂ hts hk'
        exact hfresh t' ht' k.id hid (hsame ▸ (KeyText.of_toKey htk').1)

/-- Keys are read when each is valid, no two spell one id, and none is sealed unless there are
recipients. -/
theorem exists_toKeys_iff {delivered : Bool} {ts : List KeyText} :
    (∃ ks, toKeys delivered [] ts = .ok ks) ↔
      (∀ t ∈ ts, t.Valid) ∧
      (ts.Pairwise fun t t' => ∀ id, KeyId.IsSpelling t.id id → ¬KeyId.IsSpelling t'.id id) ∧
      ((∃ t ∈ ts, t.encrypted.isSome = true) → delivered = true) := by
  constructor
  · rintro ⟨ks, h⟩
    obtain ⟨hread, hdistinct, -, hdelivered⟩ := toKeys_eq_ok_iff.1 h
    refine ⟨fun t ht => ?_, (nodup_ids_iff hread).1 hdistinct, ?_⟩
    · obtain ⟨k, -, hk⟩ := exists_right_of_forall₂ hread ht
      exact KeyText.exists_toKey_iff.1 ⟨k, hk⟩
    · rintro ⟨t, ht, hsealed⟩
      obtain ⟨k, hmem, hk⟩ := exists_right_of_forall₂ hread ht
      exact hdelivered k hmem ((KeyText.of_toKey hk).2.trans hsealed)
  · rintro ⟨hvalid, hdistinct, hdelivered⟩
    obtain ⟨ks, hks⟩ := exists_mapM_eq_ok fun t ht => KeyText.exists_toKey_iff.2 (hvalid t ht)
    have hread := mapM_eq_ok_iff.1 hks
    refine ⟨ks, toKeys_eq_ok_iff.2 ⟨hread, (nodup_ids_iff hread).2 hdistinct,
      fun _ _ => List.not_mem_nil, fun k hk hsealed => hdelivered ?_⟩⟩
    obtain ⟨t, ht, hread⟩ := exists_left_of_forall₂ hread hk
    exact ⟨t, ht, (KeyText.of_toKey hread).2.symm.trans hsealed⟩

/-- A rule is read when it spells an id. -/
theorem RuleText.exists_toRule_iff {t : RuleText} :
    (∃ r, t.toRule = .ok r) ↔ ∃ id, KeyId.IsSpelling t.keyId id := by
  simp only [toRule, exists_bind_eq_ok_iff, meant_eq_ok_iff, KeyId.parse_eq_ok_iff,
    exists_pure_eq_ok, and_true]

/-- **What is checked** of the texts of a document is that they are valid. -/
theorem DocumentText.exists_toStored_iff {t : DocumentText} :
    (∃ d, t.toStored = .ok d) ↔ t.Valid := by
  rw [toStored]
  by_cases hversion : t.version ≠ formatVersion.toNat
  · rw [if_pos hversion]
    constructor
    · rintro ⟨d, h⟩
      exact absurd h (error_ne_ok _ _)
    · exact fun h => absurd h.version hversion
  rw [if_neg hversion]
  simp only [exists_bind_eq_ok_iff, exists_pure_eq_ok, and_true, exists_and_right,
    exists_toKeys_iff, exists_mapM_eq_ok_iff, exists_optionMapM_eq_ok_iff,
    SignatureText.exists_toRecord_iff, RuleText.exists_toRule_iff]
  have hdelivered : ∀ ds, t.delivery.mapM DeliveryText.toDelivery = .ok ds →
      ((!ds.isEmpty) = true ↔ t.delivery ≠ []) := by
    intro ds hds
    have hlength := (mapM_eq_ok_iff.1 hds).length_eq
    rw [Bool.not_eq_true', Ne, ← List.length_eq_zero_iff, hlength, List.length_eq_zero_iff,
      ← List.isEmpty_iff, Bool.not_eq_true]
  constructor
  · rintro ⟨ds, hds, ⟨hkeys, hdistinct, hsealed⟩, hkeySignatures, hrules, hruleSignatures, hsigned⟩
    rw [hdelivered ds hds] at hsealed
    refine ⟨not_not.1 hversion, fun e he => ?_, hkeys, hdistinct, hsealed, hrules, ?_⟩
    · exact DeliveryText.exists_toDelivery_iff.1 (exists_mapM_eq_ok_iff.1 ⟨ds, hds⟩ e he)
    · rw [List.forall_mem_append, List.forall_mem_append]
      exact ⟨⟨hkeySignatures, hruleSignatures⟩, hsigned⟩
  · intro h
    obtain ⟨ds, hds⟩ := exists_mapM_eq_ok_iff.2 fun e he =>
      DeliveryText.exists_toDelivery_iff.2 (h.delivery e he)
    have hsignatures := h.signatures
    rw [List.forall_mem_append, List.forall_mem_append] at hsignatures
    obtain ⟨⟨hkeySignatures, hruleSignatures⟩, hsigned⟩ := hsignatures
    refine ⟨ds, hds, ⟨h.contentKeys, h.distinct, ?_⟩, hkeySignatures, h.usageRules,
      hruleSignatures, hsigned⟩
    rw [hdelivered ds hds]
    exact h.delivered

end Artifact

/-! ## Which artifacts are accepted -/

namespace StoredDocument

open Artifact Json Outcome

/-- An artifact is accepted when its tree is legible and its texts are valid. -/
theorem exists_ofArtifact_iff {artifact : Bytes} {tree : Json} {text : DocumentText}
    (hspells : Spells artifact tree) (hform : DocumentText.form text tree) :
    (∃ d, ofArtifact artifact = .ok d) ↔ Legible documentSchema tree ∧ text.Valid := by
  have hread := documentShape_exact text tree hform
  have htree : ∀ tree', Spells artifact tree' → tree' = tree := fun tree' htree' =>
    (Prod.ext_iff.1 ((readText_eq_iff.2 htree').symm.trans (readText_eq_iff.2 hspells))).1
  simp only [ofArtifact_eq_ok_iff]
  rw [← DocumentText.exists_toStored_iff]
  constructor
  · rintro ⟨d, tree', hspells', text', hread', hstored⟩
    rw [htree tree' hspells', hread] at hread'
    obtain ⟨hlegible, rfl⟩ := hread'
    exact ⟨hlegible, d, hstored⟩
  · rintro ⟨hlegible, d, hstored⟩
    exact ⟨d, tree, hspells, text, (hread text).2 ⟨hlegible, rfl⟩, hstored⟩

/-- **Which artifacts are accepted.**  Of the texts that spell an object of the form of an
artifact, those are accepted that are legible and whose texts are valid; every other is
reported as malformed. -/
theorem ofArtifact_accepts_exactly {artifact : Bytes} {tree : Json} {text : DocumentText}
    (hspells : Spells artifact tree) (hform : DocumentText.form text tree) :
    ((∃ d, ofArtifact artifact = .ok d) ↔ Legible documentSchema tree ∧ text.Valid) ∧
    (¬(Legible documentSchema tree ∧ text.Valid) →
      ∃ cause, ofArtifact artifact = .error (.parse cause)) := by
  have hexact := exists_ofArtifact_iff hspells hform
  refine ⟨hexact, fun hrefused => ?_⟩
  rcases hread : ofArtifact artifact with fault | d
  · obtain ⟨cause, rfl⟩ := failsOnly_ofArtifact artifact fault hread
    exact ⟨cause, rfl⟩
  · exact absurd (hexact.1 ⟨d, hread⟩) hrefused

end StoredDocument

/-! ## A note that is nested too deeply -/

namespace Json

/-- No value inside of `n` arrays. -/
def nested : Nat → Json
  | 0 => .null
  | n + 1 => .array [nested n] true

/-- Nested arrays can be written. -/
theorem written_nested (n : Nat) : Written (nested n) := by
  induction n with
  | zero => exact .null
  | succ n ih => exact .array (List.forall_mem_singleton.2 ih)

/-- As many arrays can be set aside as there is room for. -/
theorem fit_nested_iff {room n : Nat} : Fit room (nested n) ↔ n ≤ room := by
  induction n generalizing room with
  | zero => exact iff_of_true .null (Nat.zero_le _)
  | succ n ih =>
      constructor
      · intro h
        cases h with
        | array each => exact Nat.succ_le_succ (ih.1 (each _ (List.mem_singleton_self _)))
      · intro h
        obtain ⟨room, rfl⟩ := Nat.exists_eq_add_one.2 (Nat.lt_of_lt_of_le (Nat.succ_pos n) h)
        exact .array (List.forall_mem_singleton.2 (ih.2 (Nat.le_of_succ_le_succ h)))

end Json

namespace StoredDocument

open Artifact Json

/-- A key whose value is told in upper and in lower case. -/
def notedKeyText : KeyText where
  id := "0a0a0a0a-0a0a-0a0a-0a0a-0a0a0a0a0a0a"
  plain := some "A1a1A1a1A1a1A1a1A1a1A1a1A1a1A1a1"
  encrypted := none

/-- The texts of a document with that key and a rule for it, whose id is spelled in another
way. -/
def notedText : DocumentText where
  version := 1
  delivery := []
  contentKeys := ⟨[notedKeyText], []⟩
  usageRules := ⟨[⟨"0A0A0A0A0A0A0A0A0A0A0A0A0A0A0A0A", [.label "HD"]⟩], []⟩
  signature := none

/-- The filter of the rule, with a note that is not defined. -/
def notedFilter (n : Nat) : Json :=
  .object
    [member "note" (nested n), member "label" (ofString "HD"),
      member "type" (ofString "label")] true

/-- A rule with this filter. -/
def notedRule (n : Nat) : Json :=
  .object
    [member "filters" (.array [notedFilter n] true),
      member "kid" (ofString "0A0A0A0A0A0A0A0A0A0A0A0A0A0A0A0A")] true

/-- A key in the clear. -/
def notedKey : Json :=
  .object
    [member "kid" (ofString "0a0a0a0a-0a0a-0a0a-0a0a-0a0a0a0a0a0a"),
      member "plain" (ofString "A1a1A1a1A1a1A1a1A1a1A1a1A1a1A1a1")] true

/-- A tree of these texts, with a note inside of `n` arrays. -/
def notedTree (n : Nat) : Json :=
  .object
    [member "usage_rules" (.object [member "rules" (.array [notedRule n] true)] true),
      member "content_keys" (.object [member "keys" (.array [notedKey] true)] true),
      member "version" (ofNat 1)] true

/-- The tree has the form of an artifact with these texts. -/
theorem form_notedTree (n : Nat) : DocumentText.form notedText (notedTree n) := by
  have hfilter : filterForm (.label "HD") (notedFilter n) :=
    ⟨_, rfl, ⟨_, by simp, Form.text_ofString _⟩, ⟨_, by simp, Form.text_ofString _⟩⟩
  have hrule : RuleText.form ⟨"0A0A0A0A0A0A0A0A0A0A0A0A0A0A0A0A", [.label "HD"]⟩ (notedRule n) :=
    ⟨_, rfl, ⟨_, by simp, Form.text_ofString _⟩, .inr ⟨_, by simp, _, rfl, .cons hfilter .nil⟩⟩
  have hrules : RulesText.form notedText.usageRules
      (.object [member "rules" (.array [notedRule n] true)] true) :=
    ⟨_, rfl, .inr ⟨_, by simp, _, rfl, .cons hrule .nil⟩, .inl ⟨by simp, rfl⟩⟩
  have hkey : KeyText.form notedKeyText notedKey :=
    ⟨_, rfl, ⟨_, by simp [notedKeyText], Form.text_ofString _⟩, ⟨_, by simp, Form.text_ofString _⟩,
      .inl (by simp)⟩
  have hkeys : KeysText.form notedText.contentKeys
      (.object [member "keys" (.array [notedKey] true)] true) :=
    ⟨_, rfl, ⟨_, by simp, _, rfl, .cons hkey .nil⟩, .inl ⟨by simp, rfl⟩⟩
  exact ⟨_, rfl, ⟨_, by simp [notedText], Form.natural_ofNat (by decide)⟩, .inl ⟨by simp, rfl⟩,
    ⟨_, by simp, hkeys⟩, .inr ⟨_, by simp, hrules⟩, .inl (by simp)⟩

/-- The texts are valid. -/
theorem valid_notedText : notedText.Valid where
  version := rfl
  delivery := List.forall_mem_nil _
  contentKeys := List.forall_mem_singleton.2
    ⟨⟨⟨.replicate 16 0x0a⟩, .inr (by decide +kernel)⟩,
      .plain ⟨.replicate 16 0xa1, by decide +kernel⟩⟩
  distinct := List.pairwise_singleton _ _
  delivered := by simp [notedText, notedKeyText]
  usageRules := List.forall_mem_singleton.2 ⟨⟨.replicate 16 0x0a⟩, .inl (by decide +kernel)⟩
  signatures := List.forall_mem_nil _

/-- The tree can be written. -/
theorem written_notedTree (n : Nat) : Written (notedTree n) := by
  have hfilter : Written (notedFilter n) :=
    @Document.written_members [("note", _), ("label", _), ("type", _)]
      (List.forall_mem_cons.2 ⟨written_nested n,
        List.forall_mem_cons.2 ⟨.string _, List.forall_mem_singleton.2 (.string _)⟩⟩)
  have hfilters : Written (.array [notedFilter n] true) :=
    .array (List.forall_mem_singleton.2 hfilter)
  have hrule : Written (notedRule n) := @Document.written_members [("filters", _), ("kid", _)]
    (List.forall_mem_cons.2 ⟨hfilters, List.forall_mem_singleton.2 (.string _)⟩)
  have hkey : Written notedKey := @Document.written_members [("kid", _), ("plain", _)]
    (List.forall_mem_cons.2 ⟨.string _, List.forall_mem_singleton.2 (.string _)⟩)
  have hrules := @Document.written_members [("rules", _)]
    (List.forall_mem_singleton.2 (.array (List.forall_mem_singleton.2 hrule)))
  have hkeys := @Document.written_members [("keys", _)]
    (List.forall_mem_singleton.2 (.array (List.forall_mem_singleton.2 hkey)))
  exact @Document.written_members [("usage_rules", _), ("content_keys", _), ("version", _)]
    (List.forall_mem_cons.2 ⟨hrules,
      List.forall_mem_cons.2 ⟨hkeys, List.forall_mem_singleton.2 (.number 1)⟩⟩)

/-- Six arrays and objects stand around the note, and the parser enters no more than
127 of them. -/
theorem legible_notedTree_iff {n : Nat} : Legible documentSchema (notedTree n) ↔ n ≤ 121 := by
  have hstring : ∀ text, Fit 121 (ofString text) := fun text =>
    .string (by rw [Literal.decode?_encode]; rfl)
  have hfilter : Legible (filterSchema (nestingLimit - 6)) (notedFilter n) ↔ n ≤ 121 := by
    change Legible (filterSchema 121) _ ↔ _
    rw [filterSchema, notedFilter, legible_tagged_iff, and_iff_right (by simp)]
    simp [member, hstring, fit_nested_iff]
  have hrule : Legible ruleSchema (notedRule n) ↔ n ≤ 121 := by
    rw [ruleSchema, notedRule, legible_record_iff]
    simp [legible_list_iff, hfilter]
  have hrules : Legible rulesSchema (.object [member "rules" (.array [notedRule n] true)] true) ↔
      n ≤ 121 := by
    rw [rulesSchema, legible_record_iff]
    simp [legible_list_iff, hrule]
  have hkeys : Legible keysSchema (.object [member "keys" (.array [notedKey] true)] true) := by
    rw [keysSchema, legible_record_iff, notedKey]
    simp [legible_list_iff, keySchema, legible_record_iff]
  rw [documentSchema, notedTree, legible_record_iff]
  simp [hrules, hkeys]

/-- A note inside of 121 arrays is passed over, and one more array is too much. -/
theorem ofArtifact_accepts_exactly_notedTree :
    (∃ d, ofArtifact ((notedTree 121).render .compact 0) = .ok d) ∧
    ∃ cause, ofArtifact ((notedTree 122).render .compact 0) = .error (.parse cause) := by
  have hspells : ∀ n, Spells ((notedTree n).render .compact 0) (notedTree n) := fun n =>
    spells_render (written_notedTree n) .compact
  constructor
  · exact (ofArtifact_accepts_exactly (hspells 121) (form_notedTree 121)).1.2
      ⟨legible_notedTree_iff.2 (Nat.le_refl _), valid_notedText⟩
  · refine (ofArtifact_accepts_exactly (hspells 122) (form_notedTree 122)).2 fun h => ?_
    exact absurd (legible_notedTree_iff.1 h.1) (by decide)

/-- An artifact of the right form with valid texts is refused for what stands in a member
that is not defined.  In an object other than a filter the member would be passed over
(`legible_record_iff`). -/
theorem ofArtifact_refuses_notedTree :
    Spells ((notedTree 122).render .compact 0) (notedTree 122) ∧
    DocumentText.form notedText (notedTree 122) ∧ notedText.Valid ∧
    ofArtifact ((notedTree 122).render .compact 0) = .error (.parse (.json .malformed)) :=
  ⟨spells_render (written_notedTree 122) .compact, form_notedTree 122, valid_notedText,
    by decide +kernel⟩

end StoredDocument

end KeyExchange
