import KeyExchange.Proofs.Document.RoundTrip
import KeyExchange.Proofs.Json.Width
import KeyExchange.Proofs.Sink

/-!
# Where the values of keys go

Of a document with recipients the values of the keys go into the ciphertexts under
their ids, from there into the signatures over the keys and over the whole document,
and nowhere else.  Two documents that are the same but for the values of their keys
are therefore saved alike: the same is drawn, saving succeeds or fails for both, and
the artifacts are of one length and differ in these places only.

* `Document.SameButValues`: two documents before saving;
* `StoredDocument.Confined`: what is made of them;
* `alike_storeSealed`, `alike_storeKeys`, `alike_toStored`: the steps of a save, for
  both at once;
* `Confined.length_toArtifact`: the length of the artifacts;
* `save_confines`: the artifacts of two such documents, and what becomes of them in a
  sink.
-/

namespace KeyExchange

open Drawing Outcome

/-! ## Stored documents that differ in sealed values only -/

/-- Two sealed values that differ in their ciphertexts at most, each of sixteen octets
and a tag. -/
structure SealedValue.Confined (v v' : SealedValue) : Prop where
  format : v.format = v'.format
  nonce : v.nonce = v'.nonce
  length : v.ciphertext.length = 32
  length' : v'.ciphertext.length = 32

/-- Two sealed keys with one id. -/
def StoredKey.Confined (k k' : StoredKey) : Prop :=
  k.id = k'.id ∧ ∃ v v', k.value = .encrypted v ∧ k'.value = .encrypted v' ∧ v.Confined v'

/-- Two stored documents that differ at most in the ciphertexts of keys and in the
signature values that cover them. -/
structure StoredDocument.Confined (m m' : StoredDocument) : Prop where
  version : m.version = m'.version
  delivery : m.delivery = m'.delivery
  contentKeys : List.Forall₂ StoredKey.Confined m.contentKeys m'.contentKeys
  contentKeySigners : m.contentKeySignatures.map SignatureRecord.certificate
    = m'.contentKeySignatures.map SignatureRecord.certificate
  usageRules : m.usageRules = m'.usageRules
  usageRuleSignatures : m.usageRuleSignatures = m'.usageRuleSignatures
  documentSigner : m.documentSignature.map SignatureRecord.certificate
    = m'.documentSignature.map SignatureRecord.certificate

/-! ## Sealing -/

/-- **Values are sealed alike.** -/
theorem SealedValue.alike_create (value value' : KeyValue) (aad : Bytes) (key : SymmetricKey) :
    Alike SealedValue.Confined (create value.octets.toList aad key)
      (create value'.octets.toList aad key) := by
  refine (alike_self Nonce.generate).bind fun nonce _ hnonce => ?_
  cases hnonce
  obtain ⟨ciphertext, hciphertext, hlength⟩ :=
    key.exists_encrypt (by decide) nonce aad value.octets
  obtain ⟨ciphertext', hciphertext', hlength'⟩ :=
    key.exists_encrypt (by decide) nonce aad value'.octets
  rw [hciphertext, hciphertext']
  exact alike_pure ⟨rfl, rfl, hlength, hlength'⟩

namespace Document

/-- The two documents are the same but for the values of their keys. -/
structure SameButValues (d d' : Document) : Prop where
  ids : d.contentKeys.map ContentKey.id = d'.contentKeys.map ContentKey.id
  recipients : d.recipients = d'.recipients
  usageRules : d.usageRules = d'.usageRules
  stage : d.stage = d'.stage

/-- Two keys with one id and with values. -/
def SameId (k k' : ContentKey) : Prop :=
  k.id = k'.id ∧ k.value.isSome = true ∧ k'.value.isSome = true

/-- **Keys are sealed alike**, whatever their values. -/
theorem alike_storeSealed (documentKey : SymmetricKey) {k k' : ContentKey} (h : SameId k k') :
    Alike StoredKey.Confined (storeSealed documentKey k) (storeSealed documentKey k') := by
  obtain ⟨id, value⟩ := k
  obtain ⟨id', value'⟩ := k'
  obtain ⟨rfl, hvalue, hvalue'⟩ := h
  obtain ⟨value, rfl⟩ := Option.isSome_iff_exists.1 hvalue
  obtain ⟨value', rfl⟩ := Option.isSome_iff_exists.1 hvalue'
  have hcreate := SealedValue.alike_create value value' id.octets.toList documentKey
  have hadapted := hcreate.adapt DocumentFault.ofEnvelope
  refine hadapted.bind fun v v' hsealed => ?_
  exact alike_pure ⟨rfl, v, v', rfl, rfl, hsealed⟩

variable {d d' : Document} {signers signers' : Signers}

/-- Keys of two documents that were built, under the same ids. -/
theorem SameButValues.sameIds (h : d.SameButValues d') (hd : d.Built signers)
    (hd' : d'.Built signers') : List.Forall₂ SameId d.contentKeys d'.contentKeys := by
  have hvalued := hd.valued
  have hvalued' := hd'.valued
  have hids := h.ids
  generalize d.contentKeys = ks at hvalued hids
  generalize d'.contentKeys = ks' at hvalued' hids
  induction ks generalizing ks' with
  | nil =>
      rw [List.map_nil, eq_comm, List.map_eq_nil_iff] at hids
      rw [hids]
      exact .nil
  | cons k ks ih =>
      cases ks' with
      | nil => cases hids
      | cons k' ks' =>
          rw [List.forall_mem_cons] at hvalued hvalued'
          obtain ⟨hid, hids⟩ := List.cons.inj hids
          exact .cons ⟨hid, hvalued.1, hvalued'.1⟩ (ih hvalued.2 ks' hvalued'.2 hids)

/-- **Keys are stored alike** for the same recipients: the document key, the entries for
the recipients and the nonces are drawn before any value counts. -/
theorem alike_storeKeys (hkeys : List.Forall₂ SameId d.contentKeys d'.contentKeys)
    (hrecipients : d.recipients = d'.recipients) (hsomebody : d.recipients ≠ []) :
    Alike (fun x x' => x.1 = x'.1 ∧ List.Forall₂ StoredKey.Confined x.2 x'.2)
      d.storeKeys d'.storeKeys := by
  have hnotEmpty : ¬d.recipients.isEmpty = true := fun h => hsomebody (List.isEmpty_iff.1 h)
  unfold storeKeys
  rw [← hrecipients, if_neg hnotEmpty, if_neg hnotEmpty]
  refine (alike_self SymmetricKey.generate).bind fun documentKey _ hsame => ?_
  cases hsame
  refine (alike_self (d.recipients.mapM (deliver documentKey))).bind fun delivery _ hsame => ?_
  cases hsame
  have hsealed := alike_mapM hkeys fun _ _ => alike_storeSealed documentKey
  exact hsealed.bind fun keys keys' hstored => alike_pure ⟨rfl, hstored⟩

end Document

/-! ## Signing -/

namespace StoredDocument

variable {m m' : StoredDocument}

/-- The records of some signers name these signers. -/
theorem SignedBy.certificates {scope : Scope} {records : List SignatureRecord}
    {signers : List Credential} (h : m.SignedBy scope records signers) :
    records.map SignatureRecord.certificate = signers.map Credential.certificate := by
  obtain ⟨content, -, rfl⟩ := h
  rw [List.map_map]
  rfl

/-- The rules are signed without a look at the keys. -/
theorem SignedBy.eq_of_usageRules {records records' : List SignatureRecord}
    {signers : List Credential} (h : m.SignedBy .usageRules records signers)
    (h' : m'.SignedBy .usageRules records' signers) (hrules : m.usageRules = m'.usageRules) :
    records = records' := by
  obtain ⟨content, hcontent, rfl⟩ := h
  obtain ⟨content', hcontent', rfl⟩ := h'
  have hsame : m.scopeBytes .usageRules = m'.scopeBytes .usageRules := by
    unfold scopeBytes scopeContent
    rw [hrules]
  rw [hcontent, hcontent'] at hsame
  cases hsame
  rfl

/-- **Documents are signed alike.** -/
theorem Confined.signed {signers : Signers} (h : m.Confined m') {s s' : StoredDocument}
    (hs : Document.signAll signers m = .ok s) (hs' : Document.signAll signers m' = .ok s') :
    s.Confined s' := by
  obtain ⟨hsigned, keys, rules, document, rfl⟩ := Document.signed_of_signAll hs
  obtain ⟨hsigned', keys', rules', document', rfl⟩ := Document.signed_of_signAll hs'
  have hrules := hsigned.usageRules
  have hsame : (m.resigned keys rules document).usageRules
      = (m'.resigned keys' rules' document').usageRules := h.usageRules
  rw [hsame] at hrules
  exact {
    version := h.version
    delivery := h.delivery
    contentKeys := h.contentKeys
    contentKeySigners :=
      hsigned.contentKeys.certificates.trans hsigned'.contentKeys.certificates.symm
    usageRules := h.usageRules
    usageRuleSignatures := hrules.eq_of_usageRules hsigned'.usageRules hsame
    documentSigner := by
      have hlists := hsigned.document.certificates.trans hsigned'.document.certificates.symm
      rw [← Option.toList_map, ← Option.toList_map] at hlists
      simpa using congrArg List.head? hlists }

end StoredDocument

/-! ## Writing -/

namespace Artifact

open Json (Shape)

/-- Two records that name one signer. -/
theorem sameWidth_ofRecord {r r' : SignatureRecord} (h : r.certificate = r'.certificate) :
    signatureShape.SameWidth (.ofRecord r) (.ofRecord r') := by
  obtain ⟨certificate, signature⟩ := r
  obtain ⟨_, signature'⟩ := r'
  cases h
  have hlength : signature.octets.toList.length = signature'.octets.toList.length := by
    rw [signature.octets.length_toList, signature'.octets.length_toList]
  exact .imap (.record (.same _ (.cons rfl (.hex hlength) .nil)))

/-- Records of the same signers are equally wide, whatever their signatures. -/
theorem sameWidth_ofRecords {rs rs' : List SignatureRecord}
    (h : rs.map SignatureRecord.certificate = rs'.map SignatureRecord.certificate) :
    signatureShape.list.SameWidth (rs.map .ofRecord) (rs'.map .ofRecord) := by
  have hsame : List.Forall₂ (fun r r' => r.certificate = r'.certificate) rs rs' := by
    rw [← List.forall₂_eq_eq_eq, List.forall₂_map_left_iff, List.forall₂_map_right_iff] at h
    exact h
  exact .list (hsame.imp fun _ _ => sameWidth_ofRecord)

/-- Two sealed keys with one id are equally wide. -/
theorem sameWidth_ofKey {k k' : StoredKey} (h : k.Confined k') :
    keyShape.SameWidth (.ofKey k) (.ofKey k') := by
  obtain ⟨id, _⟩ := k
  obtain ⟨_, _⟩ := k'
  obtain ⟨rfl, ⟨format, nonce, ciphertext⟩, ⟨_, _, ciphertext'⟩, rfl, rfl, hvalue⟩ := h
  obtain ⟨rfl, rfl, hlength, hlength'⟩ := hvalue
  have hsealed : sealedShape.SameWidth (.ofSealed ⟨format, nonce, ciphertext⟩)
      (.ofSealed ⟨format, nonce, ciphertext'⟩) :=
    .imap (.record (.same _ (.same _ (.cons rfl (.hex (hlength.trans hlength'.symm)) .nil))))
  exact .imap (.record (.same _ (.same _ (.cons rfl (.some hsealed) .nil))))

end Artifact

/-- A signature on the whole document is there for both, or for neither. -/
theorem Artifact.sameWidth_signature {r r' : Option SignatureRecord}
    (h : r.map SignatureRecord.certificate = r'.map SignatureRecord.certificate) :
    (r.map SignatureText.ofRecord).isNone = (r'.map SignatureText.ofRecord).isNone ∧
      signatureShape.optional.SameWidth (r.map .ofRecord) (r'.map .ofRecord) := by
  cases r with
  | none =>
      cases r' with
      | none => exact ⟨rfl, .refl _ _⟩
      | some r' => cases h
  | some r =>
      cases r' with
      | none => cases h
      | some r' => exact ⟨rfl, .some (sameWidth_ofRecord (Option.some.inj h))⟩

open Artifact in
/-- **The artifacts are of one length.** -/
theorem StoredDocument.Confined.length_toArtifact {m m' : StoredDocument} (h : m.Confined m')
    (layout : Json.Layout) : (m.toArtifact layout).length = (m'.toArtifact layout).length := by
  obtain ⟨version, delivery, keys, keyRecords, rules, ruleRecords, record⟩ := m
  obtain ⟨_, _, keys', keyRecords', _, _, record'⟩ := m'
  obtain ⟨rfl, rfl, hkeys, hkeyRecords, rfl, rfl, hrecord⟩ := h
  have hcount : (keyRecords.map SignatureText.ofRecord).isEmpty
      = (keyRecords'.map SignatureText.ofRecord).isEmpty := by
    have hempty := congrArg List.isEmpty hkeyRecords
    rw [List.isEmpty_map, List.isEmpty_map] at hempty ⊢
    exact hempty
  have hlist : keyShape.list.SameWidth (keys.map KeyText.ofKey) (keys'.map KeyText.ofKey) :=
    .list (hkeys.imp fun _ _ => sameWidth_ofKey)
  have hsection : keysShape.SameWidth
      ⟨keys.map KeyText.ofKey, keyRecords.map SignatureText.ofRecord⟩
      ⟨keys'.map KeyText.ofKey, keyRecords'.map SignatureText.ofRecord⟩ :=
    .imap (.record (.cons rfl hlist (.cons hcount (sameWidth_ofRecords hkeyRecords) .nil)))
  obtain ⟨hleft, hsignature⟩ := sameWidth_signature hrecord
  have hdocument : documentShape.SameWidth
      (.ofStored ⟨version, delivery, keys, keyRecords, rules, ruleRecords, record⟩)
      (.ofStored ⟨version, delivery, keys', keyRecords', rules, ruleRecords, record'⟩) :=
    .imap (.record (.same _ (.same _ (.cons rfl hsection (.same _ (.cons hleft hsignature .nil))))))
  exact hdocument layout 0

namespace Document

variable {d d' : Document} {signers : Signers}

/-- **Two documents are stored alike.** -/
theorem SameButValues.alike_toStored (h : d.SameButValues d') (hd : d.Built signers)
    (hd' : d'.Built signers) (hsomebody : d.recipients ≠ []) :
    Alike StoredDocument.Confined d.toStored d'.toStored := by
  unfold toStored
  rw [hd.stage, hd'.stage]
  have hkeys := alike_storeKeys (h.sameIds hd hd') h.recipients hsomebody
  refine hkeys.bind fun x x' hstored => ?_
  obtain ⟨delivery, keys⟩ := x
  obtain ⟨delivery', keys'⟩ := x'
  obtain ⟨rfl, hconfined⟩ := hstored
  rw [h.usageRules]
  apply alike_liftExcept
  let blank (keys : List StoredKey) : StoredDocument :=
    { version := formatVersion, delivery, contentKeys := keys, contentKeySignatures := [],
      usageRules := d'.usageRules, usageRuleSignatures := [], documentSignature := none }
  have hblank : (blank keys).Confined (blank keys') := ⟨rfl, rfl, hconfined, rfl, rfl, rfl, rfl⟩
  obtain ⟨stored, hsigned⟩ := exists_signAll signers (blank keys)
  obtain ⟨stored', hsigned'⟩ := exists_signAll signers (blank keys')
  rw [hsigned, hsigned']
  exact .ok (hblank.signed hsigned hsigned')

/-- The artifacts are of one length and hold documents that differ in sealed values
only. -/
def ConfinedArtifacts (artifact artifact' : Bytes) : Prop :=
  artifact.length = artifact'.length ∧
    ∃ m m', StoredDocument.ofArtifact artifact = .ok m ∧
      StoredDocument.ofArtifact artifact' = .ok m' ∧ m.Confined m'

/-- **Two documents are written alike.** -/
theorem SameButValues.alike_toArtifact (h : d.SameButValues d') (hd : d.Built signers)
    (hd' : d'.Built signers) (hsomebody : d.recipients ≠ []) (layout : Json.Layout) :
    Alike ConfinedArtifacts (d.toArtifact layout) (d'.toArtifact layout) := by
  refine (h.alike_toStored hd hd' hsomebody).gives.bind fun stored stored' hparts => ?_
  obtain ⟨hconfined, hstored, hstored'⟩ := hparts
  have hread := (hd.savedAs hstored).wellFormed.ofArtifact_toArtifact layout
  have hread' := (hd'.savedAs hstored').wellFormed.ofArtifact_toArtifact layout
  exact alike_pure ⟨hconfined.length_toArtifact layout, stored, stored', hread, hread', hconfined⟩

end Document

/-! ## Saving -/

namespace Document

/-- Artifacts of one length leave a sink in the same way. -/
theorem saveTo_level {d d' : Document} {R : Bytes → Bytes → Prop} (settings : Settings)
    (halike : Alike R (d.toArtifact settings.layout) (d'.toArtifact settings.layout))
    (hlength : ∀ artifact artifact', R artifact artifact' → artifact.length = artifact'.length)
    (sink : Sink) (entropy : Entropy) :
    (d.saveTo settings sink entropy).1 = (d'.saveTo settings sink entropy).1 ∧
      (d.saveTo settings sink entropy).2.1.Level (d'.saveTo settings sink entropy).2.1 ∧
      (d.saveTo settings sink entropy).2.2 = (d'.saveTo settings sink entropy).2.2 := by
  obtain ⟨hdrawn, hagree⟩ := halike entropy
  unfold saveTo
  generalize d.toArtifact settings.layout entropy = first at hdrawn hagree
  generalize d'.toArtifact settings.layout entropy = second at hdrawn hagree
  obtain ⟨outcome, entropy⟩ := first
  obtain ⟨outcome', _⟩ := second
  cases hdrawn
  dsimp only at hagree
  cases hagree with
  | error fault => exact ⟨rfl, .refl sink, rfl⟩
  | @ok artifact artifact' related =>
      have hsame := hlength artifact artifact' related
      obtain ⟨hwritten, hlevel⟩ := (Sink.Level.refl sink).writeAll hsame
      dsimp only
      generalize sink.writeAll artifact = x at hwritten hlevel
      generalize sink.writeAll artifact' = x' at hwritten hlevel
      obtain ⟨written, left⟩ := x
      obtain ⟨_, left'⟩ := x'
      cases hwritten
      cases written with
      | error cause => exact ⟨rfl, hlevel, rfl⟩
      | ok u =>
          refine ⟨?_, hlevel, rfl⟩
          dsimp only
          rw [Sink.flush, Sink.flush, hlevel.flushFails]

/-- **The values of keys are confined to their ciphertexts.**  Two documents that were
built by any edits, for at least one recipient, and are the same but for the values of
their keys, are saved alike: from one random source both draw the same, and both fail
with the same fault or give artifacts of one length.  The documents in these artifacts
have the same version, deliveries, rules and signatures on the rules; their keys have
the same ids, formats and nonces, all with ciphertexts of one length; and the same
signers are named.  Written to a sink, both are taken to the same extent. -/
theorem save_confines {edits edits' : List Edit}
    (hsame : (empty.editEach edits).SameButValues (empty.editEach edits'))
    (hsomebody : (empty.editEach edits).recipients ≠ []) (settings : Settings)
    (entropy : Entropy) :
    ((empty.editEach edits).toArtifact settings.layout entropy).2
        = ((empty.editEach edits').toArtifact settings.layout entropy).2 ∧
      Agree ConfinedArtifacts ((empty.editEach edits).toArtifact settings.layout entropy).1
        ((empty.editEach edits').toArtifact settings.layout entropy).1 ∧
      ∀ sink,
        let saved := (empty.editEach edits).saveTo settings sink entropy
        let saved' := (empty.editEach edits').saveTo settings sink entropy
        saved.1 = saved'.1 ∧ saved.2.1.Level saved'.2.1 ∧ saved.2.2 = saved'.2.2 := by
  have hbuilt := built_editEach edits
  have hbuilt' := built_editEach edits'
  have hsigners := hsame.stage
  rw [hbuilt.stage, hbuilt'.stage] at hsigners
  rw [← Stage.building.inj hsigners] at hbuilt'
  have halike := hsame.alike_toArtifact hbuilt hbuilt' hsomebody settings.layout
  obtain ⟨hdrawn, hagree⟩ := halike entropy
  exact ⟨hdrawn, hagree, fun sink =>
    saveTo_level settings halike (fun _ _ hconfined => hconfined.1) sink entropy⟩

/-- One key for one recipient, with this value. -/
def valuedEdits (value : KeyValue) : List Edit :=
  [.addContentKey ⟨Sample.keyA, some value⟩, .addRecipient Sample.recipient1.certificate,
    .setDocumentSigner Sample.producer]

/-- Another value makes an artifact of the same length. -/
theorem save_confines_valuedEdits :
    ∃ artifact artifact',
      ((empty.editEach (valuedEdits Sample.valueA)).toArtifact .compact (.cycle [1, 2, 3])).1
        = .ok artifact ∧
      ((empty.editEach (valuedEdits Sample.valueB)).toArtifact .compact (.cycle [1, 2, 3])).1
        = .ok artifact' ∧
      artifact.length = artifact'.length := by
  have hsaves : ((empty.editEach (valuedEdits Sample.valueA)).toArtifact .compact
      (.cycle [1, 2, 3])).1.toOption.isSome = true := by decide +kernel
  have hsame : (empty.editEach (valuedEdits Sample.valueA)).SameButValues
      (empty.editEach (valuedEdits Sample.valueB)) := ⟨rfl, rfl, rfl, rfl⟩
  obtain ⟨-, hagree, -⟩ := save_confines hsame (List.cons_ne_nil _ _) ⟨.compact, 0⟩
    (.cycle [1, 2, 3])
  dsimp only at hagree
  generalize ((empty.editEach (valuedEdits Sample.valueA)).toArtifact .compact
    (.cycle [1, 2, 3])).1 = first at hsaves hagree
  generalize ((empty.editEach (valuedEdits Sample.valueB)).toArtifact .compact
    (.cycle [1, 2, 3])).1 = second at hagree
  cases hagree with
  | error fault => cases hsaves
  | @ok artifact artifact' related => exact ⟨artifact, artifact', rfl, rfl, related.1⟩

end Document

end KeyExchange
