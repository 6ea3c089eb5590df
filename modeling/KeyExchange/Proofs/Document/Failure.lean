import KeyExchange.Proofs.Document.Entitled

/-!
# How a load fails

A load can fail in two ways.  The artifact is malformed: it is too long, or its
texts do not mean a document.  Or it is damaged: the entry that is addressed to
the caller does not open, or a sealed value does not open with the key from it.
Whatever is well-formed and not damaged loads.

* `StoredDocument.failsOnly_ofArtifact`: reading fails for malformed texts only;
* `WrappedKey.Deciding`: the entry that decides what a caller gets;
* `WrappedKey.Damaged`, `StoredKey.Damaged`: the ways in which sealed material does
  not open, each with its cause;
* `StoredDocument.Damaged`: the document does not open for some credentials;
* `load_fails_exactly`: when a load fails, and how.
-/

namespace KeyExchange

open Outcome

/-- The fault says that an artifact is malformed. -/
def DocumentFault.IsParse (fault : DocumentFault) : Prop := ∃ cause, fault = .parse cause

/-- The fault says that sealed material does not open. -/
def DocumentFault.IsDecryption (fault : DocumentFault) : Prop :=
  ∃ cause, fault = .decryption cause

/-- A malformed artifact is not a damaged one. -/
theorem DocumentFault.not_isDecryption_parse (cause : ParseCause) :
    ¬(parse cause).IsDecryption := by
  intro ⟨_, h⟩
  cases h

/-! ## Malformed texts -/

namespace Artifact

open DocumentFault (IsParse)

/-- Taking a text for what it should mean fails for malformed texts only. -/
theorem failsOnly_meant {α : Type} (outcome : Except BasicFault α) :
    FailsOnly IsParse (meant outcome) := by
  cases outcome with
  | error fault => exact .error ⟨_, rfl⟩
  | ok a => exact .ok a

/-- Reading a certificate fails for malformed texts only. -/
theorem CertificateText.failsOnly_toCertificate (t : CertificateText) :
    FailsOnly IsParse t.toCertificate :=
  (failsOnly_meant _).bind fun _ => (failsOnly_meant _).bind fun _ => .ok _

/-- A certificate that was read has a fingerprint, so this step cannot fail. -/
theorem DeliveryText.failsOnly_toDelivery (t : DeliveryText) :
    FailsOnly IsParse t.toDelivery := by
  refine t.recipient.failsOnly_toCertificate.bind fun recipient => ?_
  obtain ⟨address, haddress⟩ := recipient.exists_fingerprint
  rw [haddress, mapError_ok, ok_bind]
  exact (failsOnly_meant _).bind fun _ => (failsOnly_meant _).bind fun _ =>
    (failsOnly_meant _).bind fun _ => .ok _

/-- So does reading a signature. -/
theorem SignatureText.failsOnly_toRecord (t : SignatureText) : FailsOnly IsParse t.toRecord :=
  t.certificate.failsOnly_toCertificate.bind fun _ => (failsOnly_meant _).bind fun _ => .ok _

/-- So does reading a sealed value, whose format may be unknown. -/
theorem SealedText.failsOnly_toSealed (t : SealedText) : FailsOnly IsParse t.toSealed := by
  unfold toSealed
  rcases SealFormat.ofNat? t.format with _ | format
  · exact .error ⟨_, rfl⟩
  · exact (failsOnly_meant _).bind fun _ => (failsOnly_meant _).bind fun _ => .ok _

/-- So does reading a key, which may have no value, or two. -/
theorem KeyText.failsOnly_toKey (t : KeyText) : FailsOnly IsParse t.toKey := by
  refine (failsOnly_meant _).bind fun id => ?_
  rcases t.plain with _ | plain
  · rcases t.encrypted with _ | encrypted
    · exact .error ⟨_, rfl⟩
    · exact encrypted.failsOnly_toSealed.bind fun _ => .ok _
  · rcases t.encrypted with _ | encrypted
    · exact (failsOnly_meant _).bind fun _ => (failsOnly_meant _).bind fun _ => .ok _
    · exact .error ⟨_, rfl⟩

/-- The keys are read in turn, so the induction is on their texts. -/
theorem failsOnly_toKeys (delivered : Bool) (seen : List KeyId) (ts : List KeyText) :
    FailsOnly IsParse (toKeys delivered seen ts) := by
  induction ts generalizing seen with
  | nil => exact .ok []
  | cons t ts ih =>
      refine t.failsOnly_toKey.bind fun key => ?_
      by_cases hseen : key.id ∈ seen
      · rw [if_pos hseen]
        exact .error ⟨_, rfl⟩
      · rw [if_neg hseen]
        by_cases hsealed : (key.value.isEncrypted && !delivered) = true
        · rw [if_pos hsealed]
          exact .error ⟨_, rfl⟩
        · rw [if_neg hsealed]
          exact (ih (key.id :: seen)).bind fun _ => .ok _

/-- So does reading a rule. -/
theorem RuleText.failsOnly_toRule (t : RuleText) : FailsOnly IsParse t.toRule :=
  (failsOnly_meant _).bind fun _ => .ok _

/-- So does reading a document, from its version to its signatures. -/
theorem DocumentText.failsOnly_toStored (t : DocumentText) : FailsOnly IsParse t.toStored := by
  have hsignature : FailsOnly IsParse (t.signature.mapM SignatureText.toRecord) := by
    rcases t.signature with _ | signature
    · exact .ok none
    · exact signature.failsOnly_toRecord.bind fun _ => .ok _
  unfold toStored
  by_cases hversion : t.version ≠ formatVersion.toNat
  · rw [if_pos hversion]
    exact .error ⟨_, rfl⟩
  · rw [if_neg hversion]
    exact (FailsOnly.mapM DeliveryText.failsOnly_toDelivery _).bind fun _ =>
      (failsOnly_toKeys _ _ _).bind fun _ =>
      (FailsOnly.mapM SignatureText.failsOnly_toRecord _).bind fun _ =>
      (FailsOnly.mapM RuleText.failsOnly_toRule _).bind fun _ =>
      (FailsOnly.mapM SignatureText.failsOnly_toRecord _).bind fun _ =>
      hsignature.bind fun _ => .ok _

end Artifact

/-- **Reading fails for malformed texts only.** -/
theorem StoredDocument.failsOnly_ofArtifact (artifact : Bytes) :
    FailsOnly DocumentFault.IsParse (ofArtifact artifact) := by
  refine FailsOnly.bind ?_ fun text => text.failsOnly_toStored
  rcases Artifact.documentShape.readText artifact with fault | text
  · exact .error ⟨_, rfl⟩
  · exact .ok text

/-! ## Damaged entries -/

namespace WrappedKey

/-- What authenticated decryption makes of an entry for a credential. -/
def opened? (w : WrappedKey) (c : Credential) : Option Bytes :=
  Aead.decrypt (wrappingKey (c.agree w.ephemeralKey) w.recipient w.ephemeralKey).octets
    w.nonce.octets w.recipient.octets.toList w.ciphertext

/-- The ways in which an entry does not open for a credential. -/
inductive Damaged (w : WrappedKey) (c : Credential) : DecryptionCause → Prop
  | lowOrder (hforced : (c.agree w.ephemeralKey).isContributory = false) :
      Damaged w c .lowOrderEphemeral
  | altered (hagreed : (c.agree w.ephemeralKey).isContributory = true)
      (hnone : w.opened? c = none) : Damaged w c .tagMismatch
  | length {message : Bytes} (hagreed : (c.agree w.ephemeralKey).isContributory = true)
      (hsome : w.opened? c = some message) (hlength : message.length ≠ 32) :
      Damaged w c (.keyLength message.length)

/-- The entry opens for a credential, and this key is in it. -/
structure Opens (w : WrappedKey) (c : Credential) (key : SymmetricKey) : Prop where
  agreed : (c.agree w.ephemeralKey).isContributory = true
  opened : w.opened? c = some key.octets.toList

/-- An entry opens or is damaged, and `reveal` tells which. -/
theorem reveal_cases (w : WrappedKey) (c : Credential) :
    (∃ key, w.reveal c = .ok key ∧ w.Opens c key) ∨
    ∃ cause, w.reveal c = .error (.decryption cause) ∧ w.Damaged c cause := by
  unfold reveal SymmetricKey.decrypt
  dsimp only
  by_cases hagreed : (c.agree w.ephemeralKey).isContributory = true
  · rw [if_pos hagreed]
    rcases hopened : w.opened? c with _ | message
    · have hnone := hopened
      unfold opened? at hnone
      rw [hnone]
      exact .inr ⟨_, rfl, .altered hagreed hopened⟩
    · have hsome := hopened
      unfold opened? at hsome
      rw [hsome]
      dsimp only
      rw [ok_bind]
      rcases hkey : Octets.ofList? 32 message with _ | octets
      · exact .inr ⟨_, rfl, .length hagreed hopened (Octets.ofList?_eq_none_iff.1 hkey)⟩
      · rw [← Octets.ofList?_eq_some_iff.1 hkey] at hopened
        exact .inl ⟨⟨octets⟩, rfl, hagreed, hopened⟩
  · rw [if_neg hagreed]
    exact .inr ⟨_, rfl, .lowOrder (Bool.eq_false_iff.2 hagreed)⟩

variable {w : WrappedKey} {c : Credential} {key : SymmetricKey}

/-- An entry that opens is not damaged. -/
theorem Opens.not_damaged (h : w.Opens c key) {cause : DecryptionCause} : ¬w.Damaged c cause := by
  obtain ⟨hagreed, hopened⟩ := h
  intro hdamaged
  cases hdamaged with
  | lowOrder hforced => exact Bool.false_ne_true (hforced.symm.trans hagreed)
  | altered _ hnone => cases hnone.symm.trans hopened
  | length _ hsome hlength =>
      cases hsome.symm.trans hopened
      exact hlength key.octets.length_toList

/-- An entry is opened exactly when it opens, and with this key. -/
theorem reveal_eq_ok_iff : w.reveal c = .ok key ↔ w.Opens c key := by
  rcases w.reveal_cases c with ⟨key', hok, hopens⟩ | ⟨cause, herror, hdamaged⟩
  · rw [hok]
    constructor
    · intro h
      cases h
      exact hopens
    · intro h
      have hoctets := Option.some.inj (hopens.opened.symm.trans h.opened)
      exact congrArg Except.ok (congrArg SymmetricKey.mk (Octets.ext hoctets))
  · rw [herror]
    exact iff_of_false (error_ne_ok _ _) fun h => h.not_damaged hdamaged

/-- An entry is refused exactly when it is damaged. -/
theorem exists_reveal_eq_error_iff :
    (∃ fault, w.reveal c = .error fault) ↔ ∃ cause, w.Damaged c cause := by
  rcases w.reveal_cases c with ⟨key', hok, hopens⟩ | ⟨cause, herror, hdamaged⟩
  · rw [hok]
    exact iff_of_false (fun ⟨_, h⟩ => nomatch h) fun ⟨_, h⟩ => hopens.not_damaged h
  · exact iff_of_true ⟨_, herror⟩ ⟨cause, hdamaged⟩

/-! ### The entry that decides -/

/-- `c` is the first of the credentials with an entry of its own, and `w` is the
first of these entries. -/
structure Deciding (entries : List WrappedKey) (credentials : List Credential) (c : Credential)
    (w : WrappedKey) : Prop where
  address : c.fingerprint = .ok w.recipient
  credential : ∃ earlier later, credentials = earlier ++ c :: later ∧
    ∀ c' ∈ earlier, ∀ e ∈ entries, c'.fingerprint ≠ .ok e.recipient
  entry : ∃ earlier later, entries = earlier ++ w :: later ∧
    ∀ e ∈ earlier, c.fingerprint ≠ .ok e.recipient

variable {entries : List WrappedKey} {credentials : List Credential}

/-- An entry is for an address exactly when it is the one of the credential. -/
theorem isFor_iff {address : Fingerprint} (haddress : c.fingerprint = .ok address) :
    w.isFor address = true ↔ c.fingerprint = .ok w.recipient := by
  rw [isFor, beq_iff_eq, haddress, Except.ok.injEq, eq_comm]

/-- **The deciding entry decides.**  The credentials before it are passed over one by
one. -/
theorem Deciding.unwrapAny (h : Deciding entries credentials c w) :
    WrappedKey.unwrapAny entries credentials = (w.reveal c).map some := by
  obtain ⟨hw, ⟨earlier, later, rfl, hothers⟩, before, after, rfl, hbefore⟩ := h
  induction earlier with
  | nil =>
      apply unwrapAny_of_find hw
      refine List.find?_eq_some_iff_append.2 ⟨beq_self_eq_true _, before, after, rfl, ?_⟩
      intro e he
      rw [Bool.not_eq_true', Bool.eq_false_iff]
      exact mt (isFor_iff hw).1 (hbefore e he)
  | cons c' earlier ih =>
      obtain ⟨address, haddress⟩ := c'.exists_fingerprint
      have hfind : (before ++ w :: after).find? (fun e => e.isFor address) = none :=
        List.find?_eq_none.2 fun e he =>
          mt (isFor_iff haddress).1 (hothers c' List.mem_cons_self e he)
      rw [List.cons_append, unwrapAny_of_find_none haddress hfind]
      exact ih fun c'' hc'' => hothers c'' (List.mem_cons_of_mem _ hc'')

/-- When some credential is addressed, one of the entries decides. -/
theorem exists_deciding (h : AddressAny entries credentials) :
    ∃ c w, Deciding entries credentials c w := by
  induction credentials with
  | nil =>
      obtain ⟨c, hc, -⟩ := h
      cases hc
  | cons c others ih =>
      obtain ⟨address, haddress⟩ := c.exists_fingerprint
      rcases hfind : entries.find? (fun e => e.isFor address) with _ | w
      · rw [addressAny_cons_of_find haddress hfind] at h
        obtain ⟨c', w, hw, ⟨earlier, later, hsplit, hothers⟩, hentry⟩ := ih h
        refine ⟨c', w, hw, ⟨c :: earlier, later, by rw [hsplit, List.cons_append], ?_⟩, hentry⟩
        intro c'' hc''
        rcases List.mem_cons.1 hc'' with rfl | hc''
        · exact fun e he => mt (isFor_iff haddress).2 (List.find?_eq_none.1 hfind e he)
        · exact hothers c'' hc''
      · obtain ⟨-, hw⟩ := address_of_find haddress hfind
        obtain ⟨-, before, after, hsplit, hbefore⟩ := List.find?_eq_some_iff_append.1 hfind
        refine ⟨c, w, hw, ⟨[], others, rfl, fun _ hc => nomatch hc⟩, before, after, hsplit, ?_⟩
        intro e he
        have hother := hbefore e he
        rw [Bool.not_eq_true', Bool.eq_false_iff] at hother
        exact mt (isFor_iff haddress).2 hother

/-- Where an entry decides, some entry is addressed to the caller. -/
theorem Deciding.addressAny (h : Deciding entries credentials c w) :
    AddressAny entries credentials := by
  obtain ⟨hw, ⟨earlier, later, rfl, -⟩, before, after, rfl, -⟩ := h
  exact ⟨c, List.mem_append_cons_self, w, List.mem_append_cons_self, hw⟩

end WrappedKey

/-! ## Damaged values -/

namespace StoredKey

/-- The ways in which a stored key does not open under the document key. -/
inductive Damaged (key : SymmetricKey) : StoredKey → DecryptionCause → Prop
  | altered {id : KeyId} {v : SealedValue}
      (hnone : Aead.decrypt key.octets v.nonce.octets id.octets.toList v.ciphertext = none) :
      Damaged key ⟨id, .encrypted v⟩ .tagMismatch
  | length {id : KeyId} {v : SealedValue} {message : Bytes}
      (hsome : Aead.decrypt key.octets v.nonce.octets id.octets.toList v.ciphertext
        = some message)
      (hlength : message.length ≠ 16) :
      Damaged key ⟨id, .encrypted v⟩ (.valueLength id message.length)

/-- A stored key is revealed or is damaged. -/
theorem reveal_cases (key : SymmetricKey) (k : StoredKey) :
    (∃ k', k.reveal (some key) = .ok k' ∧ ∀ cause, ¬k.Damaged key cause) ∨
    ∃ cause, k.reveal (some key) = .error (.decryption cause) ∧ k.Damaged key cause := by
  obtain ⟨id, value | v⟩ := k
  · exact .inl ⟨_, rfl, fun _ h => nomatch h⟩
  · unfold reveal SealedValue.reveal SymmetricKey.decrypt
    dsimp only
    rcases hopened : Aead.decrypt key.octets v.nonce.octets id.octets.toList v.ciphertext
      with _ | message
    · exact .inr ⟨_, rfl, .altered hopened⟩
    · dsimp only
      rw [mapError_ok, ok_bind]
      rcases hvalue : Octets.ofList? 16 message with _ | octets
      · exact .inr ⟨_, rfl, .length hopened (Octets.ofList?_eq_none_iff.1 hvalue)⟩
      · refine .inl ⟨_, rfl, fun cause hdamaged => ?_⟩
        rw [← Octets.ofList?_eq_some_iff.1 hvalue] at hopened
        cases hdamaged with
        | altered hnone => cases hnone.symm.trans hopened
        | length hsome hlength =>
            cases hsome.symm.trans hopened
            exact hlength octets.length_toList

/-- A stored key is refused exactly when it is damaged. -/
theorem exists_reveal_eq_error_iff {key : SymmetricKey} {k : StoredKey} :
    (∃ fault, k.reveal (some key) = .error fault) ↔ ∃ cause, k.Damaged key cause := by
  rcases reveal_cases key k with ⟨k', hok, hsound⟩ | ⟨cause, herror, hdamaged⟩
  · rw [hok]
    exact iff_of_false (fun ⟨_, h⟩ => nomatch h) fun ⟨cause, h⟩ => hsound cause h
  · exact iff_of_true ⟨_, herror⟩ ⟨cause, hdamaged⟩

/-- Opening a stored key fails for damage only. -/
theorem failsOnly_reveal (documentKey : Option SymmetricKey) (k : StoredKey) :
    FailsOnly DocumentFault.IsDecryption (k.reveal documentKey) := by
  cases documentKey with
  | none =>
      obtain ⟨id, value | v⟩ := k
      · exact .ok _
      · exact .ok _
  | some key =>
      rcases reveal_cases key k with ⟨k', hok, -⟩ | ⟨cause, herror, -⟩
      · rw [hok]
        exact .ok k'
      · rw [herror]
        exact .error ⟨cause, rfl⟩

end StoredKey

/-! ## Documents -/

/-- The document does not open for the credentials: the entry that decides does not,
or a value does not with the key from it. -/
def StoredDocument.Damaged (d : StoredDocument) (credentials : List Credential) : Prop :=
  ∃ c w, WrappedKey.Deciding (d.delivery.map Delivery.wrappedKey) credentials c w ∧
    ((∃ cause, w.Damaged c cause) ∨
      ∃ key, w.Opens c key ∧ ∃ k ∈ d.contentKeys, ∃ cause, k.Damaged key cause)

namespace StoredDocument

variable {d : StoredDocument} {credentials : List Credential}

/-- Looking for the document key fails for damage only. -/
theorem failsOnly_recoverKey (d : StoredDocument) (credentials : List Credential) :
    FailsOnly DocumentFault.IsDecryption (d.recoverKey credentials) := by
  unfold recoverKey
  by_cases haddress : WrappedKey.AddressAny (d.delivery.map Delivery.wrappedKey) credentials
  · obtain ⟨c, w, hdeciding⟩ := WrappedKey.exists_deciding haddress
    rw [hdeciding.unwrapAny]
    rcases w.reveal_cases c with ⟨key, hok, -⟩ | ⟨cause, herror, -⟩
    · rw [hok]
      exact .ok (some key)
    · rw [herror]
      exact .error ⟨cause, rfl⟩
  · rw [WrappedKey.unwrapAny_of_not_address haddress]
    exact .ok none

/-- **Damage is found.** -/
theorem Damaged.exists_error (h : d.Damaged credentials) :
    ∃ fault, Document.ofStored d credentials = .error fault := by
  obtain ⟨c, w, hdeciding, hdamaged⟩ := h
  obtain ⟨report, -, -, -, hreport, -⟩ := d.exists_report
  unfold Document.ofStored recoverKey
  rw [hreport, ok_bind, hdeciding.unwrapAny]
  rcases hdamaged with hentry | ⟨key, hopens, k, hk, hvalue⟩
  · obtain ⟨fault, hfault⟩ := WrappedKey.exists_reveal_eq_error_iff.2 hentry
    rw [hfault]
    exact ⟨_, rfl⟩
  · rw [WrappedKey.reveal_eq_ok_iff.2 hopens, map_ok, mapError_ok, ok_bind]
    obtain ⟨fault, hfault⟩ := exists_mapM_eq_error_iff.2
      ⟨k, hk, StoredKey.exists_reveal_eq_error_iff.2 hvalue⟩
    rw [hfault]
    exact ⟨fault, rfl⟩

/-- **What is not damaged opens.** -/
theorem exists_ofStored_of_not_damaged (h : ¬d.Damaged credentials) :
    ∃ l, Document.ofStored d credentials = .ok l := by
  obtain ⟨report, -, -, -, hreport, -⟩ := d.exists_report
  unfold Document.ofStored recoverKey
  rw [hreport, ok_bind]
  by_cases haddress : WrappedKey.AddressAny (d.delivery.map Delivery.wrappedKey) credentials
  · obtain ⟨c, w, hdeciding⟩ := WrappedKey.exists_deciding haddress
    rw [hdeciding.unwrapAny]
    rcases w.reveal_cases c with ⟨key, hok, hopens⟩ | ⟨cause, -, hdamaged⟩
    · rw [hok, map_ok, mapError_ok, ok_bind]
      rcases hvalues : d.contentKeys.mapM (StoredKey.reveal (some key)) with fault | contentKeys
      · obtain ⟨k, hk, hvalue⟩ := exists_mapM_eq_error_iff.1 ⟨fault, hvalues⟩
        have hdamaged := StoredKey.exists_reveal_eq_error_iff.1 hvalue
        exact absurd ⟨c, w, hdeciding, .inr ⟨key, hopens, k, hk, hdamaged⟩⟩ h
      · exact ⟨_, rfl⟩
    · exact absurd ⟨c, w, hdeciding, .inl ⟨cause, hdamaged⟩⟩ h
  · obtain ⟨contentKeys, hvalues⟩ := exists_mapM_reveal_none d.contentKeys
    rw [WrappedKey.unwrapAny_of_not_address haddress, mapError_ok, ok_bind, hvalues]
    exact ⟨_, rfl⟩

/-- Opening a document that was read fails for damage only. -/
theorem failsOnly_ofStored (d : StoredDocument) (credentials : List Credential) :
    FailsOnly DocumentFault.IsDecryption (Document.ofStored d credentials) := by
  obtain ⟨report, -, -, -, hreport, -⟩ := d.exists_report
  unfold Document.ofStored
  rw [hreport, ok_bind]
  exact (d.failsOnly_recoverKey credentials).bind fun documentKey =>
    (FailsOnly.mapM (StoredKey.failsOnly_reveal documentKey) _).bind fun _ => .ok _

end StoredDocument

namespace Document

variable {settings : Settings} {artifact : Bytes}

/-- An artifact that is too long is refused before it is read. -/
theorem load_of_length_lt (hlong : settings.maxArtifactLength < artifact.length)
    (credentials : List Credential) :
    load settings credentials artifact = .error (.parse (.tooLong settings.maxArtifactLength)) := by
  rw [load, if_pos hlong]

/-- Any other artifact is read and then opened. -/
theorem load_of_length_le (hfits : artifact.length ≤ settings.maxArtifactLength)
    (credentials : List Credential) :
    load settings credentials artifact
      = StoredDocument.ofArtifact artifact >>= fun d => ofStored d credentials := by
  rw [load, if_neg (Nat.not_lt.2 hfits)]

/-- A load fails when the artifact is malformed or damaged, and for no other reason. -/
theorem failsOnly_load (settings : Settings) (credentials : List Credential) (artifact : Bytes) :
    FailsOnly (fun fault => fault.IsParse ∨ fault.IsDecryption)
      (load settings credentials artifact) := by
  rcases lt_or_ge settings.maxArtifactLength artifact.length with hlong | hfits
  · rw [load_of_length_lt hlong]
    exact .error (.inl ⟨_, rfl⟩)
  · rw [load_of_length_le hfits]
    refine FailsOnly.bind ?_ fun d => ?_
    · exact fun fault h => .inl (StoredDocument.failsOnly_ofArtifact artifact fault h)
    · exact fun fault h => .inr (d.failsOnly_ofStored credentials fault h)

/-- A load finds an artifact malformed when it is too long or cannot be read. -/
theorem exists_load_eq_parse_iff {credentials : List Credential} :
    (∃ cause, load settings credentials artifact = .error (.parse cause)) ↔
      settings.maxArtifactLength < artifact.length ∨
        ∃ fault, StoredDocument.ofArtifact artifact = .error fault := by
  rcases lt_or_ge settings.maxArtifactLength artifact.length with hlong | hfits
  · rw [load_of_length_lt hlong]
    exact iff_of_true ⟨_, rfl⟩ (.inl hlong)
  · rw [load_of_length_le hfits]
    rcases hread : StoredDocument.ofArtifact artifact with fault | d
    · obtain ⟨cause, rfl⟩ := StoredDocument.failsOnly_ofArtifact artifact fault hread
      exact iff_of_true ⟨cause, rfl⟩ (.inr ⟨_, rfl⟩)
    · refine iff_of_false ?_ ?_
      · intro ⟨cause, h⟩
        exact DocumentFault.not_isDecryption_parse cause (d.failsOnly_ofStored credentials _ h)
      · rintro (hlong | ⟨_, h⟩)
        · exact Nat.not_lt.2 hfits hlong
        · cases h

/-- Opening finds a document damaged exactly when it is. -/
theorem exists_ofStored_eq_decryption_iff {d : StoredDocument} {credentials : List Credential} :
    (∃ cause, ofStored d credentials = .error (.decryption cause)) ↔ d.Damaged credentials := by
  constructor
  · intro ⟨cause, h⟩
    by_contra hsound
    obtain ⟨l, hl⟩ := StoredDocument.exists_ofStored_of_not_damaged hsound
    cases hl.symm.trans h
  · intro hdamaged
    obtain ⟨fault, hfault⟩ := hdamaged.exists_error
    obtain ⟨cause, rfl⟩ := d.failsOnly_ofStored credentials fault hfault
    exact ⟨cause, hfault⟩

/-- **When a load fails, and how.**  A load fails because the artifact is malformed or
because it is damaged.  It is malformed exactly when it is too long or cannot be
read, and reading fails in no other way.  An artifact that can be read fails to load
exactly when the first entry for the first credential with an entry does not open, or
some sealed value does not open with the key from that entry. -/
theorem load_fails_exactly (settings : Settings) (credentials : List Credential)
    (artifact : Bytes) :
    FailsOnly (fun fault => fault.IsParse ∨ fault.IsDecryption)
      (load settings credentials artifact) ∧
    FailsOnly DocumentFault.IsParse (StoredDocument.ofArtifact artifact) ∧
    ((∃ cause, load settings credentials artifact = .error (.parse cause)) ↔
      settings.maxArtifactLength < artifact.length ∨
        ∃ fault, StoredDocument.ofArtifact artifact = .error fault) ∧
    ∀ d, artifact.length ≤ settings.maxArtifactLength →
      StoredDocument.ofArtifact artifact = .ok d →
      ((∃ cause, load settings credentials artifact = .error (.decryption cause)) ↔
        d.Damaged credentials) ∧
      (¬d.Damaged credentials → ∃ l, load settings credentials artifact = .ok l) := by
  refine ⟨failsOnly_load settings credentials artifact,
    StoredDocument.failsOnly_ofArtifact artifact, exists_load_eq_parse_iff, ?_⟩
  intro d hfits hread
  rw [load_of_length_le hfits, hread, ok_bind]
  exact ⟨exists_ofStored_eq_decryption_iff, StoredDocument.exists_ofStored_of_not_damaged⟩

end Document

/-- An entry that gives the same secret to everybody. -/
def Delivery.forced (recipient : Certificate) : Delivery where
  recipient := recipient
  wrappedKey := ⟨⟨.replicate 32 0⟩, ⟨.replicate 32 0⟩, ⟨.replicate 12 0⟩, []⟩

/-- A document with such an entry. -/
def StoredDocument.forcedDocument : StoredDocument :=
  (bareDocument formatVersion [.forced Sample.recipient1.certificate] none).readdressed

/-- Nothing of the form of such a document is wrong. -/
theorem StoredDocument.wellFormed_forcedDocument : forcedDocument.WellFormed :=
  (consistent_bareDocument _ _).wellFormed_readdressed

/-- For its recipient it is damaged. -/
theorem StoredDocument.damaged_forcedDocument : forcedDocument.Damaged [Sample.recipient1] := by
  obtain ⟨address, haddress⟩ := Sample.recipient1.certificate.exists_fingerprint
  have hentry := Delivery.readdressed_of_ok (e := .forced Sample.recipient1.certificate) haddress
  let w : WrappedKey := ⟨address, ⟨.replicate 32 0⟩, ⟨.replicate 12 0⟩, []⟩
  have hdelivery : forcedDocument.delivery.map Delivery.wrappedKey = [w] :=
    congrArg (fun e => [Delivery.wrappedKey e]) hentry
  have hdeciding : WrappedKey.Deciding [w] [Sample.recipient1] Sample.recipient1 w :=
    ⟨haddress, ⟨[], [], rfl, fun _ hc => nomatch hc⟩, [], [], rfl, fun _ he => nomatch he⟩
  have hforced : (Sample.recipient1.agree ⟨.replicate 32 0⟩).isContributory = false := by
    decide +kernel
  rw [← hdelivery] at hdeciding
  exact ⟨Sample.recipient1, w, hdeciding, .inl ⟨.lowOrderEphemeral, .lowOrder hforced⟩⟩

/-- Its recipient cannot load it; an outsider can. -/
theorem Document.load_fails_exactly_forcedDocument :
    (∃ cause, load {} [Sample.recipient1] (StoredDocument.forcedDocument.toArtifact .compact)
      = .error (.decryption cause)) ∧
    ∃ l, load {} [Sample.outsider] (StoredDocument.forcedDocument.toArtifact .compact)
      = .ok l := by
  have hread := StoredDocument.wellFormed_forcedDocument.ofArtifact_toArtifact .compact
  have hfits : (StoredDocument.forcedDocument.toArtifact .compact).length
      ≤ Settings.maxArtifactLength {} := by decide +kernel
  have hdifferent : Sample.outsider.fingerprint
      ≠ .ok (Delivery.forced Sample.recipient1.certificate).readdressed.wrappedKey.recipient := by
    decide +kernel
  have hsound : ¬StoredDocument.forcedDocument.Damaged [Sample.outsider] := by
    intro ⟨c, w, hdeciding, _⟩
    obtain ⟨c, hc, w, hw, haddress⟩ := hdeciding.addressAny
    rw [List.mem_singleton.1 hc, List.mem_singleton.1 hw] at haddress
    exact hdifferent haddress
  obtain ⟨-, -, -, hrecipient⟩ := load_fails_exactly {} [Sample.recipient1] _
  obtain ⟨-, -, -, houtsider⟩ := load_fails_exactly {} [Sample.outsider] _
  exact ⟨(hrecipient _ hfits hread).1.2 StoredDocument.damaged_forcedDocument,
    (houtsider _ hfits hread).2 hsound⟩

end KeyExchange
