import KeyExchange.Proofs.Document.Failure
import KeyExchange.Proofs.Document.Saving

/-!
# Values and what they are sealed in

A load finds a value, or a document key, only in the ciphertext that sealing makes of it.
So a ciphertext that was looked at cannot be spoiled without the load failing: not its
tag, and not by cutting it short.

* `SymmetricKey.encrypt_of_decrypt`: what opens was sealed;
* `StoredDocument.Selects`: the entry that is opened, and the credential that opens it;
* `StoredKey.SealsTo`: the value of a key is the one that is sealed;
* `Refused`: a document that loads with one fault only;
* `refused_of_entry`, `refused_of_value`: what becomes of a spoiled ciphertext;
* `load_opens_what_was_sealed`: all of this, for any artifact that loads.
-/

namespace KeyExchange

open Outcome

namespace SymmetricKey

variable {key : SymmetricKey} {nonce : Nonce} {aad message ciphertext spoiled : Bytes}

/-- A message is found when the cipher opens it. -/
theorem decrypt_eq_ok_iff :
    key.decrypt nonce aad ciphertext = .ok message ↔
      Aead.decrypt key.octets nonce.octets aad ciphertext = some message := by
  unfold decrypt
  cases Aead.decrypt key.octets nonce.octets aad ciphertext with
  | none => exact iff_of_false (error_ne_ok _ _) nofun
  | some opened => rw [Except.ok.injEq, Option.some.injEq]

/-- **What opens was sealed.** -/
theorem encrypt_of_decrypt (h : key.decrypt nonce aad ciphertext = .ok message) :
    key.encrypt nonce aad message = .ok ciphertext := by
  rw [encrypt, Aead.encrypt_of_decrypt (decrypt_eq_ok_iff.1 h)]

/-- **What was spoiled does not open.** -/
theorem decrypt_of_spoiled (h : key.decrypt nonce aad ciphertext = .ok message)
    (hspoiled : Aead.Spoiled ciphertext spoiled) :
    key.decrypt nonce aad spoiled = .error (.decryption .tagMismatch) := by
  rw [decrypt, Aead.decrypt_of_spoiled (decrypt_eq_ok_iff.1 h) hspoiled]

end SymmetricKey

/-! ## The entry that is opened -/

/-- The entry with another ciphertext. -/
def Delivery.withCiphertext (e : Delivery) (ciphertext : Bytes) : Delivery :=
  { e with wrappedKey := { e.wrappedKey with ciphertext } }

/-- The key under which the entry is sealed, as a credential derives it. -/
def WrappedKey.wrappingKeyFor (w : WrappedKey) (c : Credential) : SymmetricKey :=
  wrappingKey (c.agree w.ephemeralKey) w.recipient w.ephemeralKey

/-- Of the credentials `c` is the first with an entry of its own, and `e`, behind `before`,
is the first of these. -/
structure StoredDocument.Selects (d : StoredDocument) (credentials : List Credential)
    (c : Credential) (before : List Delivery) (e : Delivery) (after : List Delivery) : Prop where
  delivery : d.delivery = before ++ e :: after
  address : c.fingerprint = .ok e.wrappedKey.recipient
  first : ∀ e' ∈ before, c.fingerprint ≠ .ok e'.wrappedKey.recipient
  credential : ∃ earlier later, credentials = earlier ++ c :: later ∧
    ∀ c' ∈ earlier, ∀ e' ∈ d.delivery, c'.fingerprint ≠ .ok e'.wrappedKey.recipient

namespace StoredDocument

variable {d : StoredDocument} {credentials : List Credential} {c : Credential}
  {before after : List Delivery} {e : Delivery} {key : SymmetricKey}

/-- The entry that is selected is the one that decides. -/
theorem Selects.deciding (h : d.Selects credentials c before e after) :
    WrappedKey.Deciding (d.delivery.map Delivery.wrappedKey) credentials c e.wrappedKey where
  address := h.address
  credential := by
    obtain ⟨earlier, later, hsplit, hothers⟩ := h.credential
    exact ⟨earlier, later, hsplit, fun c' hc' => List.forall_mem_map.2 (hothers c' hc')⟩
  entry := by
    refine ⟨before.map Delivery.wrappedKey, after.map Delivery.wrappedKey, ?_,
      List.forall_mem_map.2 h.first⟩
    rw [h.delivery, List.map_append, List.map_cons]

/-- An entry that decides is selected where it stands. -/
theorem exists_selects (h : d.Addresses credentials) :
    ∃ c before e after, d.Selects credentials c before e after := by
  obtain ⟨c, w, haddress, ⟨earlier, later, hcredentials, hothers⟩, before, after, hsplit, hfirst⟩ :=
    WrappedKey.exists_deciding h
  obtain ⟨before', rest, hdelivery, rfl, hrest⟩ := List.map_eq_append_iff.1 hsplit
  obtain ⟨e, after', rfl, rfl, rfl⟩ := List.map_eq_cons_iff.1 hrest
  exact ⟨c, before', e, after', hdelivery, haddress,
    fun e' he' => hfirst _ (List.mem_map_of_mem he'), earlier, later, hcredentials,
    fun c' hc' e' he' => hothers c' hc' _ (List.mem_map_of_mem he')⟩

/-- Another ciphertext in the entry does not change what is selected. -/
theorem Selects.withCiphertext (h : d.Selects credentials c before e after) (ciphertext : Bytes) :
    { d with delivery := before ++ e.withCiphertext ciphertext :: after }.Selects credentials c
      before (e.withCiphertext ciphertext) after where
  delivery := rfl
  address := h.address
  first := h.first
  credential := by
    obtain ⟨earlier, later, hsplit, hothers⟩ := h.credential
    refine ⟨earlier, later, hsplit, fun c' hc' => ?_⟩
    have hall := hothers c' hc'
    rw [h.delivery, List.forall_mem_append, List.forall_mem_cons] at hall
    rw [List.forall_mem_append, List.forall_mem_cons]
    exact hall

/-- The document key is found in the entry that is selected. -/
theorem Selects.recoverKey (h : d.Selects credentials c before e after) :
    d.recoverKey credentials
      = ((e.wrappedKey.reveal c).map some).mapError DocumentFault.ofEnvelope := by
  rw [StoredDocument.recoverKey, h.deciding.unwrapAny]

/-- The document key was found in the entry that is selected. -/
theorem Selects.opens (h : d.Selects credentials c before e after)
    (hkey : d.recoverKey credentials = .ok (some key)) : e.wrappedKey.Opens c key := by
  rw [h.recoverKey, mapError_eq_ok_iff, map_eq_ok_iff] at hkey
  obtain ⟨_, hreveal, hsame⟩ := hkey
  cases hsame
  exact WrappedKey.reveal_eq_ok_iff.1 hreveal

/-- There is a document key only for somebody who is addressed. -/
theorem addresses_of_recoverKey (hkey : d.recoverKey credentials = .ok (some key)) :
    d.Addresses credentials :=
  (WrappedKey.isSome_of_unwrapAny (mapError_eq_ok_iff.1 hkey)).1 rfl

end StoredDocument

namespace WrappedKey

variable {w : WrappedKey} {c : Credential} {key : SymmetricKey}

/-- The key in an entry is sealed under the key that the credential derives. -/
theorem Opens.decrypt (h : w.Opens c key) :
    (w.wrappingKeyFor c).decrypt w.nonce w.recipient.octets.toList w.ciphertext
      = .ok key.octets.toList :=
  SymmetricKey.decrypt_eq_ok_iff.2 h.opened

/-- The key is the one that is sealed in the entry. -/
theorem Opens.encrypt (h : w.Opens c key) :
    (w.wrappingKeyFor c).encrypt w.nonce w.recipient.octets.toList key.octets.toList
      = .ok w.ciphertext :=
  SymmetricKey.encrypt_of_decrypt h.decrypt

/-- An entry that was spoiled does not open. -/
theorem Opens.reveal_spoiled (h : w.Opens c key) {spoiled : Bytes}
    (hspoiled : Aead.Spoiled w.ciphertext spoiled) :
    reveal { w with ciphertext := spoiled } c = .error (.decryption .tagMismatch) := by
  have hfails := SymmetricKey.decrypt_of_spoiled h.decrypt hspoiled
  unfold wrappingKeyFor at hfails
  unfold reveal
  dsimp only
  rw [if_pos h.agreed, hfails, error_bind]

end WrappedKey

/-! ## The values -/

namespace StoredKey

/-- The value of `k` is the one that is sealed in `s`, if one is. -/
def SealsTo (key : SymmetricKey) (s : StoredKey) (k : ContentKey) : Prop :=
  k.id = s.id ∧ ∀ v, s.value = .encrypted v → ∃ value, k.value = some value ∧
    key.encrypt v.nonce s.id.octets.toList value.octets.toList = .ok v.ciphertext

variable {key : SymmetricKey} {s : StoredKey} {k : ContentKey} {id : KeyId} {v : SealedValue}

/-- A sealed value is revealed when it opens and is as long as a value. -/
theorem decrypt_of_reveal (h : reveal (some key) ⟨id, .encrypted v⟩ = .ok k) :
    ∃ value : KeyValue, k = ⟨id, some value⟩ ∧
      key.decrypt v.nonce id.octets.toList v.ciphertext = .ok value.octets.toList := by
  obtain ⟨octets, hopen, h⟩ := bind_eq_ok_iff.1 h
  rw [mapError_eq_ok_iff] at hopen
  rcases hvalue : Octets.ofList? 16 octets with _ | value
  · rw [hvalue] at h
    cases h
  · rw [hvalue] at h
    cases h
    rw [← Octets.ofList?_eq_some_iff.1 hvalue] at hopen
    exact ⟨⟨value⟩, rfl, hopen⟩

/-- **What is revealed was sealed.** -/
theorem sealsTo_of_reveal (h : s.reveal (some key) = .ok k) : s.SealsTo key k := by
  obtain ⟨id, value | v⟩ := s
  · cases h
    exact ⟨rfl, nofun⟩
  · obtain ⟨value, rfl, hopen⟩ := decrypt_of_reveal h
    refine ⟨rfl, fun v' hv' => ?_⟩
    cases hv'
    exact ⟨value, rfl, SymmetricKey.encrypt_of_decrypt hopen⟩

/-- A value that was spoiled is not revealed. -/
theorem reveal_spoiled (h : reveal (some key) ⟨id, .encrypted v⟩ = .ok k) {spoiled : Bytes}
    (hspoiled : Aead.Spoiled v.ciphertext spoiled) :
    reveal (some key) ⟨id, .encrypted { v with ciphertext := spoiled }⟩
      = .error (.decryption .tagMismatch) := by
  obtain ⟨value, -, hopen⟩ := decrypt_of_reveal h
  have hfails := SymmetricKey.decrypt_of_spoiled hopen hspoiled
  unfold reveal SealedValue.reveal
  dsimp only
  rw [hfails]
  rfl

end StoredKey

/-! ## Documents -/

namespace Document

/-- The document can be read, and no artifact of it loads: the fault is this one. -/
structure Refused (settings : Settings) (credentials : List Credential) (fault : DocumentFault)
    (d : StoredDocument) : Prop where
  readable : ∀ layout, StoredDocument.ofArtifact (d.toArtifact layout) = .ok d
  refused : ∀ artifact, artifact.length ≤ settings.maxArtifactLength →
    StoredDocument.ofArtifact artifact = .ok d →
    load settings credentials artifact = .error fault

/-- A well-formed document that does not open is refused. -/
theorem refused_of_ofStored {settings : Settings} {credentials : List Credential}
    {fault : DocumentFault} {d : StoredDocument} (hformed : d.WellFormed)
    (h : ofStored d credentials = .error fault) : Refused settings credentials fault d where
  readable := hformed.ofArtifact_toArtifact
  refused artifact hfits hread := by
    rw [load_of_length_le hfits, hread, ok_bind, h]

variable {d : StoredDocument} {credentials : List Credential} {key : SymmetricKey}

/-- **A spoiled entry.**  The document key is not found. -/
theorem refused_of_entry (settings : Settings) (hformed : d.WellFormed)
    (hkey : d.recoverKey credentials = .ok (some key)) {c : Credential}
    {before after : List Delivery} {e : Delivery} (h : d.Selects credentials c before e after)
    {spoiled : Bytes} (hspoiled : Aead.Spoiled e.wrappedKey.ciphertext spoiled) :
    Refused settings credentials (.decryption .tagMismatch)
      { d with delivery := before ++ e.withCiphertext spoiled :: after } := by
  let changed : StoredDocument :=
    { d with delivery := before ++ e.withCiphertext spoiled :: after }
  have haddressed := hformed.addressed
  rw [StoredDocument.Addressed, h.delivery, List.forall_mem_append, List.forall_mem_cons]
    at haddressed
  have hchanged : changed.WellFormed := { hformed with
    delivered := fun _ => List.append_ne_nil_of_right_ne_nil _ (List.cons_ne_nil _ _)
    addressed := by
      rw [StoredDocument.Addressed, List.forall_mem_append, List.forall_mem_cons]
      exact haddressed }
  have hselects : changed.Selects credentials c before (e.withCiphertext spoiled) after :=
    h.withCiphertext spoiled
  have hfails : (e.withCiphertext spoiled).wrappedKey.reveal c
      = .error (.decryption .tagMismatch) := (h.opens hkey).reveal_spoiled hspoiled
  obtain ⟨report, -, -, -, hreport, -⟩ := changed.exists_report
  apply refused_of_ofStored hchanged
  unfold ofStored
  rw [hreport, ok_bind, hselects.recoverKey, hfails]
  rfl

/-- **A spoiled value.**  The document key is found, and the values before it, but not this
one. -/
theorem refused_of_value (settings : Settings) (hformed : d.WellFormed)
    (hkey : d.recoverKey credentials = .ok (some key)) {ks : List ContentKey}
    (hvalues : d.contentKeys.mapM (StoredKey.reveal (some key)) = .ok ks)
    {before after : List StoredKey} {id : KeyId} {v : SealedValue}
    (hsplit : d.contentKeys = before ++ ⟨id, .encrypted v⟩ :: after) {spoiled : Bytes}
    (hspoiled : Aead.Spoiled v.ciphertext spoiled) :
    Refused settings credentials (.decryption .tagMismatch)
      { d with contentKeys :=
          before ++ ⟨id, .encrypted { v with ciphertext := spoiled }⟩ :: after } := by
  let changed : StoredDocument := { d with contentKeys :=
    before ++ ⟨id, .encrypted { v with ciphertext := spoiled }⟩ :: after }
  have hids : changed.contentKeys.map StoredKey.id = d.contentKeys.map StoredKey.id := by
    rw [hsplit, List.map_append, List.map_append, List.map_cons, List.map_cons]
  have hsealed : ∃ k ∈ d.contentKeys, k.value.isEncrypted = true := by
    rw [hsplit]
    exact ⟨_, List.mem_append_cons_self, rfl⟩
  have hchanged : changed.WellFormed := { hformed with
    distinct := hids ▸ hformed.distinct
    delivered := fun _ => hformed.delivered hsealed }
  have hrevealed (s : StoredKey) (hs : s ∈ d.contentKeys) :
      ∃ k, s.reveal (some key) = .ok k := by
    obtain ⟨k, -, hk⟩ := exists_right_of_forall₂ (mapM_eq_ok_iff.1 hvalues) hs
    exact ⟨k, hk⟩
  rw [hsplit, List.forall_mem_append, List.forall_mem_cons] at hrevealed
  obtain ⟨hbefore, ⟨k, hk⟩, -⟩ := hrevealed
  have hfails : changed.contentKeys.mapM (StoredKey.reveal (some key))
      = .error (.decryption .tagMismatch) :=
    mapM_eq_error hbefore (StoredKey.reveal_spoiled hk hspoiled)
  have hfound : changed.recoverKey credentials = .ok (some key) := hkey
  obtain ⟨report, -, -, -, hreport, -⟩ := changed.exists_report
  apply refused_of_ofStored hchanged
  unfold ofStored
  rw [hreport, ok_bind, hfound, ok_bind, hfails]
  rfl

/-- **A load opens what was sealed.**  Of an artifact that loads with a document key,
every sealed value was found in the very ciphertext that sealing makes of it under that
key, its nonce and its id, and the key itself in the ciphertext that sealing makes of it
for the entry that was selected.  So when one of these ciphertexts has any other tag, or is
cut too short to have one, the load fails because the tag does not match. -/
theorem load_opens_what_was_sealed {settings : Settings} {credentials : List Credential}
    {artifact : Bytes} {l : Document} {d : StoredDocument} {key : SymmetricKey}
    (hload : load settings credentials artifact = .ok l)
    (hread : StoredDocument.ofArtifact artifact = .ok d)
    (hkey : d.recoverKey credentials = .ok (some key)) :
    List.Forall₂ (StoredKey.SealsTo key) d.contentKeys l.contentKeys ∧
    (∀ before id v after spoiled, d.contentKeys = before ++ ⟨id, .encrypted v⟩ :: after →
      Aead.Spoiled v.ciphertext spoiled →
      Refused settings credentials (.decryption .tagMismatch)
        { d with contentKeys :=
            before ++ ⟨id, .encrypted { v with ciphertext := spoiled }⟩ :: after }) ∧
    ∃ c before e after, d.Selects credentials c before e after ∧
      (e.wrappedKey.wrappingKeyFor c).encrypt e.wrappedKey.nonce
        e.wrappedKey.recipient.octets.toList key.octets.toList = .ok e.wrappedKey.ciphertext ∧
      ∀ spoiled, Aead.Spoiled e.wrappedKey.ciphertext spoiled →
        Refused settings credentials (.decryption .tagMismatch)
          { d with delivery := before ++ e.withCiphertext spoiled :: after } := by
  obtain ⟨-, d', report, key', ks, hread', -, hkey', hvalues, rfl⟩ := load_eq_ok_iff.1 hload
  obtain rfl := Except.ok.inj (hread.symm.trans hread')
  obtain rfl := Except.ok.inj (hkey.symm.trans hkey')
  have hformed := StoredDocument.wellFormed_of_ofArtifact hread
  obtain ⟨c, before, e, after, hselects⟩ :=
    StoredDocument.exists_selects (StoredDocument.addresses_of_recoverKey hkey)
  refine ⟨(mapM_eq_ok_iff.1 hvalues).imp fun _ _ => StoredKey.sealsTo_of_reveal, ?_,
    c, before, e, after, hselects, (hselects.opens hkey).encrypt, ?_⟩
  · intro before id v after spoiled hsplit hspoiled
    exact refused_of_value settings hformed hkey hvalues hsplit hspoiled
  · intro spoiled hspoiled
    exact refused_of_entry settings hformed hkey hselects hspoiled

/-- Without its ciphertext the value of a saved document is not found any more. -/
theorem load_opens_what_was_sealed_addressedEdits :
    ∃ (stored : StoredDocument) (settings : Settings) (v : SealedValue) (l : Document),
      load settings [Sample.recipient1] (stored.toArtifact .compact) = .ok l ∧
      l.contentKeys = [⟨Sample.keyA, some Sample.valueA⟩] ∧
      stored.contentKeys = [⟨Sample.keyA, .encrypted v⟩] ∧
      Refused settings [Sample.recipient1] (.decryption .tagMismatch)
        { stored with contentKeys := [⟨Sample.keyA, .encrypted { v with ciphertext := [] }⟩] } := by
  obtain ⟨stored, hstored⟩ := exists_savedAs_addressedEdits
  obtain ⟨key, v, hkeys, hkey, hvalues⟩ := hstored.reveal_addressedEdits
  let settings : Settings := ⟨.compact, (stored.toArtifact .compact).length⟩
  have hfits : (stored.toArtifact .compact).length ≤ settings.maxArtifactLength := le_rfl
  have hload := hstored.load hfits hkey hvalues
  have hread := hstored.wellFormed.ofArtifact_toArtifact .compact
  have hfound : stored.recoverKey [Sample.recipient1] = .ok (some key) :=
    mapError_eq_ok_iff.2 hkey
  obtain ⟨-, hspoils, -⟩ := load_opens_what_was_sealed hload hread hfound
  have hcut : Aead.Spoiled v.ciphertext [] := .cut (by decide)
  exact ⟨stored, settings, v, _, hload, rfl, hkeys, hspoils [] Sample.keyA v [] [] hkeys hcut⟩

end Document

end KeyExchange
