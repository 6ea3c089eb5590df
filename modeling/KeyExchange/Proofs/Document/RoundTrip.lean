import KeyExchange.Proofs.Artifact.RoundTrip
import KeyExchange.Proofs.Document.Built
import KeyExchange.Proofs.Document.Signed
import KeyExchange.Proofs.Envelope.WrappedKey
import KeyExchange.Sample.Parties

/-!
# From a document to its artifact and back

A document that was built, saved and loaded again has the ids, the rules and
the recipients that it had, and a report that names its signers and nothing
else.  Its key values come back for everybody when it has no recipients, for
its recipients when it has some, and for nobody else.

* `Document.Stores`: how a saved document holds its keys;
* `stores_of_gives`: so saving stores them, `Stores.recoverKey` and
  `Stores.reveal`: and so loading finds them;
* `Built.load_of_entitled`: what those who are entitled to the values load;
* `load_toArtifact`: the round trip.
-/

namespace KeyExchange

open Drawing Outcome

/-! ## Stored keys -/

/-- The key is stored in the clear. -/
def StoredKey.Plain (k : ContentKey) (s : StoredKey) : Prop :=
  s.id = k.id ∧ ∃ value, k.value = some value ∧ s.value = .plain value

/-- The key is stored under a document key. -/
def StoredKey.Sealed (documentKey : SymmetricKey) (k : ContentKey) (s : StoredKey) : Prop :=
  s.id = k.id ∧ ∃ value v, k.value = some value ∧ s.value = .encrypted v ∧
    v.reveal k.id.octets.toList documentKey = .ok value.octets.toList

/-- A key in the clear is there for everybody. -/
theorem StoredKey.Plain.reveal {k : ContentKey} {s : StoredKey} (h : s.Plain k)
    (documentKey : Option SymmetricKey) : s.reveal documentKey = .ok k := by
  obtain ⟨id, stored⟩ := s
  obtain ⟨_, _⟩ := k
  obtain ⟨rfl, value, rfl, rfl⟩ := h
  rfl

/-- A sealed key is there for those who have the document key. -/
theorem StoredKey.Sealed.reveal {documentKey : SymmetricKey} {k : ContentKey} {s : StoredKey}
    (h : s.Sealed documentKey k) : s.reveal (some documentKey) = .ok k := by
  obtain ⟨id, stored⟩ := s
  obtain ⟨_, _⟩ := k
  obtain ⟨rfl, value, v, rfl, rfl, hopen⟩ := h
  unfold StoredKey.reveal
  dsimp only at hopen ⊢
  rw [hopen, mapError_ok, ok_bind, Octets.ofList?_toList]
  rfl

/-- To others it is known by its id. -/
theorem StoredKey.Sealed.reveal_none {documentKey : SymmetricKey} {k : ContentKey} {s : StoredKey}
    (h : s.Sealed documentKey k) : s.reveal none = .ok ⟨k.id, none⟩ := by
  obtain ⟨id, stored⟩ := s
  obtain ⟨rfl, value, v, -, rfl, -⟩ := h
  rfl

/-- The entry holds the document key for this recipient. -/
def Delivery.Serves (documentKey : SymmetricKey) (r : Certificate) (e : Delivery) : Prop :=
  e.recipient = r ∧ ∃ ephemeral, e.wrappedKey.Wraps r documentKey ephemeral

namespace Document

/-! ## Saving -/

/-- How a saved document holds its keys: in the clear when it has no recipients,
otherwise under a document key that is wrapped for each of them. -/
inductive Stores (d : Document) : List Delivery → List StoredKey → Prop where
  | plain {keys : List StoredKey} (nobody : d.recipients = [])
      (stored : List.Forall₂ StoredKey.Plain d.contentKeys keys) : Stores d [] keys
  | encrypted {delivery : List Delivery} {keys : List StoredKey} (documentKey : SymmetricKey)
      (somebody : d.recipients ≠ [])
      (served : List.Forall₂ (Delivery.Serves documentKey) d.recipients delivery)
      (stored : List.Forall₂ (StoredKey.Sealed documentKey) d.contentKeys keys) :
      Stores d delivery keys

/-- A key that is not sealed is stored in the clear. -/
theorem plain_of_storePlain {k : ContentKey} {s : StoredKey} (h : storePlain k = .ok s) :
    s.Plain k := by
  obtain ⟨id, value⟩ := k
  cases value with
  | none => cases h
  | some value =>
      cases h
      exact ⟨rfl, value, rfl, rfl⟩

/-- A key that is sealed opens under the document key. -/
theorem sealed_of_gives {documentKey : SymmetricKey} {k : ContentKey} {s : StoredKey}
    (h : Gives (storeSealed documentKey k) s) : s.Sealed documentKey k := by
  obtain ⟨id, value⟩ := k
  cases value with
  | none => exact absurd h not_gives_throw
  | some value =>
      obtain ⟨v, hv, h⟩ := h.bind
      have hs := h.pure
      subst hs
      exact ⟨rfl, value, v, rfl, rfl, SealedValue.reveal_of_gives hv.adapt⟩

/-- A delivery entry serves its recipient with the document key. -/
theorem serves_of_gives {documentKey : SymmetricKey} {r : Certificate} {e : Delivery}
    (h : Gives (deliver documentKey r) e) : e.Serves documentKey r := by
  obtain ⟨w, hw, h⟩ := h.bind
  have he := h.pure
  subst he
  exact ⟨rfl, WrappedKey.wraps_of_gives hw.adapt⟩

/-- **Saving stores the keys.** -/
theorem stores_of_gives {d : Document} {delivery : List Delivery} {keys : List StoredKey}
    (h : Gives d.storeKeys (delivery, keys)) : d.Stores delivery keys := by
  unfold storeKeys at h
  by_cases hempty : d.recipients.isEmpty
  · rw [if_pos hempty] at h
    obtain ⟨stored, hstored, h⟩ := h.bind
    cases h.pure
    have hplain := mapM_eq_ok_iff.1 hstored.liftExcept
    exact .plain (List.isEmpty_iff.1 hempty) (hplain.imp fun _ _ => plain_of_storePlain)
  · rw [if_neg hempty] at h
    obtain ⟨documentKey, -, h⟩ := h.bind
    obtain ⟨entries, hentries, h⟩ := h.bind
    obtain ⟨stored, hstored, h⟩ := h.bind
    cases h.pure
    exact .encrypted documentKey (fun hnone => hempty (List.isEmpty_iff.2 hnone))
      (hentries.mapM.imp fun _ _ => serves_of_gives) (hstored.mapM.imp fun _ _ => sealed_of_gives)

namespace Stores

variable {d : Document} {delivery : List Delivery} {keys : List StoredKey}

/-- The recipients stand in their order. -/
theorem recipients (h : d.Stores delivery keys) :
    delivery.map Delivery.recipient = d.recipients := by
  cases h with
  | plain nobody _ => rw [nobody, List.map_nil]
  | encrypted _ _ served _ =>
      have hsame : List.Forall₂ (fun r e => r = Delivery.recipient e) d.recipients delivery :=
        served.imp fun _ _ hserves => hserves.1.symm
      rw [← List.forall₂_map_right_iff, List.forall₂_eq_eq_eq] at hsame
      exact hsame.symm

/-- The ids stand in their order. -/
theorem ids (h : d.Stores delivery keys) :
    keys.map StoredKey.id = d.contentKeys.map ContentKey.id := by
  have hids : List.Forall₂ (fun k s => StoredKey.id s = ContentKey.id k) d.contentKeys keys := by
    cases h with
    | plain _ stored => exact stored.imp fun _ _ hplain => hplain.1
    | encrypted _ _ _ stored => exact stored.imp fun _ _ hsealed => hsealed.1
  have hsame := List.forall₂_map_left_iff.2 (List.forall₂_map_right_iff.2 hids.flip)
  rw [List.forall₂_eq_eq_eq] at hsame
  exact hsame

/-- A value is sealed only when somebody can open it. -/
theorem delivered (h : d.Stores delivery keys)
    (hsealed : ∃ k ∈ keys, k.value.isEncrypted = true) : delivery ≠ [] := by
  cases h with
  | plain _ stored =>
      obtain ⟨s, hs, hencrypted⟩ := hsealed
      obtain ⟨k, -, -, value, -, hvalue⟩ := exists_left_of_forall₂ stored hs
      rw [hvalue] at hencrypted
      cases hencrypted
  | encrypted _ somebody served _ =>
      intro hsame
      subst hsame
      exact somebody (List.forall₂_nil_right_iff.1 served)

/-- Every entry carries the address of its recipient. -/
theorem addressed (h : d.Stores delivery keys) {e : Delivery} (he : e ∈ delivery) :
    e.recipient.fingerprint = .ok e.wrappedKey.recipient := by
  cases h with
  | plain _ _ => exact absurd he List.not_mem_nil
  | encrypted _ _ served _ =>
      obtain ⟨r, -, hrecipient, ephemeral, hwraps⟩ := exists_left_of_forall₂ served he
      rw [hrecipient]
      exact hwraps.address

end Stores

/-- What saving makes of a document. -/
structure SavedAs (d : Document) (signers : Signers) (stored : StoredDocument) : Prop where
  stores : d.Stores stored.delivery stored.contentKeys
  rules : stored.usageRules = d.usageRules
  signed : stored.Signed signers
  wellFormed : stored.WellFormed

/-- A document that was built is saved with everything that was built. -/
theorem Built.savedAs {d : Document} {signers : Signers} (h : d.Built signers)
    {stored : StoredDocument} (hgives : Gives d.toStored stored) : d.SavedAs signers stored := by
  unfold toStored at hgives
  rw [h.stage] at hgives
  obtain ⟨⟨delivery, keys⟩, hkeys, hgives⟩ := hgives.bind
  obtain ⟨hsigned, _, _, _, rfl⟩ := signed_of_signAll hgives.liftExcept
  have hstores := stores_of_gives hkeys
  refine ⟨hstores, rfl, hsigned, ?_⟩
  constructor
  · constructor
    · rfl
    · exact hstores.ids ▸ h.distinct
    · exact hstores.delivered
  · exact fun _ he => hstores.addressed he

/-- An artifact is that of what saving makes. -/
theorem Built.artifact {d : Document} {signers : Signers} (h : d.Built signers)
    {layout : Json.Layout} {artifact : Bytes} (hgives : Gives (d.toArtifact layout) artifact) :
    ∃ stored, d.SavedAs signers stored ∧ artifact = stored.toArtifact layout := by
  obtain ⟨stored, hstored, hgives⟩ := hgives.bind
  exact ⟨stored, h.savedAs hstored, hgives.pure.symm⟩

/-! ## Loading -/

variable {d : Document} {delivery : List Delivery} {keys : List StoredKey}
  {credentials : List Credential}

/-- Steps that undo what related two lists give the first list back, mapped. -/
theorem mapM_of_forall₂ {R : ContentKey → StoredKey → Prop}
    {f : StoredKey → Except DocumentFault ContentKey} {g : ContentKey → ContentKey}
    {ks : List ContentKey} (h : List.Forall₂ R ks keys)
    (hf : ∀ k s, R k s → f s = .ok (g k)) : keys.mapM f = .ok (ks.map g) := by
  rw [mapM_eq_ok_iff, List.forall₂_map_right_iff]
  exact (h.imp hf).flip

/-- Entries that serve some recipients wrap the key for each of them. -/
theorem wrapsAll_of_serves {documentKey : SymmetricKey} {recipients : List Certificate}
    (h : List.Forall₂ (Delivery.Serves documentKey) recipients delivery) :
    WrappedKey.WrapsAll recipients (delivery.map Delivery.wrappedKey) documentKey :=
  List.forall₂_map_right_iff.2 (h.imp fun _ _ hserves => hserves.2)

/-- Those who are entitled to the values find them. -/
theorem Stores.reveal (h : d.Stores delivery keys)
    (hclean : WrappedKey.NoCollision credentials d.recipients)
    (hentitled : d.recipients = [] ∨ ∃ c ∈ credentials, c.certificate ∈ d.recipients) :
    ∃ documentKey,
      WrappedKey.unwrapAny (delivery.map Delivery.wrappedKey) credentials = .ok documentKey ∧
      keys.mapM (StoredKey.reveal documentKey) = .ok d.contentKeys := by
  cases h with
  | plain _ stored =>
      have hvalues := mapM_of_forall₂ stored fun _ _ hplain => hplain.reveal none
      rw [List.map_id'] at hvalues
      exact ⟨none, WrappedKey.unwrapAny_nil credentials, hvalues⟩
  | encrypted documentKey somebody served stored =>
      have hkey := (wrapsAll_of_serves served).unwrapAny hclean
      have hvalues := mapM_of_forall₂ stored fun _ _ hsealed => hsealed.reveal
      rw [List.map_id'] at hvalues
      exact ⟨documentKey, hkey.1 (hentitled.resolve_left somebody), hvalues⟩

/-- To others the values are unknown. -/
theorem Stores.reveal_none (h : d.Stores delivery keys)
    (hclean : WrappedKey.NoCollision credentials d.recipients) (hsomebody : d.recipients ≠ [])
    (hstranger : ∀ c ∈ credentials, c.certificate ∉ d.recipients) :
    WrappedKey.unwrapAny (delivery.map Delivery.wrappedKey) credentials = .ok none ∧
      keys.mapM (StoredKey.reveal none) = .ok (d.contentKeys.map fun k => ⟨k.id, none⟩) := by
  cases h with
  | plain nobody _ => exact absurd nobody hsomebody
  | encrypted documentKey _ served stored =>
      have hkey := (wrapsAll_of_serves served).unwrapAny hclean
      exact ⟨hkey.2 hstranger, mapM_of_forall₂ stored fun _ _ hsealed => hsealed.reveal_none⟩

/-- The document that is loaded, once its key values are known. -/
theorem SavedAs.load {signers : Signers} {stored : StoredDocument} (h : d.SavedAs signers stored)
    {settings : Settings} {layout : Json.Layout}
    (hfits : (stored.toArtifact layout).length ≤ settings.maxArtifactLength)
    {documentKey : Option SymmetricKey} {contentKeys : List ContentKey}
    (hkey : WrappedKey.unwrapAny (stored.delivery.map Delivery.wrappedKey) credentials
      = .ok documentKey)
    (hvalues : stored.contentKeys.mapM (StoredKey.reveal documentKey) = .ok contentKeys) :
    Document.load settings credentials (stored.toArtifact layout)
      = .ok { contentKeys, recipients := d.recipients, usageRules := d.usageRules,
              stage := .loaded (signers.report d.usageRules) } := by
  have hreport := h.signed.checkSignatures
  have hrecipients := h.stores.recipients
  unfold Document.load
  rw [if_neg (Nat.not_lt.2 hfits), h.wellFormed.ofArtifact_toArtifact, ok_bind]
  unfold ofStored StoredDocument.recoverKey
  rw [hreport, hkey, ok_bind, mapError_ok, ok_bind, hvalues, hrecipients, h.rules]
  rfl

/-- **Those who are entitled to the values load the document as it was built**, with the
report in place of the signers. -/
theorem Built.load_of_entitled {signers : Signers} (h : d.Built signers) {layout : Json.Layout}
    {artifact : Bytes} (hgives : Gives (d.toArtifact layout) artifact) {settings : Settings}
    (hfits : artifact.length ≤ settings.maxArtifactLength)
    (hclean : WrappedKey.NoCollision credentials d.recipients)
    (hentitled : d.recipients = [] ∨ ∃ c ∈ credentials, c.certificate ∈ d.recipients) :
    Document.load settings credentials artifact
      = .ok { d with stage := .loaded (signers.report d.usageRules) } := by
  obtain ⟨stored, hstored, rfl⟩ := h.artifact hgives
  obtain ⟨documentKey, hkey, hvalues⟩ := hstored.stores.reveal hclean hentitled
  exact hstored.load hfits hkey hvalues

/-- **The round trip.**  A document that was built by any edits and saved is loaded
with its ids, rules and recipients.  Its values are all there for those who are
entitled to them, and for others there is none.  The report names those who
signed, each once, and finds nothing that does not hold.  All this is as long as
the hash of fingerprints does not collide on the certificates at hand. -/
theorem load_toArtifact {edits : List Edit} {layout : Json.Layout} {entropy : Entropy}
    {artifact : Bytes} {settings : Settings} {credentials : List Credential}
    (hsaved : ((empty.editEach edits).toArtifact layout entropy).1 = .ok artifact)
    (hfits : artifact.length ≤ settings.maxArtifactLength)
    (hclean : WrappedKey.NoCollision credentials (empty.editEach edits).recipients) :
    let d := empty.editEach edits
    let signers := Signers.ofEdits edits
    ∃ l, load settings credentials artifact = .ok l ∧
      l.contentKeys.map ContentKey.id = d.contentKeys.map ContentKey.id ∧
      l.usageRules = d.usageRules ∧
      l.recipients = d.recipients ∧
      (d.recipients = [] ∨ (∃ c ∈ credentials, c.certificate ∈ d.recipients) →
        (∀ k ∈ l.contentKeys, k.value.isSome = true) ∧ l.contentKeys = d.contentKeys) ∧
      (d.recipients ≠ [] → (∀ c ∈ credentials, c.certificate ∉ d.recipients) →
        ∀ k ∈ l.contentKeys, k.value = none) ∧
      l.report? = some (signers.report d.usageRules) ∧
      (signers.report d.usageRules).hasInvalid = false := by
  intro d signers
  have hbuilt : d.Built signers := built_editEach edits
  obtain ⟨stored, hstored, rfl⟩ := hbuilt.artifact (gives_of_fst hsaved)
  have hsound : (signers.report d.usageRules).hasInvalid = false := by
    rcases hsigner : signers.document with _ | signer
    · simp [SignatureReport.hasInvalid, Signers.report, hsigner]
    · simp [SignatureReport.hasInvalid, Signers.report, hsigner]
  by_cases hentitled : d.recipients = [] ∨ ∃ c ∈ credentials, c.certificate ∈ d.recipients
  · obtain ⟨documentKey, hkey, hvalues⟩ := hstored.stores.reveal hclean hentitled
    refine ⟨_, hstored.load hfits hkey hvalues, rfl, rfl, rfl, ?_, ?_, rfl, hsound⟩
    · exact fun _ => ⟨hbuilt.valued, rfl⟩
    · intro hsomebody hstranger
      obtain ⟨c, hc, hmem⟩ := hentitled.resolve_left hsomebody
      exact absurd hmem (hstranger c hc)
  · obtain ⟨hsomebody, hothers⟩ := not_or.1 hentitled
    have hstranger : ∀ c ∈ credentials, c.certificate ∉ d.recipients :=
      fun c hc hmem => hothers ⟨c, hc, hmem⟩
    obtain ⟨hkey, hvalues⟩ := hstored.stores.reveal_none hclean hsomebody hstranger
    refine ⟨_, hstored.load hfits hkey hvalues, ?_, rfl, rfl, ?_, ?_, rfl, hsound⟩
    · rw [List.map_map]
      rfl
    · exact fun h => absurd h hentitled
    · intro _ _ k hk
      obtain ⟨_, -, rfl⟩ := List.mem_map.1 hk
      rfl

/-- One key for one recipient, signed by its producer. -/
def addressedEdits : List Edit :=
  [.addContentKey ⟨Sample.keyA, some Sample.valueA⟩,
    .addRecipient Sample.recipient1.certificate, .setDocumentSigner Sample.producer]

/-- An outsider's credential in front does not keep the recipient from the value. -/
theorem load_toArtifact_addressedEdits :
    ∃ artifact l,
      ((empty.editEach addressedEdits).toArtifact .compact (.cycle [1, 2, 3])).1 = .ok artifact ∧
      load { maxArtifactLength := artifact.length } [Sample.outsider, Sample.recipient1] artifact
        = .ok l ∧
      l.contentKeys = [⟨Sample.keyA, some Sample.valueA⟩] ∧
      l.signedBy = some Sample.producer.certificate := by
  have hsaves : ((empty.editEach addressedEdits).toArtifact .compact
      (.cycle [1, 2, 3])).1.toOption.isSome = true := by decide +kernel
  have hdifferent : Sample.outsider.certificate.fingerprint
      ≠ Sample.recipient1.certificate.fingerprint := by decide +kernel
  have hclean : WrappedKey.NoCollision [Sample.outsider, Sample.recipient1]
      (empty.editEach addressedEdits).recipients := by
    intro c hc r hr
    have hrecipient : r = Sample.recipient1.certificate := List.mem_singleton.1 hr
    subst hrecipient
    rcases List.mem_cons.1 hc with rfl | hc
    · exact Certificate.not_collide_of_ne hdifferent
    · rw [List.mem_singleton.1 hc]
      exact Certificate.not_collide_self _
  rcases hsaved : ((empty.editEach addressedEdits).toArtifact .compact (.cycle [1, 2, 3])).1 with
    fault | artifact
  · rw [hsaved] at hsaves
    cases hsaves
  · have hfits : artifact.length
        ≤ Settings.maxArtifactLength { maxArtifactLength := artifact.length } := le_rfl
    obtain ⟨l, hload, -, -, -, hvalues, -, hreport, -⟩ := load_toArtifact hsaved hfits hclean
    have hentitled : ∃ c ∈ [Sample.outsider, Sample.recipient1],
        c.certificate ∈ (empty.editEach addressedEdits).recipients :=
      ⟨Sample.recipient1, by simp, List.mem_singleton.2 rfl⟩
    refine ⟨artifact, l, rfl, hload, (hvalues (.inr hentitled)).2, ?_⟩
    rw [signedBy, hreport]
    rfl

end Document

end KeyExchange
