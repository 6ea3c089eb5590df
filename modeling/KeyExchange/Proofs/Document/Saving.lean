import KeyExchange.Proofs.Document.Lifecycle
import KeyExchange.Proofs.Document.RoundTrip
import KeyExchange.Proofs.Sink

/-!
# When a save fails

A document that is being built has a value for every key, every scope of it can be
encoded, and keys and values are short enough for one nonce.  So only one step of a save
can fail: the agreement with the encryption key of a recipient.  Whatever comes of it,
nothing is written before the artifact is there in full.

* `Document.Agrees`: the keys of the recipients agree with the secrets drawn for them;
* `Document.DrawnFrom`: the secrets and nonces of a save come from the random source;
* `draws_deliver`, `draws_storeSealed`, `draws_storeKeys`: the steps of a save that does
  not fail;
* `Built.draws_toArtifact`, `Built.fails_toStored`: whether it fails,
  `agrees_of_credentials`: for recipients with credentials it does not;
* `saveTo_of_error`, `saveTo_of_ok`, `saveTo_cases`: what a sink is left with;
* `save_fails_exactly`: all of this.
-/

namespace KeyExchange

open Drawing Outcome

/-- Something went wrong outside. -/
def DocumentFault.IsIo (fault : DocumentFault) : Prop := ∃ cause, fault = .io cause

namespace Document

/-- The encryption key of every recipient agrees with the secret that is drawn for it.
The document key is drawn first, and then a secret and a nonce for each recipient. -/
def Agrees (d : Document) (e : Entropy) : Prop :=
  ∀ i r, d.recipients[i]? = some r →
    ((e.secretAfter (32 + 44 * i)).agree r.encryptionKey).isContributory = true

/-- The entries carry the public halves of the secrets drawn for them. -/
def Carries (delivery : List Delivery) (e : Entropy) : Prop :=
  ∀ i entry, delivery[i]? = some entry →
    entry.wrappedKey.ephemeralKey = (e.secretAfter (32 + 44 * i)).publicKey

/-- How many octets are drawn for a save that does not fail. -/
def drawn (d : Document) : Nat :=
  if d.recipients = [] then 0 else 32 + 44 * d.recipients.length + 12 * d.contentKeys.length

/-- Entries and stored keys have their secrets and nonces from the source: the document
key comes first, then a secret and a nonce for each recipient, and then a nonce for each
key.  The document key is what the entries hold and what the values are sealed under. -/
structure DrawnFrom (d : Document) (e : Entropy) (delivery : List Delivery)
    (keys : List StoredKey) : Prop where
  length_delivery : delivery.length = d.recipients.length
  entry : ∀ i r, d.recipients[i]? = some r →
    ∃ w, delivery[i]? = some ⟨r, w⟩ ∧ w.Wraps r e.nextKey (e.secretAfter (32 + 44 * i)) ∧
      w.nonce = e.nonceAfter (64 + 44 * i)
  length_keys : keys.length = d.contentKeys.length
  value : ∀ j k, d.contentKeys[j]? = some k →
    ∃ value v, k.value = some value ∧ keys[j]? = some ⟨k.id, .encrypted v⟩ ∧
      v.nonce = e.nonceAfter (32 + 44 * d.recipients.length + 12 * j) ∧
      e.nextKey.encrypt v.nonce k.id.octets.toList value.octets.toList = .ok v.ciphertext

/-- So the entries carry the public halves of the secrets. -/
theorem DrawnFrom.carries {d : Document} {e : Entropy} {delivery : List Delivery}
    {keys : List StoredKey} (h : d.DrawnFrom e delivery keys) : Carries delivery e := by
  intro i entry hentry
  have hi : i < d.recipients.length := h.length_delivery ▸ (List.getElem?_eq_some_iff.1 hentry).1
  obtain ⟨w, hw, hwraps, -⟩ := h.entry i _ (List.getElem?_eq_getElem hi)
  cases hentry.symm.trans hw
  exact hwraps.ephemeralKey

/-- Where the secret for a recipient is drawn. -/
theorem secretAfter_entry (e : Entropy) (i : Nat) :
    e.secretAfter (32 + 44 * i) = ((e.skip 32).skip (44 * i)).secretAfter 0 := by
  rw [Entropy.secretAfter_skip, Entropy.secretAfter_skip, Nat.add_zero]

/-- Where the nonce of its entry is drawn. -/
theorem nonceAfter_entry (e : Entropy) (i : Nat) :
    e.nonceAfter (64 + 44 * i) = ((e.skip 32).skip (44 * i)).nonceAfter 32 := by
  rw [Entropy.nonceAfter_skip, Entropy.nonceAfter_skip, Nat.add_comm (44 * i), ← Nat.add_assoc]

/-- Where the nonce of a value is drawn. -/
theorem nonceAfter_value (e : Entropy) (count j : Nat) :
    e.nonceAfter (32 + 44 * count + 12 * j)
      = (((e.skip 32).skip (44 * count)).skip (12 * j)).nonceAfter 0 := by
  rw [Entropy.nonceAfter_skip, Entropy.nonceAfter_skip, Entropy.nonceAfter_skip, Nat.add_zero,
    Nat.add_assoc]

/-! ## Storing the keys -/

/-- A delivery entry draws a secret and a nonce, if the recipient has no low order. -/
theorem draws_deliver (documentKey : SymmetricKey) {r : Certificate} {e : Entropy}
    (h : ((e.secretAfter 0).agree r.encryptionKey).isContributory = true) :
    ∃ entry, Draws (deliver documentKey r) e 44 entry ∧
      ∃ w, entry = ⟨r, w⟩ ∧ w.Wraps r documentKey (e.secretAfter 0) ∧
        w.nonce = e.nonceAfter 32 := by
  obtain ⟨w, hw, hwraps⟩ := WrappedKey.draws_wrap documentKey h
  refine ⟨⟨r, w⟩, ?_, w, rfl, hwraps⟩
  unfold deliver
  apply (hw.adapt DocumentFault.ofEnvelope).bind_free
  exact draws_pure _ _

/-- For a recipient of low order there is no entry. -/
theorem fails_deliver (documentKey : SymmetricKey) {r : Certificate} {e : Entropy}
    (h : ¬((e.secretAfter 0).agree r.encryptionKey).isContributory = true) :
    Fails (deliver documentKey r) e (.encryption .lowOrderRecipient) := by
  unfold deliver
  exact ((WrappedKey.fails_wrap documentKey h).adapt DocumentFault.ofEnvelope).bind _

/-- A key with a value is sealed with the nonce that is drawn for it. -/
theorem draws_storeSealed (documentKey : SymmetricKey) {key : ContentKey}
    (hvalue : key.value.isSome = true) (e : Entropy) :
    ∃ stored, Draws (storeSealed documentKey key) e 12 stored ∧
      ∃ value v, key.value = some value ∧ stored = ⟨key.id, .encrypted v⟩ ∧
        v.nonce = e.nonceAfter 0 ∧
        documentKey.encrypt v.nonce key.id.octets.toList value.octets.toList
          = .ok v.ciphertext := by
  obtain ⟨id, value⟩ := key
  obtain ⟨value, rfl⟩ := Option.isSome_iff_exists.1 hvalue
  obtain ⟨v, hv, hsealed⟩ :=
    SealedValue.draws_create (by decide) value.octets id.octets.toList documentKey e
  refine ⟨⟨id, .encrypted v⟩, ?_, value, v, rfl, rfl, hsealed⟩
  unfold storeSealed
  apply (hv.adapt DocumentFault.ofEnvelope).bind_free
  exact draws_pure _ _

/-- A key with a value can be stored in the clear. -/
theorem exists_storePlain {key : ContentKey} (hvalue : key.value.isSome = true) :
    ∃ stored, storePlain key = .ok stored := by
  obtain ⟨id, value⟩ := key
  obtain ⟨value, rfl⟩ := Option.isSome_iff_exists.1 hvalue
  exact ⟨_, rfl⟩

variable {d : Document} {signers : Signers} {e : Entropy}

/-- Without recipients nothing is drawn. -/
theorem draws_storeKeys_of_nil (hvalued : ∀ k ∈ d.contentKeys, k.value.isSome = true)
    (hnobody : d.recipients = []) (e : Entropy) :
    ∃ keys, Draws d.storeKeys e 0 ([], keys) := by
  obtain ⟨keys, hkeys⟩ := exists_mapM_eq_ok fun k hk => exists_storePlain (hvalued k hk)
  unfold storeKeys
  rw [if_pos (List.isEmpty_iff.2 hnobody)]
  exact ⟨keys, (draws_liftExcept hkeys e).bind_free (draws_pure _ _)⟩

/-- **Storing for recipients whose keys agree.** -/
theorem draws_storeKeys_of_agrees (hvalued : ∀ k ∈ d.contentKeys, k.value.isSome = true)
    (hsomebody : d.recipients ≠ []) (h : d.Agrees e) :
    ∃ delivery keys, d.DrawnFrom e delivery keys ∧
      Draws d.storeKeys e (32 + (44 * d.recipients.length + 12 * d.contentKeys.length))
        (delivery, keys) := by
  let behind := (e.skip 32).skip (44 * d.recipients.length)
  have hentries (i : Nat) (r : Certificate) (hr : d.recipients[i]? = some r) :
      ∃ entry, Draws (deliver e.nextKey r) ((e.skip 32).skip (44 * i)) 44 entry ∧
        ∃ w, entry = ⟨r, w⟩ ∧ w.Wraps r e.nextKey (e.secretAfter (32 + 44 * i)) ∧
          w.nonce = e.nonceAfter (64 + 44 * i) := by
    have hagrees := h i r hr
    rw [nonceAfter_entry]
    rw [secretAfter_entry] at hagrees ⊢
    exact draws_deliver e.nextKey hagrees
  have hvalues (j : Nat) (k : ContentKey) (hk : d.contentKeys[j]? = some k) :=
    draws_storeSealed e.nextKey (hvalued k (List.mem_of_getElem? hk)) (behind.skip (12 * j))
  obtain ⟨delivery, hdelivery, hlength, hentry⟩ := draws_mapM hentries
  obtain ⟨keys, hkeys, hlength', hvalue⟩ := draws_mapM hvalues
  refine ⟨delivery, keys, ⟨hlength, fun i r hr => ?_, hlength', fun j k hk => ?_⟩, ?_⟩
  · obtain ⟨_, hw, w, rfl, hwraps⟩ := hentry i r hr
    exact ⟨w, hw, hwraps⟩
  · obtain ⟨_, hv, value, v, hk, rfl, hsealed⟩ := hvalue j k hk
    rw [nonceAfter_value]
    exact ⟨value, v, hk, hv, hsealed⟩
  · unfold storeKeys
    rw [if_neg fun hnone => hsomebody (List.isEmpty_iff.1 hnone)]
    apply (SymmetricKey.draws_generate e).bind
    apply hdelivery.bind
    exact hkeys.bind_free (draws_pure _ _)

/-- **Storing**, with recipients or without. -/
theorem draws_storeKeys (hvalued : ∀ k ∈ d.contentKeys, k.value.isSome = true) (h : d.Agrees e) :
    ∃ delivery keys, Draws d.storeKeys e d.drawn (delivery, keys) ∧
      (d.recipients = [] → delivery = []) ∧
      (d.recipients ≠ [] → d.DrawnFrom e delivery keys) := by
  by_cases hnobody : d.recipients = []
  · obtain ⟨keys, hkeys⟩ := draws_storeKeys_of_nil hvalued hnobody e
    rw [drawn, if_pos hnobody]
    exact ⟨[], keys, hkeys, fun _ => rfl, fun hsomebody => absurd hnobody hsomebody⟩
  · obtain ⟨delivery, keys, hdrawn, hkeys⟩ := draws_storeKeys_of_agrees hvalued hnobody h
    rw [drawn, if_neg hnobody, Nat.add_assoc]
    exact ⟨delivery, keys, hkeys, fun hnone => absurd hnone hnobody, fun _ => hdrawn⟩

/-- **Storing for recipients of whom some key does not agree** fails, before any value
is sealed. -/
theorem fails_storeKeys (h : ¬d.Agrees e) :
    Fails d.storeKeys e (.encryption .lowOrderRecipient) := by
  have hsplit : ∃ i r, d.recipients[i]? = some r ∧
      ¬((e.secretAfter (32 + 44 * i)).agree r.encryptionKey).isContributory = true := by
    simpa only [Agrees, not_forall, exists_prop] using h
  obtain ⟨i, r, hr, hforced⟩ := hsplit
  have hsomebody : ¬d.recipients.isEmpty = true := by
    intro hnone
    rw [List.isEmpty_iff.1 hnone] at hr
    cases hr
  have hentries : Fails (d.recipients.mapM (deliver e.nextKey)) (e.skip 32)
      (.encryption .lowOrderRecipient) := by
    apply fails_mapM
    · intro i r _
      by_cases hagrees :
          (((e.skip 32).skip (44 * i)).secretAfter 0 |>.agree r.encryptionKey).isContributory = true
      · obtain ⟨entry, hentry, -⟩ := draws_deliver e.nextKey hagrees
        exact .inl ⟨entry, hentry⟩
      · exact .inr (fails_deliver e.nextKey hagrees)
    · rw [secretAfter_entry] at hforced
      exact ⟨i, r, hr, fails_deliver e.nextKey hforced⟩
  unfold storeKeys
  rw [if_neg hsomebody]
  apply (SymmetricKey.draws_generate e).bind_fails
  exact hentries.bind _

/-! ## Saving -/

/-- **A save that does not fail.** -/
theorem Built.draws_toStored (hbuilt : d.Built signers) (h : d.Agrees e) :
    ∃ stored, Draws d.toStored e d.drawn stored ∧
      (d.recipients = [] → stored.delivery = []) ∧
      (d.recipients ≠ [] → d.DrawnFrom e stored.delivery stored.contentKeys) := by
  obtain ⟨delivery, keys, hkeys, hdelivered⟩ := draws_storeKeys hbuilt.valued h
  let blank : StoredDocument :=
    { version := formatVersion, delivery, contentKeys := keys, contentKeySignatures := [],
      usageRules := d.usageRules, usageRuleSignatures := [], documentSignature := none }
  obtain ⟨stored, hsigned⟩ := exists_signAll signers blank
  obtain ⟨-, keyRecords, ruleRecords, record, rfl⟩ := signed_of_signAll hsigned
  refine ⟨blank.resigned keyRecords ruleRecords record, ?_, hdelivered⟩
  unfold toStored
  rw [hbuilt.stage]
  exact hkeys.bind_free (draws_liftExcept hsigned _)

/-- **An artifact.**  It is that of what saving makes, and it is read as such. -/
theorem Built.draws_toArtifact (hbuilt : d.Built signers) (h : d.Agrees e)
    (layout : Json.Layout) :
    ∃ stored, Draws (d.toArtifact layout) e d.drawn (stored.toArtifact layout) ∧
      d.SavedAs signers stored ∧
      StoredDocument.ofArtifact (stored.toArtifact layout) = .ok stored ∧
      (d.recipients = [] → stored.delivery = []) ∧
      (d.recipients ≠ [] → d.DrawnFrom e stored.delivery stored.contentKeys) := by
  obtain ⟨stored, hstored, hdelivered⟩ := hbuilt.draws_toStored h
  have hsaved := hbuilt.savedAs hstored.gives
  exact ⟨stored, hstored.bind_free (draws_pure _ _), hsaved,
    hsaved.wellFormed.ofArtifact_toArtifact layout, hdelivered⟩

/-- **A save that fails.** -/
theorem Built.fails_toStored (hbuilt : d.Built signers) (h : ¬d.Agrees e) :
    Fails d.toStored e (.encryption .lowOrderRecipient) := by
  unfold toStored
  rw [hbuilt.stage]
  exact (fails_storeKeys h).bind _

/-- **Whether there is an artifact**, and with which fault there is none. -/
theorem Built.toArtifact_cases (hbuilt : d.Built signers) (layout : Json.Layout) (e : Entropy) :
    (d.Agrees e ∧ ∃ stored, (d.toArtifact layout e).1 = .ok (stored.toArtifact layout) ∧
      StoredDocument.ofArtifact (stored.toArtifact layout) = .ok stored ∧
      stored.delivery.map Delivery.recipient = d.recipients ∧ Carries stored.delivery e) ∨
    (¬d.Agrees e ∧ (d.toArtifact layout e).1 = .error (.encryption .lowOrderRecipient)) := by
  by_cases h : d.Agrees e
  · obtain ⟨stored, hmade, hsaved, hread, hnobody, hdrawn⟩ := hbuilt.draws_toArtifact h layout
    have hcarries : Carries stored.delivery e := by
      by_cases hsomebody : d.recipients = []
      · rw [hnobody hsomebody]
        exact fun _ _ hentry => nomatch hentry
      · exact (hdrawn hsomebody).carries
    exact .inl ⟨h, stored, congrArg Prod.fst hmade, hread, hsaved.stores.recipients, hcarries⟩
  · exact .inr ⟨h, (hbuilt.fails_toStored h).bind _⟩

/-- **Recipients with credentials.**  Their keys agree with whatever is drawn. -/
theorem agrees_of_credentials {credentials : List Credential}
    (h : d.recipients = credentials.map Credential.certificate) (e : Entropy) : d.Agrees e := by
  intro i r hr
  have hmem := List.mem_of_getElem? hr
  rw [h] at hmem
  obtain ⟨c, -, rfl⟩ := List.mem_map.1 hmem
  rw [c.encryptionKey_eq]
  exact AgreementSecret.isContributory_agree _ _

/-- A document for one recipient is saved. -/
theorem exists_savedAs_addressedEdits :
    ∃ stored, (empty.editEach addressedEdits).SavedAs (.ofEdits addressedEdits) stored := by
  have hbuilt : (empty.editEach addressedEdits).Built (.ofEdits addressedEdits) :=
    built_editEach addressedEdits
  have hrecipients : (empty.editEach addressedEdits).recipients
      = [Sample.recipient1].map Credential.certificate := rfl
  have hagrees := agrees_of_credentials hrecipients (.cycle [1, 2, 3])
  obtain ⟨stored, -, hsaved, -⟩ := hbuilt.draws_toArtifact hagrees .compact
  exact ⟨stored, hsaved⟩

/-- Its one value is sealed, and its recipient finds it. -/
theorem SavedAs.reveal_addressedEdits {stored : StoredDocument} {signers : Signers}
    (h : (empty.editEach addressedEdits).SavedAs signers stored) :
    ∃ documentKey v, stored.contentKeys = [⟨Sample.keyA, .encrypted v⟩] ∧
      WrappedKey.unwrapAny (stored.delivery.map Delivery.wrappedKey) [Sample.recipient1]
        = .ok (some documentKey) ∧
      stored.contentKeys.mapM (StoredKey.reveal (some documentKey))
        = .ok [⟨Sample.keyA, some Sample.valueA⟩] := by
  have hclean : WrappedKey.NoCollision [Sample.recipient1]
      (empty.editEach addressedEdits).recipients := by
    intro c hc r hr
    rw [List.mem_singleton.1 hc, List.mem_singleton.1 hr]
    exact Certificate.not_collide_self _
  have hstores := h.stores
  generalize stored.delivery = delivery at hstores ⊢
  generalize stored.contentKeys = keys at hstores ⊢
  cases hstores with
  | plain nobody _ => cases nobody
  | encrypted documentKey _ served sealedKeys =>
      obtain ⟨hopens, -⟩ := (wrapsAll_of_serves served).unwrapAny hclean
      have hkey := hopens ⟨Sample.recipient1, List.mem_cons_self, List.mem_singleton.2 rfl⟩
      obtain _ | @⟨_, ⟨id, value⟩, _, _, hsealed, hrest⟩ := sealedKeys
      cases hrest
      have hvalue := hsealed.reveal
      obtain ⟨rfl, _, v, -, rfl, -⟩ := hsealed
      exact ⟨documentKey, v, rfl, hkey, mapM_eq_ok_iff.2 (.cons hvalue .nil)⟩

/-! ## Sinks -/

/-- When there is no artifact the sink is left as it is. -/
theorem saveTo_of_error {settings : Settings} {entropy left : Entropy} {fault : DocumentFault}
    (h : d.toArtifact settings.layout entropy = (.error fault, left)) (sink : Sink) :
    d.saveTo settings sink entropy = (.error fault, sink, left) := by
  rw [saveTo, h]

/-- **An artifact in a sink.**  The sink took a first part of it, and all of it unless
the save fails. -/
theorem saveTo_of_ok {settings : Settings} {entropy left : Entropy} {artifact : Bytes}
    (h : d.toArtifact settings.layout entropy = (.ok artifact, left)) (sink : Sink) :
    let saved := d.saveTo settings sink entropy
    saved.2.2 = left ∧ FailsOnly DocumentFault.IsIo saved.1 ∧
    ∃ written rest, artifact = written ++ rest ∧ saved.2.1.taken = sink.taken ++ written ∧
      (saved.1 = .ok () ↔ rest = [] ∧ sink.flushFails = false) ∧
      (sink.Willing artifact.length → rest = []) := by
  obtain ⟨written, rest, hsplit, ⟨htaken, hflush, -⟩, hok⟩ := sink.writeAll_cases artifact
  have hwilling : sink.Willing artifact.length → rest = [] := fun h => hok.1 h.writeAll
  unfold saveTo
  rw [h]
  dsimp only
  generalize sink.writeAll artifact = written' at htaken hflush hok
  obtain ⟨outcome, sink'⟩ := written'
  dsimp only at htaken hflush hok
  cases outcome with
  | error cause =>
      have hmore : ¬(rest = [] ∧ sink.flushFails = false) := fun hall => nomatch hok.2 hall.1
      exact ⟨rfl, .error ⟨cause, rfl⟩, written, rest, hsplit, htaken,
        iff_of_false (error_ne_ok _ _) hmore, hwilling⟩
  | ok u =>
      have hrest := hok.1 rfl
      dsimp only
      rw [Sink.flush, hflush]
      cases sink.flushFails with
      | true =>
          rw [if_pos rfl, mapError_error]
          have hkept : ¬(rest = [] ∧ true = false) := fun hall => Bool.noConfusion hall.2
          exact ⟨rfl, .error ⟨_, rfl⟩, written, rest, hsplit, htaken,
            iff_of_false (error_ne_ok _ _) hkept, hwilling⟩
      | false =>
          rw [if_neg Bool.false_ne_true, mapError_ok]
          exact ⟨rfl, .ok (), written, rest, hsplit, htaken, iff_of_true rfl ⟨hrest, rfl⟩, hwilling⟩

/-- **A save to a sink**, whatever document it is: without an artifact it fails alike and
leaves the sink as it was, and otherwise the artifact is what the sink is handed. -/
theorem saveTo_cases (d : Document) (settings : Settings) (sink : Sink) (entropy : Entropy) :
    let attempt := d.toArtifact settings.layout entropy
    let saved := d.saveTo settings sink entropy
    saved.2.2 = attempt.2 ∧
    (∀ fault, attempt.1 = .error fault → saved.1 = .error fault ∧ saved.2.1 = sink) ∧
    ∀ artifact, attempt.1 = .ok artifact →
      FailsOnly DocumentFault.IsIo saved.1 ∧
      ∃ written rest, artifact = written ++ rest ∧ saved.2.1.taken = sink.taken ++ written ∧
        (saved.1 = .ok () ↔ rest = [] ∧ sink.flushFails = false) ∧
        (sink.Willing artifact.length → rest = []) := by
  intro attempt saved
  rcases hattempt : attempt with ⟨fault | artifact, left⟩
  · have hsaved : saved = (.error fault, sink, left) := saveTo_of_error hattempt sink
    rw [hsaved]
    refine ⟨rfl, fun fault' h => ?_, fun _ h => nomatch h⟩
    cases h
    exact ⟨rfl, rfl⟩
  · obtain ⟨hleft, hio, hwritten⟩ := saveTo_of_ok hattempt sink
    refine ⟨hleft, (fun _ h => nomatch h), fun artifact' h => ?_⟩
    cases h
    exact ⟨hio, hwritten⟩

/-- **When a save fails, and how.**  A document that was built by any edits has an
artifact exactly when the encryption key of every recipient agrees with the secret drawn
for it, which is the secret whose public half stands in the recipient's entry; so there
is one when nobody is a recipient.  Otherwise the encryption fails, and nothing else can.
A document that was loaded has none, and nothing is drawn for it.  Whatever document it
is, when there is no artifact then saving fails with the same fault and leaves the sink
as it was.  When there is one, the sink is handed its octets from the front: all of them,
or up to the call in which the sink fails, and no sink fails that takes so many. -/
theorem save_fails_exactly (edits : List Edit) (settings : Settings) (entropy : Entropy) :
    let built := empty.editEach edits
    let made := (built.toArtifact settings.layout entropy).1
    ((∃ artifact, made = .ok artifact) ↔ built.Agrees entropy) ∧
    FailsOnly (· = .encryption .lowOrderRecipient) made ∧
    (∀ artifact, made = .ok artifact →
      ∃ stored, StoredDocument.ofArtifact artifact = .ok stored ∧
        stored.delivery.map Delivery.recipient = built.recipients ∧
        Carries stored.delivery entropy) ∧
    (built.recipients = [] → ∃ artifact, made = .ok artifact) ∧
    (∀ loading credentials artifact l, load loading credentials artifact = .ok l →
      l.toArtifact settings.layout entropy = (.error .readOnly, entropy)) ∧
    ∀ (d : Document) (sink : Sink),
      let attempt := d.toArtifact settings.layout entropy
      let saved := d.saveTo settings sink entropy
      saved.2.2 = attempt.2 ∧
      (∀ fault, attempt.1 = .error fault → saved.1 = .error fault ∧ saved.2.1 = sink) ∧
      ∀ artifact, attempt.1 = .ok artifact →
        FailsOnly DocumentFault.IsIo saved.1 ∧
        ∃ written rest, artifact = written ++ rest ∧ saved.2.1.taken = sink.taken ++ written ∧
          (saved.1 = .ok () ↔ rest = [] ∧ sink.flushFails = false) ∧
          (sink.Willing artifact.length → rest = []) := by
  intro built made
  have hbuilt : built.Built (.ofEdits edits) := built_editEach edits
  have hagrees_of_nil (hnobody : built.recipients = []) : built.Agrees entropy := by
    intro i r hr
    rw [hnobody] at hr
    cases hr
  have hartifact : ((∃ artifact, made = .ok artifact) ↔ built.Agrees entropy) ∧
      FailsOnly (· = .encryption .lowOrderRecipient) made ∧
      ∀ artifact, made = .ok artifact →
        ∃ stored, StoredDocument.ofArtifact artifact = .ok stored ∧
          stored.delivery.map Delivery.recipient = built.recipients ∧
          Carries stored.delivery entropy := by
    rcases hbuilt.toArtifact_cases settings.layout entropy with
      ⟨hagrees, stored, hmade, hread, hdelivered⟩ | ⟨hnot, hmade⟩
    · have hmade : made = .ok (stored.toArtifact settings.layout) := hmade
      rw [hmade]
      refine ⟨iff_of_true ⟨_, rfl⟩ hagrees, .ok _, fun artifact h => ?_⟩
      cases h
      exact ⟨stored, hread, hdelivered⟩
    · have hmade : made = .error (.encryption .lowOrderRecipient) := hmade
      rw [hmade]
      exact ⟨iff_of_false (fun ⟨_, h⟩ => nomatch h) hnot, .error rfl, fun _ h => nomatch h⟩
  obtain ⟨hiff, hfails, hdrawn⟩ := hartifact
  refine ⟨hiff, hfails, hdrawn, fun hnobody => hiff.2 (hagrees_of_nil hnobody), ?_, ?_⟩
  · intro loading credentials artifact l hload
    obtain ⟨-, stored, report, key, ks, -, -, -, -, rfl⟩ := load_eq_ok_iff.1 hload
    exact toArtifact_of_loaded rfl settings.layout entropy
  · exact fun d sink => saveTo_cases d settings sink entropy

/-- A certificate whose encryption key gives the same secret to everybody. -/
def forcedCertificate : Certificate :=
  { Sample.recipient1.certificate with encryptionKey := ⟨.replicate 32 0⟩ }

/-- One key for the holder of such a certificate. -/
def forcedEdits : List Edit :=
  [.addContentKey ⟨Sample.keyA, some Sample.valueA⟩, .addRecipient forcedCertificate]

/-- A sink that takes five octets, is interrupted, takes one, and then goes on one by one. -/
def unsteadySink : Sink :=
  { chunk := some 1, turns := [.takes 5, .interrupted, .takes 1] }

/-- The sink takes everything in the end. -/
theorem willing_unsteadySink (n : Nat) : unsteadySink.Willing n where
  chunk := by simp [unsteadySink]
  room := by simp [unsteadySink]
  turns := by simp [unsteadySink]

/-- Such a document is not saved, and the sink stays as it is; a document without
recipients goes into an unsteady sink in full. -/
theorem save_fails_exactly_forcedEdits :
    (((empty.editEach forcedEdits).saveTo {} { taken := [0] } (.cycle [1, 2, 3])).1
        = .error (.encryption .lowOrderRecipient) ∧
      ((empty.editEach forcedEdits).saveTo {} { taken := [0] } (.cycle [1, 2, 3])).2.1
        = { taken := [0] }) ∧
    ∃ artifact, (empty.toArtifact .indented (.cycle [])).1 = .ok artifact ∧
      (empty.saveTo {} unsteadySink (.cycle [])).2.1.taken = artifact := by
  constructor
  · obtain ⟨hiff, hfails, -, -, -, hsaves⟩ := save_fails_exactly forcedEdits {} (.cycle [1, 2, 3])
    have hrecipients : (empty.editEach forcedEdits).recipients = [forcedCertificate] := rfl
    have hzero : (((Entropy.cycle [1, 2, 3]).secretAfter (32 + 44 * 0)).agree
        forcedCertificate.encryptionKey).isContributory = false := by decide +kernel
    have hforced : ¬(empty.editEach forcedEdits).Agrees (.cycle [1, 2, 3]) := by
      intro hagrees
      have hfirst := hagrees 0 forcedCertificate (by rw [hrecipients]; rfl)
      exact Bool.false_ne_true (hzero.symm.trans hfirst)
    obtain ⟨-, hkept, -⟩ := hsaves (empty.editEach forcedEdits) { taken := [0] }
    rcases hmade : ((empty.editEach forcedEdits).toArtifact .indented (.cycle [1, 2, 3])).1 with
      fault | artifact
    · obtain rfl := hfails fault hmade
      exact hkept _ hmade
    · exact absurd (hiff.1 ⟨artifact, hmade⟩) hforced
  · obtain ⟨-, -, -, hnobody, -, hsaves⟩ := save_fails_exactly [] {} (.cycle [])
    obtain ⟨artifact, hartifact⟩ := hnobody rfl
    obtain ⟨-, -, hmade⟩ := hsaves empty unsteadySink
    obtain ⟨-, written, rest, hsplit, htaken, -, hwilling⟩ := hmade artifact hartifact
    have hrest := hwilling (willing_unsteadySink _)
    refine ⟨artifact, hartifact, ?_⟩
    rw [htaken, hsplit, hrest, List.append_nil]
    rfl

end Document

end KeyExchange
