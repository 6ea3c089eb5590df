import KeyExchange.Proofs.Document.Resolution
import KeyExchange.Proofs.Document.Saving
import KeyExchange.Proofs.Octets
import KeyExchange.Sample.Scenario

/-!
# What scenarios are made of

A scenario of any size can be built: its keys have ids of their own, since an id starts
with the octets of the key's number, and its recipients have names of their own, since a
name ends with the digits of the party's number.  A rule of a scenario names a key and has
no filters, so it is for every track.  Rendering cannot fail, since every recipient has a
credential.

* `party_inj`, `nodup_certificates`: the parties, `ascending_keyId`: the ids;
* `document`: a scenario part by part, `ofEdits_edits`, `build_eq`: which is what is built;
* `resolve_document`: the key for a track;
* `exists_render`: what is rendered, `load_document`: what a recipient loads;
* `build_exact`: all of this.
-/

namespace KeyExchange

open Drawing Outcome

namespace Sample

/-! ## Parties -/

/-- Parties with different numbers have different names. -/
theorem party_inj {i j : Nat} (h : (party i).certificate = (party j).certificate) : i = j := by
  have hsubject : "Party " ++ toString i = "Party " ++ toString j :=
    congrArg Certificate.subject h
  have hdigits : Nat.toDigits 10 i = Nat.toDigits 10 j :=
    String.ofList_injective ((String.append_right_inj _).1 hsubject)
  have hoctets : Json.Number.digitsOf i = Json.Number.digitsOf j :=
    congrArg (List.map fun c : Char => UInt8.ofNat c.toNat) hdigits
  rw [← Json.Number.digitsValue_digitsOf i, hoctets, Json.Number.digitsValue_digitsOf]

/-- **Parties.**  No two of them have one certificate. -/
theorem nodup_certificates (count : Nat) :
    ((parties count).map Credential.certificate).Nodup := by
  rw [parties, List.map_map]
  exact List.nodup_range.map_on fun i _ j _ h => party_inj h

namespace Scenario

variable {s : Scenario}

/-! ## What is built -/

/-- The key with a number. -/
def key (i : Nat) : ContentKey := ⟨keyId i, some ⟨.replicate 16 (UInt8.ofNat i)⟩⟩

/-- The rules of a scenario: one for each key, or none. -/
def rulesOf (s : Scenario) : List UsageRule :=
  if s.rules then (List.range s.keys).map fun i => ⟨keyId i, []⟩ else []

/-- The document of a scenario, part by part. -/
def document (s : Scenario) : Document where
  contentKeys := (List.range s.keys).map key
  recipients := s.recipientCredentials.map Credential.certificate
  usageRules := s.rulesOf
  stage := .building ⟨s.signer?, [], []⟩

/-- What the edits of a scenario do for one kind: they come from keys, recipients and the
signer. -/
theorem filterMap_edits {β : Type} (f : Edit → Option β) (s : Scenario) :
    s.edits.filterMap f
      = (List.range s.keys).flatMap (fun i => (s.keyEdits i).filterMap f)
        ++ s.recipientCredentials.filterMap (fun r => f (.addRecipient r.certificate))
        ++ s.signer?.toList.filterMap (fun c => f (.setDocumentSigner c)) := by
  rw [edits, List.filterMap_append, List.filterMap_append, List.filterMap_flatMap,
    List.filterMap_map, List.filterMap_map]
  rfl

/-- The edits of a scenario add its keys in ascending order of their numbers. -/
theorem contentKeys_edits (s : Scenario) :
    s.edits.filterMap Edit.contentKey? = (List.range s.keys).map key := by
  have hkey (i : Nat) : (s.keyEdits i).filterMap Edit.contentKey? = [key i] := by
    rw [keyEdits]
    cases s.rules <;> rfl
  rw [filterMap_edits]
  simp [hkey, Edit.contentKey?, List.map_eq_flatMap]

/-- They add its recipients in the order of the parties. -/
theorem recipients_edits (s : Scenario) :
    s.edits.filterMap Edit.recipient? = s.recipientCredentials.map Credential.certificate := by
  have hkey (i : Nat) : (s.keyEdits i).filterMap Edit.recipient? = [] := by
    rw [keyEdits]
    cases s.rules <;> rfl
  rw [filterMap_edits]
  simp [hkey, Edit.recipient?]

/-- They add its rules. -/
theorem usageRules_edits (s : Scenario) : s.edits.filterMap Edit.usageRule? = s.rulesOf := by
  have hkey (i : Nat) : (s.keyEdits i).filterMap Edit.usageRule?
      = if s.rules then [⟨keyId i, []⟩] else [] := by
    rw [keyEdits]
    cases s.rules <;> rfl
  rw [filterMap_edits, rulesOf]
  by_cases hrules : s.rules
  · simp [hkey, hrules, Edit.usageRule?, List.map_eq_flatMap]
  · simp [hkey, hrules, Edit.usageRule?]

/-- What no key, rule or recipient makes, only the signer can. -/
theorem filterMap_edits_signer {f : Edit → Option Credential}
    (hkey : ∀ k, f (.addContentKey k) = none) (hrule : ∀ r, f (.addUsageRule r) = none)
    (hrecipient : ∀ r, f (.addRecipient r) = none) (s : Scenario) :
    s.edits.filterMap f = s.signer?.toList.filterMap fun c => f (.setDocumentSigner c) := by
  have hkeys (i : Nat) : (s.keyEdits i).filterMap f = [] := by
    rw [keyEdits]
    cases s.rules <;> simp [hkey, hrule]
  have hrecipients :
      s.recipientCredentials.filterMap (fun r => f (.addRecipient r.certificate)) = [] :=
    List.filterMap_eq_nil_iff.2 fun r _ => hrecipient r.certificate
  rw [filterMap_edits, List.flatMap_eq_nil_iff.2 fun i _ => hkeys i, hrecipients]
  rfl

/-- They set the signer of the whole document, if there is one, and no other. -/
theorem signers_edits (s : Scenario) : Signers.ofEdits s.edits = ⟨s.signer?, [], []⟩ := by
  rw [Signers.ofEdits,
    filterMap_edits_signer (fun _ => rfl) (fun _ => rfl) (fun _ => rfl),
    filterMap_edits_signer (fun _ => rfl) (fun _ => rfl) (fun _ => rfl),
    filterMap_edits_signer (fun _ => rfl) (fun _ => rfl) (fun _ => rfl)]
  cases s.signer? <;> rfl

/-- **Ids.**  They stand in ascending order, as long as the numbers fit their octets. -/
theorem ascending_keyId {keys : Nat} (h : keys < 2 ^ 64) :
    ((List.range keys).map fun i => (keyId i).octets.toList).Pairwise (· < ·) := by
  refine List.pairwise_map.2 (List.pairwise_lt_range.imp_of_mem fun {i j} _ hj hless => ?_)
  have hfits : j < 256 ^ 8 := (List.mem_range.1 hj).trans h
  exact append_lt_append (ofNatBE_lt hless hfits) (by simp) _ _

/-- So no two keys have one id. -/
theorem nodup_ids (h : s.keys < 2 ^ 64) : (s.document.contentKeys.map ContentKey.id).Nodup := by
  have hne (a b : Bytes) (hless : a < b) : a ≠ b := by
    rintro rfl
    exact List.lt_irrefl a hless
  have hoctets : ((List.range s.keys).map fun i => (keyId i).octets.toList).Nodup :=
    (ascending_keyId h).imp (hne _ _)
  rw [document, List.map_map]
  exact List.Nodup.of_map (fun id : KeyId => id.octets.toList) (by rwa [List.map_map])

/-- Every key of a scenario has a value. -/
theorem valued (s : Scenario) : ∀ k ∈ s.document.contentKeys, k.value.isSome = true := by
  intro k hk
  obtain ⟨i, -, rfl⟩ := List.mem_map.1 hk
  rfl

/-- The edits of a scenario make its document: no key is left out, and no recipient. -/
theorem ofEdits_edits (h : s.keys < 2 ^ 64) : Document.ofEdits s.edits = s.document := by
  have hkeys : ContentKey.taken s.document.contentKeys = s.document.contentKeys :=
    ContentKey.taken_eq_self (fun k hk => Option.isSome_iff_ne_none.1 (s.valued k hk)) (nodup_ids h)
  have hrecipients : s.document.recipients.eraseDups = s.document.recipients :=
    eraseDupsBy_eq_self ((nodup_certificates s.recipients).imp fun hne => beq_false_of_ne hne.symm)
  rw [Document.ofEdits, contentKeys_edits, recipients_edits, usageRules_edits, signers_edits]
  change { s.document with
    contentKeys := ContentKey.taken s.document.contentKeys
    recipients := s.document.recipients.eraseDups } = s.document
  rw [hkeys, hrecipients]

/-- **Building** a scenario succeeds. -/
theorem build_eq (h : s.keys < 2 ^ 64) : s.build = .ok s.document := by
  have hvalued : ∀ k ∈ s.edits.filterMap Edit.contentKey?, k.value ≠ none := by
    rw [contentKeys_edits]
    exact fun k hk => Option.isSome_iff_ne_none.1 (s.valued k hk)
  have hdistinct : ((s.edits.filterMap Edit.contentKey?).map ContentKey.id).Nodup := by
    rw [contentKeys_edits]
    exact nodup_ids h
  rw [build, Document.editAll_empty hvalued hdistinct, ofEdits_edits h]

/-- What holds of any document that is built holds of that of a scenario. -/
theorem built_document (h : s.keys < 2 ^ 64) : s.document.Built ⟨s.signer?, [], []⟩ := by
  rw [← ofEdits_edits h, ← signers_edits, ← Document.editEach_empty]
  exact Document.built_editEach s.edits

/-! ## The key for a track -/

/-- A scenario with rules has one for each key, without filters. -/
theorem mem_rulesOf_iff {r : UsageRule} :
    r ∈ s.rulesOf ↔ s.rules = true ∧ r.filters = [] ∧ ∃ i < s.keys, keyId i = r.keyId := by
  rw [rulesOf]
  by_cases hrules : s.rules
  · rw [if_pos hrules, List.mem_map]
    constructor
    · rintro ⟨i, hi, rfl⟩
      exact ⟨hrules, rfl, i, List.mem_range.1 hi, rfl⟩
    · rintro ⟨-, hnone, i, hi, hid⟩
      refine ⟨i, List.mem_range.2 hi, ?_⟩
      rw [hid, ← hnone]
  · simp [hrules]

/-- The ids of a scenario are those of the numbers below its count of keys. -/
theorem mem_ids_document_iff {id : KeyId} :
    id ∈ s.document.contentKeys.map ContentKey.id ↔ ∃ i < s.keys, keyId i = id := by
  simp [document, key]

/-- No rule of a scenario is dangling. -/
theorem danglingRules_document (s : Scenario) : s.document.danglingRules = [] := by
  rw [Document.danglingRules_eq, List.filter_eq_nil_iff]
  intro r hr
  rw [decide_eq_true_eq, not_not, mem_ids_document_iff]
  exact (mem_rulesOf_iff.1 hr).2.2

/-- Every key of a scenario with rules is meant for every track, and no key of another. -/
theorem matchingKeys_document (s : Scenario) (context : TrackContext) :
    s.document.matchingKeys context = if s.rules then s.document.contentKeys else [] := by
  by_cases hrules : s.rules
  · rw [if_pos hrules, Document.matchingKeys, List.filter_eq_self]
    intro k hk
    have hid := mem_ids_document_iff.1 (List.mem_map_of_mem hk)
    have hrule : ⟨k.id, []⟩ ∈ s.document.rulesFor k.id :=
      Document.mem_rulesFor_iff.2 ⟨mem_rulesOf_iff.2 ⟨hrules, rfl, hid⟩, rfl⟩
    exact List.any_eq_true.2 ⟨_, hrule, rfl⟩
  · rw [if_neg hrules, Document.matchingKeys, List.filter_eq_nil_iff]
    intro k _ hmeant
    obtain ⟨r, hr, -⟩ := List.any_eq_true.1 hmeant
    exact hrules (mem_rulesOf_iff.1 (Document.mem_rulesFor_iff.1 hr).1).1

/-- A scenario has as many keys as it is asked for. -/
theorem length_contentKeys (s : Scenario) : s.document.contentKeys.length = s.keys := by
  simp [document]

/-- **The key for a track.**  With rules every key is meant for it, so there must be only
one. -/
theorem resolve_document (s : Scenario) (context : TrackContext) :
    (s.rules = true → s.keys = 1 → s.document.resolve context = .ok (key 0)) ∧
    (s.rules = true → 2 ≤ s.keys →
      s.document.resolve context = .error (.ambiguousKey s.keys)) ∧
    (s.rules = false ∨ s.keys = 0 → s.document.resolve context = .error .noMatchingKey) := by
  have hmatching := s.matchingKeys_document context
  refine ⟨fun hrules hone => ?_, fun hrules hmany => ?_, fun hnone => ?_⟩
  · rw [Document.resolve_eq_ok_iff_matchingKeys, hmatching, if_pos hrules, document, hone]
    rfl
  · rw [Document.resolve_eq_ambiguousKey_iff_matchingKeys, hmatching, if_pos hrules]
    exact ⟨hmany, s.length_contentKeys⟩
  · rw [Document.resolve_eq_noMatchingKey_iff_matchingKeys, hmatching]
    rcases hnone with hrules | hkeys
    · rw [hrules]
      rfl
    · rw [document, hkeys]
      exact ite_self _

/-! ## What a recipient loads -/

variable {artifact : Bytes}

/-- A scenario is rendered as its document is saved, from its seed. -/
theorem render_eq (h : s.keys < 2 ^ 64) :
    s.render = (s.document.toArtifact .compact (Entropy.seeded s.seed)).1 := by
  rw [render, build_eq h, ok_bind]

/-- **Rendering** a scenario succeeds, since its recipients have credentials. -/
theorem exists_render (h : s.keys < 2 ^ 64) : ∃ artifact, s.render = .ok artifact := by
  have hagrees : s.document.Agrees (Entropy.seeded s.seed) :=
    Document.agrees_of_credentials rfl _
  obtain ⟨stored, hdraws, -⟩ := (built_document h).draws_toArtifact hagrees .compact
  refine ⟨stored.toArtifact .compact, ?_⟩
  rw [render_eq h, hdraws]

/-- The report on a scenario names its signer. -/
theorem signer?_report (s : Scenario) (rules : List UsageRule) :
    (Signers.report ⟨s.signer?, [], []⟩ rules).document.signer?
      = s.signer?.map Credential.certificate := by
  rw [Signers.report]
  cases s.signer? <;> rfl

/-- **Loading** a scenario that was rendered. -/
theorem load_document (h : s.keys < 2 ^ 64) (hrender : s.render = .ok artifact)
    {settings : Settings} (hfits : artifact.length ≤ settings.maxArtifactLength)
    {credentials : List Credential}
    (hclean : WrappedKey.NoCollision credentials s.document.recipients)
    (hentitled : s.recipients = 0 ∨ ∃ r ∈ s.recipientCredentials, r ∈ credentials) :
    Document.load settings credentials artifact
      = .ok { s.document with
          stage := .loaded (Signers.report ⟨s.signer?, [], []⟩ s.rulesOf) } := by
  rw [render_eq h] at hrender
  refine (built_document h).load_of_entitled (gives_of_fst hrender) hfits hclean ?_
  rcases hentitled with hnobody | ⟨r, hr, hmem⟩
  · left
    rw [document, recipientCredentials, hnobody]
    rfl
  · exact .inr ⟨r, hmem, List.mem_map_of_mem hr⟩

/-- **Scenarios of every size.**  Building one with fewer than `2 ^ 64` keys succeeds.  The
document has as many keys as asked for, with ids in ascending order, hence pairwise
different, and with values that repeat after 256 keys; as many recipients, pairwise
different; and no rule for a missing key.  For any track its one key is found when it has
rules and one key, several are reported when it has rules and more of them, and otherwise
there is none.  Rendering succeeds too, and whoever holds a recipient's credential loads
all values and the signer from the artifact, as long as it is not too long and the hash of
fingerprints does not collide on the certificates at hand; without recipients everybody
does. -/
theorem build_exact (s : Scenario) (hkeys : s.keys < 2 ^ 64) :
    ∃ d, s.build = .ok d ∧
      (d.contentKeys.length = s.keys ∧
        (∀ i < s.keys, d.contentKeys[i]?
          = some ⟨keyId i, some ⟨.replicate 16 (UInt8.ofNat (i % 256))⟩⟩) ∧
        (d.contentKeys.map fun k => k.id.octets.toList).Pairwise (· < ·) ∧
        (d.contentKeys.map ContentKey.id).Nodup) ∧
      (d.recipients = s.recipientCredentials.map Credential.certificate ∧
        d.recipients.length = s.recipients ∧ d.recipients.Nodup) ∧
      d.danglingRules = [] ∧
      (∀ context,
        (s.rules = true → s.keys = 1 →
          ∃ k, d.contentKeys = [k] ∧ d.resolve context = .ok k) ∧
        (s.rules = true → 2 ≤ s.keys → d.resolve context = .error (.ambiguousKey s.keys)) ∧
        (s.rules = false ∨ s.keys = 0 → d.resolve context = .error .noMatchingKey)) ∧
      ∃ artifact, s.render = .ok artifact ∧
        ∀ settings : Settings, artifact.length ≤ settings.maxArtifactLength →
        ∀ credentials, WrappedKey.NoCollision credentials d.recipients →
        s.recipients = 0 ∨ (∃ r ∈ s.recipientCredentials, r ∈ credentials) →
        ∃ l, Document.load settings credentials artifact = .ok l ∧
          l.contentKeys = d.contentKeys ∧ (∀ k ∈ l.contentKeys, k.value.isSome = true) ∧
          l.signedBy = s.signer?.map Credential.certificate := by
  have hascending : (s.document.contentKeys.map fun k => k.id.octets.toList).Pairwise (· < ·) := by
    rw [document, List.map_map]
    exact ascending_keyId hkeys
  refine ⟨s.document, build_eq hkeys, ⟨s.length_contentKeys, fun i hi => ?_, hascending,
    nodup_ids hkeys⟩, ⟨rfl, ?_, nodup_certificates s.recipients⟩, s.danglingRules_document,
    fun context => ?_, ?_⟩
  · rw [document, List.getElem?_map, List.getElem?_range hi, UInt8.ofNat_mod_size]
    rfl
  · simp [document, recipientCredentials, parties]
  · obtain ⟨hone, hmany, hnone⟩ := s.resolve_document context
    refine ⟨fun hrules hkeys => ⟨key 0, ?_, hone hrules hkeys⟩, hmany, hnone⟩
    rw [document, hkeys]
    rfl
  · obtain ⟨artifact, hrender⟩ := exists_render hkeys
    refine ⟨artifact, hrender, fun settings hfits credentials hclean hentitled => ?_⟩
    exact ⟨_, load_document hkeys hrender hfits hclean hentitled, rfl, s.valued,
      s.signer?_report s.rulesOf⟩

/-- 300 keys with rules for one recipient, signed. -/
def crowded : Scenario := ⟨"300 keys, one recipient, signed with rules", 300, 1, true, true, 5⟩

/-- Two keys have one value but not one id, and every track is told that all 300 are meant.
The recipient has all values, and the signer. -/
theorem build_exact_crowded :
    ∃ d artifact l, crowded.build = .ok d ∧ crowded.render = .ok artifact ∧
      d.contentKeys[1]? = some ⟨keyId 1, some ⟨.replicate 16 1⟩⟩ ∧
      d.contentKeys[257]? = some ⟨keyId 257, some ⟨.replicate 16 1⟩⟩ ∧
      (∀ context, d.resolve context = .error (.ambiguousKey 300)) ∧
      Document.load { maxArtifactLength := artifact.length } [party 0] artifact = .ok l ∧
      l.contentKeys = d.contentKeys ∧
      l.signedBy = some (Credential.ofSeed "Scenario Signer" (.replicate 32 0x77)).certificate := by
  obtain ⟨d, hbuild, ⟨-, hkeys, -, -⟩, ⟨hrecipients, -, -⟩, -, hresolve, artifact, hrender,
    hload⟩ := build_exact crowded (by decide)
  have hparties : crowded.recipientCredentials = [party 0] := rfl
  have hclean : WrappedKey.NoCollision [party 0] d.recipients := by
    rw [hrecipients, hparties]
    intro c hc r hr
    rw [List.mem_singleton.1 hc, List.mem_singleton.1 hr]
    exact Certificate.not_collide_self _
  have hentitled : ∃ r ∈ crowded.recipientCredentials, r ∈ [party 0] :=
    ⟨party 0, hparties ▸ List.mem_singleton_self _, List.mem_singleton_self _⟩
  obtain ⟨l, hloaded, hvalues, -, hsigner⟩ :=
    hload { maxArtifactLength := artifact.length } le_rfl [party 0] hclean (.inr hentitled)
  have hambiguous := fun context => (hresolve context).2.1 rfl (by decide)
  exact ⟨d, artifact, l, hbuild, hrender, hkeys 1 (by decide), hkeys 257 (by decide), hambiguous,
    hloaded, hvalues, hsigner⟩

end Scenario

end Sample

end KeyExchange
