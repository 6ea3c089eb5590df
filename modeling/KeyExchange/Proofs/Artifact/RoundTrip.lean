import KeyExchange.Proofs.Artifact.WellFormed
import KeyExchange.Proofs.Json.Shape
import KeyExchange.Scope

/-!
# Documents that come back from their artifacts

Every shape of an artifact reads what it writes, so the texts of a stored
document come back from its artifact in either layout.  What the texts are then
taken for is the document itself when it is well-formed.

* `filterShape_faithful`, `documentShape_faithful`: the shapes of an artifact;
* `ofArtifact_toArtifact_eq`: reading an artifact is reading its texts;
* `ofArtifact_toArtifact_exact`: what comes back of any stored document;
* `ofArtifact_settles`: what is read from any octets comes back as it is.
-/

namespace KeyExchange.Artifact

open Json Outcome

/-! ## Filters -/

/-- The value is neither an array nor an object. -/
def IsLeaf : Json → Prop
  | .number x => ∃ n < 2 ^ 64, x = .ofNat n
  | .string raw => ∃ text, raw = Literal.encode text
  | _ => False

/-- Where nothing is nested, everything can be set aside. -/
theorem settable_of_isLeaf {value : Json} (h : IsLeaf value) (room : Nat) :
    settable room value = true := by
  cases value with
  | number x =>
      obtain ⟨n, hn, rfl⟩ := h
      simp [settable, Number.kind_ofNat hn]
  | string raw =>
      obtain ⟨text, rfl⟩ := h
      simp [settable, Literal.decode?_encode]
  | _ => exact h.elim

/-- A value with nothing nested in it can be written. -/
theorem written_of_isLeaf {value : Json} (h : IsLeaf value) : Written value := by
  cases value with
  | number x =>
      obtain ⟨n, -, rfl⟩ := h
      exact .number n
  | string raw =>
      obtain ⟨text, rfl⟩ := h
      exact .string text
  | _ => exact h.elim

/-- Members other than the kind, with nothing nested in them. -/
def Others (members : List (Bytes × Json)) : Prop :=
  ∀ m ∈ members, ∃ name, m.1 = Literal.encode name ∧ name ≠ kindMember ∧ IsLeaf m.2

/-- The members other than the kind are set aside as they are. -/
theorem setAside_others {room : Nat} {kind : FilterKind} {members : List (Bytes × Json)}
    (h : Others members) : setAside room (some kind) members = .ok (some kind, members) := by
  induction members with
  | nil => rfl
  | cons m members ih =>
      obtain ⟨raw, value⟩ := m
      obtain ⟨name, hraw, hname, hvalue⟩ := h (raw, value) (by simp)
      have hraw : raw = Literal.encode name := hraw
      rw [setAside, hraw, textOf_encode, ok_bind, if_neg hname,
        if_pos (settable_of_isLeaf hvalue room),
        ih fun m hm => h m (List.mem_cons_of_mem _ hm)]
      rfl

/-- The name of a kind is read as the kind. -/
theorem FilterKind.read_ofString_name (kind : FilterKind) :
    FilterKind.read (ofString kind.name) = .ok kind := by
  change (textOf (Literal.encode kind.name) >>= FilterKind.ofName) = .ok kind
  rw [textOf_encode, ok_bind]
  cases kind <;> rfl

/-- A filter object with its kind in front. -/
theorem filterOfMembers_kind {room : Nat} {kind : FilterKind} {members : List (Bytes × Json)}
    (h : Others members) :
    filterOfMembers room (member kindMember (ofString kind.name) :: members) true
      = kind.readFields fun fs => fs.ofMembers members true := by
  have haside : setAside room none (member kindMember (ofString kind.name) :: members)
      = .ok (some kind, members) := by
    rw [member, setAside, textOf_encode, ok_bind, if_pos rfl]
    simp only [kind.read_ofString_name, ok_bind]
    exact setAside_others h
  rw [filterOfMembers, haside, ok_bind]
  rfl

/-- A bound comes back. -/
theorem boundShape_faithful : boundShape.Faithful fun _ => True := by
  have hlimit : 2 ^ 64 ≤ 2 ^ 64 := Nat.le_refl _
  refine ((Shape.Faithful.natural hlimit).imap UInt64.ofNat UInt64.toNat
    fun n => UInt64.ofNat_toNat).mono ?_
  exact fun n _ => n.toNat_lt

/-- Two bounds come back from their members. -/
theorem ofMembers_boundsFields {least most : String} (h : least ≠ most)
    (b : Option UInt64 × Option UInt64 × Unit) :
    (boundsFields least most).ofMembers ((boundsFields least most).write b) true = .ok b := by
  have hnull (n : UInt64) : boundShape.write n ≠ .null := nofun
  have hbound (name : String) := Field.faithful_valueOrNone name boundShape_faithful hnull
  have hfields := Fields.Faithful.cons (hbound least)
    (Fields.Faithful.cons (hbound most) .nil (by simp [Fields.names]))
    (by simpa [Fields.names, Field.valueOrNone] using h)
  exact hfields.ofMembers_write ⟨fun _ _ => trivial, fun _ _ => trivial, trivial⟩

/-- The members of two bounds have nothing nested in them, and none names the kind. -/
theorem others_boundsFields {least most : String} (hleast : least ≠ kindMember)
    (hmost : most ≠ kindMember) (b : Option UInt64 × Option UInt64 × Unit) :
    Others ((boundsFields least most).write b) := by
  obtain ⟨lower, upper, ⟨⟩⟩ := b
  have hleaf (n : UInt64) : IsLeaf (boundShape.write n) := ⟨n.toNat, n.toNat_lt, rfl⟩
  have hlower (n : UInt64) : ∃ name, Literal.encode least = Literal.encode name ∧
      name ≠ kindMember ∧ IsLeaf (boundShape.write n) := ⟨least, rfl, hleast, hleaf n⟩
  have hupper (n : UInt64) : ∃ name, Literal.encode most = Literal.encode name ∧
      name ≠ kindMember ∧ IsLeaf (boundShape.write n) := ⟨most, rfl, hmost, hleaf n⟩
  intro m hm
  cases lower <;> cases upper <;>
    simp only [boundsFields, Fields.write, Field.valueOrNone, Shape.optional, member,
      Option.isNone_none, Option.isNone_some, if_true, List.mem_cons, List.not_mem_nil, or_false,
      Bool.false_eq_true, if_false] at hm
  · obtain rfl := hm
    exact hupper _
  · obtain rfl := hm
    exact hlower _
  · rcases hm with rfl | rfl
    · exact hlower _
    · exact hupper _

/-- A label comes back from its member. -/
theorem ofMembers_labelFields (l : String × Unit) :
    labelFields.ofMembers (labelFields.write l) true = .ok l :=
  (Fields.Faithful.cons (Field.faithful_required "label" .text) .nil
    (by simp [Fields.names])).ofMembers_write ⟨trivial, trivial⟩

/-- The member of a label has nothing nested in it and does not name the kind. -/
theorem others_labelFields (l : String × Unit) : Others (labelFields.write l) := by
  intro m hm
  simp only [labelFields, Fields.write, Field.required, Bool.false_eq_true, if_false,
    List.mem_singleton] at hm
  rw [hm]
  exact ⟨"label", rfl, by decide, l.1, rfl⟩

/-- What is written of a filter: its kind, and members that are read as the filter
of that kind. -/
theorem filterMembers_spec (filter : UsageFilter) :
    ∃ (kind : FilterKind) (members : List (Bytes × Json)),
      filterMembers filter = member kindMember (ofString kind.name) :: members ∧
      Others members ∧
      (kind.readFields fun fs => fs.ofMembers members true) = .ok filter := by
  cases filter with
  | video b =>
      refine ⟨.video, _, rfl, others_boundsFields (by decide) (by decide) _, ?_⟩
      rw [FilterKind.readFields, FilterKind.videoFields, ofMembers_boundsFields (by decide)]
      rfl
  | audio b =>
      refine ⟨.audio, _, rfl, others_boundsFields (by decide) (by decide) _, ?_⟩
      rw [FilterKind.readFields, FilterKind.audioFields, ofMembers_boundsFields (by decide)]
      rfl
  | bitrate b =>
      refine ⟨.bitrate, _, rfl, others_boundsFields (by decide) (by decide) _, ?_⟩
      rw [FilterKind.readFields, FilterKind.bitrateFields, ofMembers_boundsFields (by decide)]
      rfl
  | label l =>
      refine ⟨.label, _, rfl, others_labelFields _, ?_⟩
      rw [FilterKind.readFields, ofMembers_labelFields]
      rfl

/-- **Filters.**  A filter comes back from its members, at any depth. -/
theorem filterShape_faithful (depth : Nat) : (filterShape depth).Faithful fun _ => True where
  written filter _ := by
    obtain ⟨kind, members, hmembers, hothers, -⟩ := filterMembers_spec filter
    change Written (.object (filterMembers filter) true)
    rw [hmembers]
    refine .object (fun m hm => ?_) fun m hm => ?_
    · rcases List.mem_cons.1 hm with rfl | hm
      · exact ⟨kindMember, rfl⟩
      · obtain ⟨name, hname, -⟩ := hothers m hm
        exact ⟨name, hname⟩
    · rcases List.mem_cons.1 hm with rfl | hm
      · exact .string kind.name
      · obtain ⟨-, -, -, hleaf⟩ := hothers m hm
        exact written_of_isLeaf hleaf
  read_write filter _ := by
    obtain ⟨kind, members, hmembers, hothers, hread⟩ := filterMembers_spec filter
    change filterOfMembers (nestingLimit - (depth + 1)) (filterMembers filter) true = .ok filter
    rw [hmembers, filterOfMembers_kind hothers, hread]

/-! ## Records -/

/-- A certificate comes back. -/
theorem certificateShape_faithful : certificateShape.Faithful fun _ => True := by
  have hfields := Fields.Faithful.cons (Field.faithful_required "subject" .text)
    (Fields.Faithful.cons (Field.faithful_required "signing_key" .text)
      (Fields.Faithful.cons (Field.faithful_required "encryption_key" .text) .nil
        (by decide)) (by decide)) (by decide)
  exact (hfields.record.imap _ _ fun _ => rfl).mono fun _ _ => ⟨trivial, trivial, trivial, trivial⟩

/-- A wrapped key comes back. -/
theorem wrappedKeyShape_faithful : wrappedKeyShape.Faithful fun _ => True := by
  have hfields := Fields.Faithful.cons (Field.faithful_required "ephemeral_public" .text)
    (Fields.Faithful.cons (Field.faithful_required "nonce" .text)
      (Fields.Faithful.cons (Field.faithful_required "ciphertext" .text) .nil
        (by decide)) (by decide)) (by decide)
  exact (hfields.record.imap _ _ fun _ => rfl).mono fun _ _ => ⟨trivial, trivial, trivial, trivial⟩

/-- A delivery entry comes back. -/
theorem deliveryShape_faithful : deliveryShape.Faithful fun _ => True := by
  have hfields := Fields.Faithful.cons
    (Field.faithful_required "recipient" certificateShape_faithful)
    (Fields.Faithful.cons (Field.faithful_required "wrapped_key" wrappedKeyShape_faithful) .nil
      (by decide)) (by decide)
  exact (hfields.record.imap _ _ fun _ => rfl).mono fun _ _ => ⟨trivial, trivial, trivial⟩

/-- A signature comes back. -/
theorem signatureShape_faithful : signatureShape.Faithful fun _ => True := by
  have hfields := Fields.Faithful.cons
    (Field.faithful_required "certificate" certificateShape_faithful)
    (Fields.Faithful.cons (Field.faithful_required "value" .text) .nil (by decide)) (by decide)
  exact (hfields.record.imap _ _ fun _ => rfl).mono fun _ _ => ⟨trivial, trivial, trivial⟩

/-- The number of a format is an octet. -/
def SealedText.Narrow (t : SealedText) : Prop := t.format < 2 ^ 8

/-- A sealed value comes back when its format has eight bits. -/
theorem sealedShape_faithful : sealedShape.Faithful SealedText.Narrow := by
  have hlimit : 2 ^ 8 ≤ 2 ^ 64 := by decide
  have hfields := Fields.Faithful.cons (Field.faithful_required "format" (.natural hlimit))
    (Fields.Faithful.cons (Field.faithful_required "nonce" .text)
      (Fields.Faithful.cons (Field.faithful_required "ciphertext" .text) .nil
        (by decide)) (by decide)) (by decide)
  exact (hfields.record.imap _ _ fun _ => rfl).mono fun _ h => ⟨h, trivial, trivial, trivial⟩

/-- The format of the sealed value, if there is one, has eight bits. -/
def KeyText.Narrow (t : KeyText) : Prop := ∀ v ∈ t.encrypted, v.Narrow

/-- A key comes back when the format of its value has eight bits. -/
theorem keyShape_faithful : keyShape.Faithful KeyText.Narrow := by
  have hfields := Fields.Faithful.cons (Field.faithful_required "kid" .text)
    (Fields.Faithful.cons (Field.faithful_valueOrNone "plain" .text nofun)
      (Fields.Faithful.cons (Field.faithful_valueOrNone "encrypted" sealedShape_faithful nofun) .nil
        (by decide)) (by decide)) (by decide)
  exact (hfields.record.imap _ _ fun _ => rfl).mono fun _ h =>
    ⟨trivial, fun _ _ => trivial, h, trivial⟩

/-- All formats have eight bits. -/
def KeysText.Narrow (t : KeysText) : Prop := ∀ k ∈ t.keys, k.Narrow

/-- The keys section comes back when all formats have eight bits. -/
theorem keysShape_faithful : keysShape.Faithful KeysText.Narrow := by
  have hfields := Fields.Faithful.cons (Field.faithful_required "keys" keyShape_faithful.list)
    (Fields.Faithful.cons (Field.faithful_listOrNone "signatures" signatureShape_faithful) .nil
      (by decide)) (by decide)
  exact (hfields.record.imap _ _ fun _ => rfl).mono fun _ h =>
    ⟨h, fun _ _ => trivial, trivial⟩

/-- A rule comes back. -/
theorem ruleShape_faithful : ruleShape.Faithful fun _ => True := by
  have hfields := Fields.Faithful.cons (Field.faithful_required "kid" .text)
    (Fields.Faithful.cons (Field.faithful_defaulted "filters" (filterShape_faithful 5).list [])
      .nil (by decide)) (by decide)
  exact (hfields.record.imap _ _ fun _ => rfl).mono fun _ _ =>
    ⟨trivial, fun _ _ => trivial, trivial⟩

/-- The rules section comes back. -/
theorem rulesShape_faithful : rulesShape.Faithful fun _ => True := by
  have hfields := Fields.Faithful.cons
    (Field.faithful_defaulted "rules" ruleShape_faithful.list [])
    (Fields.Faithful.cons (Field.faithful_listOrNone "signatures" signatureShape_faithful) .nil
      (by decide)) (by decide)
  exact (hfields.record.imap _ _ fun _ => rfl).mono fun _ _ =>
    ⟨fun _ _ => trivial, fun _ _ => trivial, trivial⟩

/-- The version and the numbers of formats are not too large for their members. -/
def DocumentText.Narrow (t : DocumentText) : Prop := t.version < 2 ^ 32 ∧ t.contentKeys.Narrow

/-- **Artifacts.**  The texts of a document come back from its artifact. -/
theorem documentShape_faithful : documentShape.Faithful DocumentText.Narrow := by
  have hlimit : 2 ^ 32 ≤ 2 ^ 64 := by decide
  have hfields := Fields.Faithful.cons (Field.faithful_required "version" (.natural hlimit))
    (Fields.Faithful.cons (Field.faithful_listOrNone "delivery" deliveryShape_faithful)
      (Fields.Faithful.cons (Field.faithful_required "content_keys" keysShape_faithful)
        (Fields.Faithful.cons
          (Field.faithful_defaulted "usage_rules" rulesShape_faithful ⟨[], []⟩)
          (Fields.Faithful.cons
            (Field.faithful_valueOrNone "signature" signatureShape_faithful nofun) .nil
            (by decide)) (by decide)) (by decide)) (by decide)) (by decide)
  exact (hfields.record.imap _ _ fun _ => rfl).mono fun _ ⟨hversion, hkeys⟩ =>
    ⟨hversion, fun _ _ => trivial, hkeys, trivial, fun _ _ => trivial, trivial⟩

/-- What is spelled of a stored document fits its members. -/
theorem DocumentText.narrow_ofStored (d : StoredDocument) : (ofStored d).Narrow := by
  refine ⟨d.version.toNat_lt, fun t ht v hv => ?_⟩
  obtain ⟨⟨id, value⟩, -, rfl⟩ := List.mem_map.1 ht
  cases value with
  | plain value => cases hv
  | encrypted value =>
      cases hv
      obtain ⟨⟨⟩, nonce, ciphertext⟩ := value
      exact (by decide : 1 < 2 ^ 8)

end KeyExchange.Artifact

namespace KeyExchange.StoredDocument

open Artifact Outcome

/-- What comes back from an artifact is what its texts mean. -/
theorem ofArtifact_toArtifact_eq (d : StoredDocument) (layout : Json.Layout) :
    ofArtifact (d.toArtifact layout) = (DocumentText.ofStored d).toStored := by
  rw [ofArtifact, toArtifact,
    documentShape_faithful.readText_writeText layout (DocumentText.narrow_ofStored d), mapError_ok,
    ok_bind]

/-- A well-formed document comes back. -/
theorem WellFormed.ofArtifact_toArtifact {d : StoredDocument} (h : d.WellFormed)
    (layout : Json.Layout) : ofArtifact (d.toArtifact layout) = .ok d := by
  rw [ofArtifact_toArtifact_eq, DocumentText.toStored_ofStored h.toConsistent,
    readdressed_eq_self_iff.2 h.addressed]

/-- **Round trip.**  A stored document comes back from its artifact, in either
layout, exactly when it is well-formed.  One that is only wrong in its addresses
comes back with the right ones; any other artifact is malformed. -/
theorem ofArtifact_toArtifact_exact (d : StoredDocument) (layout : Json.Layout) :
    (ofArtifact (d.toArtifact layout) = .ok d ↔ d.WellFormed) ∧
    (d.Consistent → ofArtifact (d.toArtifact layout) = .ok d.readdressed ∧
      d.readdressed.WellFormed) ∧
    (¬d.Consistent → ∃ cause, ofArtifact (d.toArtifact layout) = .error (.parse cause)) := by
  refine ⟨⟨wellFormed_of_ofArtifact, fun h => h.ofArtifact_toArtifact layout⟩, ?_, ?_⟩
  · intro h
    rw [ofArtifact_toArtifact_eq, DocumentText.toStored_ofStored h]
    exact ⟨rfl, h.wellFormed_readdressed⟩
  · intro h
    rw [ofArtifact_toArtifact_eq]
    exact DocumentText.toStored_ofStored_error h

/-- One key in the clear and one rule, for some recipients, with some signature
on the whole document. -/
def bareDocument (version : UInt32) (delivery : List Delivery)
    (documentSignature : Option SignatureRecord) : StoredDocument where
  version := version
  delivery := delivery
  contentKeys := [⟨⟨.replicate 16 1⟩, .plain ⟨.replicate 16 7⟩⟩]
  contentKeySignatures := []
  usageRules := [⟨⟨.replicate 16 1⟩, [.video ⟨some 0, none⟩]⟩]
  usageRuleSignatures := []
  documentSignature := documentSignature

/-- A document with one key in the clear is consistent, whoever its recipients are. -/
theorem consistent_bareDocument (delivery : List Delivery) (r : Option SignatureRecord) :
    (bareDocument formatVersion delivery r).Consistent where
  version := rfl
  distinct := by simp [bareDocument]
  delivered := by simp [bareDocument, StoredValue.isEncrypted]

/-- An entry with an address that nobody has looked up. -/
def blankDelivery : Delivery where
  recipient := ⟨"alice", ⟨.replicate 32 0⟩, ⟨.replicate 32 0⟩⟩
  wrappedKey := ⟨⟨.replicate 32 0⟩, ⟨.replicate 32 0⟩, ⟨.replicate 12 0⟩, []⟩

/-- A blank address is replaced; a version from the future is refused. -/
theorem ofArtifact_toArtifact_exact_bareDocument :
    (∃ e, e.WellFormed ∧
      ofArtifact ((bareDocument formatVersion [blankDelivery] none).toArtifact .indented)
        = .ok e) ∧
    ∃ cause, ofArtifact ((bareDocument 2 [blankDelivery] none).toArtifact .compact)
      = .error (.parse cause) := by
  have hfuture : ¬(bareDocument 2 [blankDelivery] none).Consistent := fun h =>
    absurd h.version (by decide)
  obtain ⟨-, hread, -⟩ :=
    ofArtifact_toArtifact_exact (bareDocument formatVersion [blankDelivery] none) .indented
  obtain ⟨-, -, hrefused⟩ := ofArtifact_toArtifact_exact (bareDocument 2 [blankDelivery] none)
    .compact
  obtain ⟨hback, hformed⟩ := hread (consistent_bareDocument _ _)
  exact ⟨⟨_, hformed, hback⟩, hrefused hfuture⟩

/-- **Reading settles.**  Whatever is read from any octets is well-formed.  Its own
artifacts are read as the same document, so their scopes have the same octets,
and writing what was read from what was written changes nothing. -/
theorem ofArtifact_settles {artifact : Bytes} {d : StoredDocument}
    (h : ofArtifact artifact = .ok d) :
    d.WellFormed ∧
    ∀ layout,
      ofArtifact (d.toArtifact layout) = .ok d ∧
      (∀ e, ofArtifact (d.toArtifact layout) = .ok e → ∀ s, e.scopeBytes s = d.scopeBytes s) ∧
      (ofArtifact (d.toArtifact layout)).map (fun e => e.toArtifact layout)
        = (ofArtifact artifact).map fun e => e.toArtifact layout := by
  have hformed := wellFormed_of_ofArtifact h
  refine ⟨hformed, fun layout => ?_⟩
  have hback := hformed.ofArtifact_toArtifact layout
  refine ⟨hback, ?_, ?_⟩
  · intro e he s
    obtain rfl : d = e := Except.ok.inj (hback.symm.trans he)
    rfl
  · rw [hback, h]

/-- The indented text of a document and its compact text settle on the same
octets. -/
theorem ofArtifact_settles_bareDocument :
    ofArtifact ((bareDocument formatVersion [] none).toArtifact .indented)
      = .ok (bareDocument formatVersion [] none) ∧
    ofArtifact ((bareDocument formatVersion [] none).toArtifact .compact)
      = .ok (bareDocument formatVersion [] none) := by
  have hread : ofArtifact ((bareDocument formatVersion [] none).toArtifact .indented)
      = .ok (bareDocument formatVersion [] none) := by decide +kernel
  obtain ⟨-, hlayouts⟩ := ofArtifact_settles hread
  exact ⟨hread, (hlayouts .compact).1⟩

end KeyExchange.StoredDocument
