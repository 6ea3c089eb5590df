import KeyExchange.Proofs.Artifact.Reformat
import KeyExchange.Proofs.Json.Form

/-!
# The form of an artifact

Which member tells what, on every level of an artifact: which members there have to be,
which may be missing, and what kind of value each of them has.  Nothing is said of the
order of members or of members that the format does not define, and nothing of what the
texts mean.

* `DocumentText.form`: how the texts of a document stand in a tree;
* `filterShape_exact`: a filter of its form is read, provided that it can be set aside;
* `documentShape_exact`: so is an artifact, provided that it is legible.
-/

namespace KeyExchange.Artifact

open Json Outcome

/-! ## What each object tells -/

/-- What the members of a certificate tell. -/
structure CertificateText.Members (t : CertificateText) (members : List (Bytes × Json)) :
    Prop where
  subject : One Form.text t.subject (valuesNamed "subject" members)
  signingKey : One Form.text t.signingKey (valuesNamed "signing_key" members)
  encryptionKey : One Form.text t.encryptionKey (valuesNamed "encryption_key" members)

/-- How a certificate stands in a tree. -/
def CertificateText.form : Form CertificateText := .object CertificateText.Members

/-- What the members of a wrapped key tell.  Its address is not among them. -/
structure WrappedKeyText.Members (t : WrappedKeyText) (members : List (Bytes × Json)) :
    Prop where
  ephemeralKey : One Form.text t.ephemeralKey (valuesNamed "ephemeral_public" members)
  nonce : One Form.text t.nonce (valuesNamed "nonce" members)
  ciphertext : One Form.text t.ciphertext (valuesNamed "ciphertext" members)

/-- How a wrapped key stands in a tree. -/
def WrappedKeyText.form : Form WrappedKeyText := .object WrappedKeyText.Members

/-- What the members of a delivery entry tell. -/
structure DeliveryText.Members (t : DeliveryText) (members : List (Bytes × Json)) : Prop where
  recipient : One CertificateText.form t.recipient (valuesNamed "recipient" members)
  wrappedKey : One WrappedKeyText.form t.wrappedKey (valuesNamed "wrapped_key" members)

/-- How a delivery entry stands in a tree. -/
def DeliveryText.form : Form DeliveryText := .object DeliveryText.Members

/-- What the members of a signature tell. -/
structure SignatureText.Members (t : SignatureText) (members : List (Bytes × Json)) : Prop where
  certificate : One CertificateText.form t.certificate (valuesNamed "certificate" members)
  value : One Form.text t.value (valuesNamed "value" members)

/-- How a signature stands in a tree. -/
def SignatureText.form : Form SignatureText := .object SignatureText.Members

/-- The format is a number of eight bits. -/
structure SealedText.Members (t : SealedText) (members : List (Bytes × Json)) : Prop where
  format : One (Form.natural (2 ^ 8)) t.format (valuesNamed "format" members)
  nonce : One Form.text t.nonce (valuesNamed "nonce" members)
  ciphertext : One Form.text t.ciphertext (valuesNamed "ciphertext" members)

/-- How a sealed value stands in a tree. -/
def SealedText.form : Form SealedText := .object SealedText.Members

/-- What the members of a key tell.  Either value may be missing, here even both. -/
structure KeyText.Members (t : KeyText) (members : List (Bytes × Json)) : Prop where
  id : One Form.text t.id (valuesNamed "kid" members)
  plain : Maybe Form.text t.plain (valuesNamed "plain" members)
  encrypted : Maybe SealedText.form t.encrypted (valuesNamed "encrypted" members)

/-- How a key stands in a tree. -/
def KeyText.form : Form KeyText := .object KeyText.Members

/-- What the members of the keys section tell. -/
structure KeysText.Members (t : KeysText) (members : List (Bytes × Json)) : Prop where
  keys : One (.list KeyText.form) t.keys (valuesNamed "keys" members)
  signatures : OneOr (.list SignatureText.form) [] t.signatures (valuesNamed "signatures" members)

/-- How the keys section stands in a tree. -/
def KeysText.form : Form KeysText := .object KeysText.Members

/-- A bound is a number of sixty-four bits. -/
def boundForm : Form UInt64 := fun n => Form.natural (2 ^ 64) n.toNat

/-- The members of a filter of some kind with two bounds. -/
structure BoundsMembers (kind least most : String) (b : Bounds) (members : List (Bytes × Json)) :
    Prop where
  kind : One Form.text kind (valuesNamed "type" members)
  least : Maybe boundForm b.least (valuesNamed least members)
  most : Maybe boundForm b.most (valuesNamed most members)

/-- The members of a filter for a label. -/
structure LabelMembers (wanted : String) (members : List (Bytes × Json)) : Prop where
  kind : One Form.text "label" (valuesNamed "type" members)
  wanted : One Form.text wanted (valuesNamed "label" members)

/-- The members of a filter. -/
def FilterMembers : UsageFilter → List (Bytes × Json) → Prop
  | .video b => BoundsMembers "video" "min_pixels" "max_pixels" b
  | .audio b => BoundsMembers "audio" "min_channels" "max_channels" b
  | .bitrate b => BoundsMembers "bitrate" "min_bps" "max_bps" b
  | .label wanted => LabelMembers wanted

/-- How a filter stands in a tree. -/
def filterForm : Form UsageFilter := .object FilterMembers

/-- What the members of a rule tell.  A rule without filters need not say so. -/
structure RuleText.Members (t : RuleText) (members : List (Bytes × Json)) : Prop where
  keyId : One Form.text t.keyId (valuesNamed "kid" members)
  filters : OneOr (.list filterForm) [] t.filters (valuesNamed "filters" members)

/-- How a rule stands in a tree. -/
def RuleText.form : Form RuleText := .object RuleText.Members

/-- What the members of the rules section tell. -/
structure RulesText.Members (t : RulesText) (members : List (Bytes × Json)) : Prop where
  rules : OneOr (.list RuleText.form) [] t.rules (valuesNamed "rules" members)
  signatures : OneOr (.list SignatureText.form) [] t.signatures (valuesNamed "signatures" members)

/-- How the rules section stands in a tree. -/
def RulesText.form : Form RulesText := .object RulesText.Members

/-- The version is a number of thirty-two bits. -/
structure DocumentText.Members (t : DocumentText) (members : List (Bytes × Json)) : Prop where
  version : One (Form.natural (2 ^ 32)) t.version (valuesNamed "version" members)
  delivery : OneOr (.list DeliveryText.form) [] t.delivery (valuesNamed "delivery" members)
  contentKeys : One KeysText.form t.contentKeys (valuesNamed "content_keys" members)
  usageRules : OneOr RulesText.form ⟨[], []⟩ t.usageRules (valuesNamed "usage_rules" members)
  signature : Maybe SignatureText.form t.signature (valuesNamed "signature" members)

/-- How the texts of a document stand in a tree. -/
def DocumentText.form : Form DocumentText := .object DocumentText.Members

/-! ## Filters -/

/-- A bound is read as its number. -/
theorem boundShape_exact : boundShape.Exact boundForm .leaf :=
  (@Shape.Exact.natural (2 ^ 64) (Nat.le_refl _)).imap _ _ fun _ => UInt64.ofNat_toNat

/-- Null is not a bound. -/
theorem boundForm_ne_null (n : UInt64) : ¬boundForm n .null := Form.natural_ne_null n.toNat

/-- Two bounds are read from the members of their names, and each may be missing. -/
theorem boundsFields_exact (least most : String) :
    (boundsFields least most).Exact
      (fun b members => Maybe boundForm b.1 (valuesNamed least members) ∧
        Maybe boundForm b.2.1 (valuesNamed most members) ∧ True)
      (leaves [least, most]) :=
  .cons (Field.exact_valueOrNone least boundShape_exact boundForm_ne_null) <|
    .cons (Field.exact_valueOrNone most boundShape_exact boundForm_ne_null) .nil

/-- A label is read from the member of that name. -/
theorem labelFields_exact :
    labelFields.Exact
      (fun l members => One Form.text l.1 (valuesNamed "label" members) ∧ True)
      (leaves ["label"]) :=
  .cons (Field.exact_required "label" .text) .nil

section filters

variable {members : List (Bytes × Json)}

/-- The kind that is read is the one that is named. -/
theorem reads_kind_iff {kind kind' : FilterKind}
    (h : One Form.text kind.name (valuesNamed kindMember members)) :
    kindField.Reads (valuesNamed kindMember members) kind' ↔ kind' = kind := by
  obtain ⟨x, hx, raw, rfl, hraw⟩ := h
  have hread : FilterKind.read (.string raw) = .ok kind := by
    change (textOf raw >>= FilterKind.ofName) = .ok kind
    rw [textOf_eq_ok_iff.2 hraw, ok_bind]
    cases kind <;> rfl
  rw [hx]
  change FilterKind.read (.string raw) = .ok kind' ↔ _
  rw [hread, Except.ok.injEq, eq_comm]

/-- The member that names the kind can be set aside as well. -/
theorem settable_others_iff {room : Nat} {name : String}
    (h : One Form.text name (valuesNamed kindMember members)) :
    (∀ m ∈ otherMembers members, settable room m.2 = true) ↔ ∀ m ∈ members, Fit room m.2 := by
  simp only [settable_iff_fit]
  constructor
  · intro hothers m hm
    by_cases hkind : Literal.decode? m.1 = some kindMember
    · obtain ⟨x, hx, raw, rfl, hraw⟩ := h
      have hmem : m.2 ∈ valuesNamed kindMember members :=
        List.mem_map_of_mem (List.mem_filter.2 ⟨hm, by simpa using hkind⟩)
      rw [hx, List.mem_singleton] at hmem
      rw [hmem]
      exact .string (by rw [hraw]; rfl)
    · exact hothers m (List.mem_filter.2 ⟨hm, by simpa using hkind⟩)
  · exact fun hall m hm => hall m (List.mem_filter.1 hm).1

/-- The members of a kind are read from those beside the one that names it. -/
theorem ofMembers_others {kind : FilterKind} {γ : Type} {fs : Fields γ}
    {R : γ → List (Bytes × Json) → Prop} (h : fs.Exact R (leaves kind.memberNames))
    (hdistinct : fs.names.Nodup) (hnamed : Named members) {c : γ}
    (hform : R c (otherMembers members)) : fs.ofMembers (otherMembers members) true = .ok c := by
  have hnamed' : Named (otherMembers members) := fun m hm => hnamed m (List.mem_filter.1 hm).1
  have hlegible : ∀ f ∈ leaves kind.memberNames, ∀ x ∈ valuesNamed f.1 (otherMembers members),
      Legible f.2 x := by
    intro f hf x _
    rw [(ne_kindMember hf).2]
    exact .leaf
  exact (Fields.ofMembers_eq_ok_iff hdistinct).2
    ⟨rfl, hnamed', (h.reads hform c).2 ⟨hlegible, rfl⟩⟩

/-- Two bounds are read from the members of their names. -/
theorem ofMembers_bounds {kind : FilterKind} {least most : String}
    (hnames : kind.memberNames = [least, most]) {b : Bounds}
    (h : BoundsMembers kind.name least most b members) (hnamed : Named members) :
    (boundsFields least most).ofMembers (otherMembers members) true
      = .ok (FilterKind.ofBounds b) := by
  have hother : ∀ name ∈ kind.memberNames, name ≠ kindMember := fun name hname hsame =>
    kind.kindMember_notMem (hsame ▸ hname)
  have hdistinct : (boundsFields least most).names.Nodup := by
    have hleaves := (List.nodup_cons.1 kind.nodup_leaves).2
    rw [hnames] at hleaves
    exact hleaves
  rw [hnames] at hother
  have hleast := valuesNamed_otherMembers (hother least (by simp)) members
  have hmost := valuesNamed_otherMembers (hother most (by simp)) members
  refine ofMembers_others (hnames ▸ boundsFields_exact least most) hdistinct hnamed ?_
  rw [hleast, hmost]
  exact ⟨h.least, h.most, trivial⟩

/-- What is read beside the kind makes the filter. -/
theorem FilterMembers.readFields {f : UsageFilter} (h : FilterMembers f members) :
    ∃ kind : FilterKind, One Form.text kind.name (valuesNamed kindMember members) ∧
      (Named members →
        kind.readFields (fun fs => fs.ofMembers (otherMembers members) true) = .ok f) := by
  cases f with
  | video b =>
      refine ⟨.video, h.kind, fun hnamed => ?_⟩
      rw [FilterKind.readFields, FilterKind.videoFields,
        @ofMembers_bounds _ .video _ _ rfl b h hnamed]
      rfl
  | audio b =>
      refine ⟨.audio, h.kind, fun hnamed => ?_⟩
      rw [FilterKind.readFields, FilterKind.audioFields,
        @ofMembers_bounds _ .audio _ _ rfl b h hnamed]
      rfl
  | bitrate b =>
      refine ⟨.bitrate, h.kind, fun hnamed => ?_⟩
      rw [FilterKind.readFields, FilterKind.bitrateFields,
        @ofMembers_bounds _ .bitrate _ _ rfl b h hnamed]
      rfl
  | label wanted =>
      refine ⟨.label, h.kind, fun hnamed => ?_⟩
      have hlabel := valuesNamed_otherMembers (show "label" ≠ kindMember by decide) members
      have hread : labelFields.ofMembers (otherMembers members) true = .ok (wanted, ()) := by
        refine @ofMembers_others _ .label _ _ _ labelFields_exact (by decide) hnamed _ ?_
        rw [hlabel]
        exact ⟨h.wanted, trivial⟩
      rw [FilterKind.readFields, hread]
      rfl

end filters

/-- **Filters.**  A filter of its form is read when all its names spell texts and all its
values can be set aside. -/
theorem filterShape_exact (depth : ℕ) :
    (filterShape depth).Exact filterForm (filterSchema (nestingLimit - (depth + 1))) := by
  rintro f _ ⟨members, rfl, hform⟩ f'
  obtain ⟨kind, hkind, hfields⟩ := hform.readFields
  change filterOfMembers _ members true = .ok f' ↔ _
  rw [filterOfMembers_eq_ok_iff, filterSchema, legible_tagged_iff, and_iff_right rfl,
    settable_others_iff hkind, and_assoc]
  simp only [reads_kind_iff hkind, exists_eq_left]
  refine and_congr_right fun hnamed => and_congr_right fun _ => ?_
  rw [hfields hnamed, Except.ok.injEq, eq_comm]

/-! ## Artifacts -/

/-- A certificate of its form is read when it is legible. -/
theorem certificateShape_exact : certificateShape.Exact CertificateText.form certificateSchema :=
  Fields.Exact.imap
    (.cons (Field.exact_required _ .text) <|
      .cons (Field.exact_required _ .text) <|
      .cons (Field.exact_required _ .text) .nil)
    (by decide) (fun _ => rfl)
    fun _ _ h => ⟨h.subject, h.signingKey, h.encryptionKey, trivial⟩

/-- So is a wrapped key. -/
theorem wrappedKeyShape_exact : wrappedKeyShape.Exact WrappedKeyText.form wrappedKeySchema :=
  Fields.Exact.imap
    (.cons (Field.exact_required _ .text) <|
      .cons (Field.exact_required _ .text) <|
      .cons (Field.exact_required _ .text) .nil)
    (by decide) (fun _ => rfl)
    fun _ _ h => ⟨h.ephemeralKey, h.nonce, h.ciphertext, trivial⟩

/-- So is a delivery entry, made of both. -/
theorem deliveryShape_exact : deliveryShape.Exact DeliveryText.form deliverySchema :=
  Fields.Exact.imap
    (.cons (Field.exact_required _ certificateShape_exact) <|
      .cons (Field.exact_required _ wrappedKeyShape_exact) .nil)
    (by decide) (fun _ => rfl)
    fun _ _ h => ⟨h.recipient, h.wrappedKey, trivial⟩

/-- So is a signature with its certificate. -/
theorem signatureShape_exact : signatureShape.Exact SignatureText.form signatureSchema :=
  Fields.Exact.imap
    (.cons (Field.exact_required _ certificateShape_exact) <|
      .cons (Field.exact_required _ .text) .nil)
    (by decide) (fun _ => rfl)
    fun _ _ h => ⟨h.certificate, h.value, trivial⟩

/-- A list of signatures may be missing. -/
theorem signatures_exact :
    (Field.listOrNone "signatures" signatureShape).Exact (OneOr (.list SignatureText.form) [])
      (.list signatureSchema) :=
  Field.exact_of_default signatureShape_exact.list rfl

/-- A sealed value is read, whatever number of eight bits its format is. -/
theorem sealedShape_exact : sealedShape.Exact SealedText.form sealedSchema :=
  Fields.Exact.imap
    (.cons (Field.exact_required _ (.natural (by decide))) <|
      .cons (Field.exact_required _ .text) <|
      .cons (Field.exact_required _ .text) .nil)
    (by decide) (fun _ => rfl)
    fun _ _ h => ⟨h.format, h.nonce, h.ciphertext, trivial⟩

/-- A key is read with the values it has. -/
theorem keyShape_exact : keyShape.Exact KeyText.form keySchema :=
  Fields.Exact.imap
    (.cons (Field.exact_required _ .text) <|
      .cons (Field.exact_valueOrNone _ .text Form.text_ne_null) <|
      .cons (Field.exact_valueOrNone _ sealedShape_exact Form.object_ne_null) .nil)
    (by decide) (fun _ => rfl)
    fun _ _ h => ⟨h.id, h.plain, h.encrypted, trivial⟩

/-- The keys section is read. -/
theorem keysShape_exact : keysShape.Exact KeysText.form keysSchema :=
  Fields.Exact.imap
    (.cons (Field.exact_required _ keyShape_exact.list) <| .cons signatures_exact .nil)
    (by decide) (fun _ => rfl)
    fun _ _ h => ⟨h.keys, h.signatures, trivial⟩

/-- A rule is read when its filters are. -/
theorem ruleShape_exact : ruleShape.Exact RuleText.form ruleSchema :=
  Fields.Exact.imap
    (.cons (Field.exact_required _ .text) <|
      .cons (Field.exact_of_default (filterShape_exact 5).list rfl) .nil)
    (by decide) (fun _ => rfl)
    fun _ _ h => ⟨h.keyId, h.filters, trivial⟩

/-- The rules section is read. -/
theorem rulesShape_exact : rulesShape.Exact RulesText.form rulesSchema :=
  Fields.Exact.imap
    (.cons (Field.exact_of_default ruleShape_exact.list rfl) <| .cons signatures_exact .nil)
    (by decide) (fun _ => rfl)
    fun _ _ h => ⟨h.rules, h.signatures, trivial⟩

/-- **Artifacts.**  The texts of an artifact of its form are read when it is legible. -/
theorem documentShape_exact : documentShape.Exact DocumentText.form documentSchema :=
  Fields.Exact.imap
    (.cons (Field.exact_required _ (.natural (by decide))) <|
      .cons (Field.exact_of_default deliveryShape_exact.list rfl) <|
      .cons (Field.exact_required _ keysShape_exact) <|
      .cons (Field.exact_of_default rulesShape_exact rfl) <|
      .cons (Field.exact_valueOrNone _ signatureShape_exact Form.object_ne_null) .nil)
    (by decide) (fun _ => rfl)
    fun _ _ h => ⟨h.version, h.delivery, h.contentKeys, h.usageRules, h.signature, trivial⟩

end KeyExchange.Artifact
