import KeyExchange.Document.Load
import KeyExchange.Proofs.Artifact.Filter

/-!
# Reformatted artifacts

What an artifact says does not depend on its format: on blanks, on the order of
members, on how strings are escaped, and on members that the format does not
define.  Whatever text comes of such changes is read as the same document and
loads, or fails to load, in the same way.

* `documentSchema`: the members that the format defines;
* `filterOfMembers_of_step`, `filterOfItems_of_step`: a filter after one change;
* `filterShape_respects`, `documentShape_respects`: reading is not disturbed;
* `load_reformatted`: reformatting changes nothing.
-/

namespace KeyExchange.Artifact

open Json Outcome

/-! ## The format -/

/-- Members whose values are neither arrays nor objects. -/
def leaves (names : List String) : List (String × Schema) := names.map fun name => (name, .leaf)

def certificateSchema : Schema := .record (leaves ["subject", "signing_key", "encryption_key"])

def wrappedKeySchema : Schema := .record (leaves ["ephemeral_public", "nonce", "ciphertext"])

def deliverySchema : Schema :=
  .record [("recipient", certificateSchema), ("wrapped_key", wrappedKeySchema)]

def signatureSchema : Schema := .record [("certificate", certificateSchema), ("value", .leaf)]

def sealedSchema : Schema := .record (leaves ["format", "nonce", "ciphertext"])

def keySchema : Schema :=
  .record [("kid", .leaf), ("plain", .leaf), ("encrypted", sealedSchema)]

def keysSchema : Schema :=
  .record [("keys", .list keySchema), ("signatures", .list signatureSchema)]

/-- The kinds of filters and their members. -/
def filterKinds : List (String × List String) :=
  [("video", ["min_pixels", "max_pixels"]), ("audio", ["min_channels", "max_channels"]),
   ("bitrate", ["min_bps", "max_bps"]), ("label", ["label"])]

/-- What is not defined for a filter may be nested `room` deep. -/
def filterSchema (room : Nat) : Schema := .tagged kindMember room filterKinds

/-- Six arrays and objects are around the members of a filter, which leaves room
for 121. -/
def ruleSchema : Schema :=
  .record [("kid", .leaf), ("filters", .list (filterSchema (nestingLimit - 6)))]

def rulesSchema : Schema :=
  .record [("rules", .list ruleSchema), ("signatures", .list signatureSchema)]

/-- The members of an artifact. -/
def documentSchema : Schema :=
  .record [("version", .leaf), ("delivery", .list deliverySchema), ("content_keys", keysSchema),
    ("usage_rules", rulesSchema), ("signature", signatureSchema)]

/-! ## Kinds of filters -/

namespace FilterKind

/-- The members of the filters of a kind. -/
def memberNames : FilterKind → List String
  | .video => ["min_pixels", "max_pixels"]
  | .audio => ["min_channels", "max_channels"]
  | .bitrate => ["min_bps", "max_bps"]
  | .label => ["label"]

/-- A kind has the members that the format defines for it. -/
theorem lookup_name (kind : FilterKind) :
    filterKinds.lookup kind.name = some kind.memberNames := by
  cases kind <;> decide

/-- The tag is no member of any kind. -/
theorem kindMember_notMem (kind : FilterKind) : kindMember ∉ kind.memberNames := by
  cases kind <;> decide

/-- The members that a filter defines have different names. -/
theorem nodup_leaves (kind : FilterKind) :
    (((kindMember, Schema.leaf) :: leaves kind.memberNames).map Prod.fst).Nodup := by
  cases kind <;> decide

/-- A bound is not disturbed. -/
theorem boundShape_respects : boundShape.Respects .leaf := (Shape.Respects.natural _).imap _ _

/-- Neither are two bounds. -/
theorem boundsFields_respects (least most : String) :
    (boundsFields least most).Respects (leaves [least, most]) :=
  .cons boundShape_respects.optional (.cons boundShape_respects.optional .nil)

/-- Nor a label. -/
theorem labelFields_respects : labelFields.Respects (leaves ["label"]) := .cons .text .nil

/-- The filter stays when its members can still be read in another way. -/
theorem readFields_of_respects (kind : FilterKind)
    {read read' : {γ : Type} → Fields γ → Except Fault γ}
    (h : ∀ {γ : Type} (fs : Fields γ) (c : γ), fs.Respects (leaves kind.memberNames) →
      read fs = .ok c → read' fs = .ok c)
    {filter : UsageFilter} (hread : kind.readFields read = .ok filter) :
    kind.readFields read' = .ok filter := by
  cases kind with
  | video | audio | bitrate =>
      obtain ⟨c, hc, rfl⟩ := map_eq_ok_iff.1 hread
      exact map_eq_ok_iff.2 ⟨c, h _ c (boundsFields_respects _ _) hc, rfl⟩
  | label =>
      obtain ⟨c, hc, rfl⟩ := map_eq_ok_iff.1 hread
      exact map_eq_ok_iff.2 ⟨c, h _ c labelFields_respects hc, rfl⟩

end FilterKind

/-! ## Filters -/

/-- The member that tells the kind is not among those of a kind, and these are
leaves. -/
theorem ne_kindMember {kind : FilterKind} {f : String × Schema} (hf : f ∈ leaves kind.memberNames) :
    f.1 ≠ kindMember ∧ f.2 = .leaf := by
  obtain ⟨name, hname, rfl⟩ := List.mem_map.1 hf
  exact ⟨fun hsame => kind.kindMember_notMem (hsame ▸ hname), rfl⟩

/-- The kind of a filter is not disturbed. -/
theorem kindShape_respects : kindField.shape.Respects .leaf := by
  intro a b kind hstep ha
  obtain ⟨text, htext, hkind⟩ := bind_eq_ok_iff.1 ha
  exact bind_eq_ok_iff.2 ⟨text, Shape.Respects.text a b text hstep htext, hkind⟩

/-- A filter object defines the member that tells its kind and the members of that
kind. -/
theorem defined?_filterSchema {room : Nat} {members : List (Bytes × Json)} {kind : FilterKind}
    (h : kindField.Reads (valuesNamed kindMember members) kind) :
    (filterSchema room).defined? members
      = some ((kindMember, .leaf) :: leaves kind.memberNames) := by
  have htext : Schema.textNamed? kindMember members = some kind.name := by
    rw [Schema.textNamed?]
    match hvalues : valuesNamed kindMember members with
    | [] =>
        rw [hvalues] at h
        cases h
    | [value] =>
        rw [hvalues] at h
        obtain ⟨raw, rfl, hraw⟩ := FilterKind.of_read h
        exact hraw
    | _ :: _ :: _ =>
        rw [hvalues] at h
        exact h.elim
  rw [filterSchema, Schema.defined?, htext]
  simp only [Option.bind_eq_bind, Option.bind_some, kind.lookup_name]
  rfl

/-- What can be set aside can be set aside with other escapes. -/
theorem settable_of_leaf {room : Nat} {x y : Json} (h : Step .leaf x y)
    (hx : settable room x = true) : settable room y = true := by
  obtain ⟨raw, raw', rfl, rfl, hsame⟩ := h.leaf
  rw [settable, ← hsame]
  exact hx

section filters

variable {room : Nat} {kind : FilterKind} {members members' : List (Bytes × Json)}

/-- What stands beside the kind can still be set aside. -/
theorem settable_of_redrawn
    (h : Redrawn (filterSchema room) ((kindMember, .leaf) :: leaves kind.memberNames) members
      members')
    (hall : ∀ m ∈ otherMembers members, settable room m.2 = true) :
    ∀ m ∈ otherMembers members', settable room m.2 = true := by
  intro m' hm'
  obtain ⟨hmem, hother⟩ := List.mem_filter.1 hm'
  rcases h.origin m' hmem with hfit | ⟨m, hm, hname, hvalue⟩
  · exact settable_iff_fit.2 hfit
  · have hset : settable room m.2 = true :=
      hall m (List.mem_filter.2 ⟨hm, by rw [hname]; exact hother⟩)
    rcases hvalue with hsame | ⟨f, hf, hstep⟩
    · rw [← hsame]
      exact hset
    · have hleaf : f.2 = .leaf := by
        rcases List.mem_cons.1 hf with rfl | hf
        · rfl
        · exact (ne_kindMember hf).2
      rw [hleaf] at hstep
      exact settable_of_leaf hstep hset

/-- The members of a kind are read from what stands beside it. -/
theorem ofMembers_of_redrawn
    (h : Redrawn (filterSchema room) ((kindMember, .leaf) :: leaves kind.memberNames) members
      members')
    (hnamed : Named members) {γ : Type} {fs : Fields γ}
    (hfs : fs.Respects (leaves kind.memberNames)) {c : γ}
    (hread : fs.ofMembers (otherMembers members) true = .ok c) :
    fs.ofMembers (otherMembers members') true = .ok c := by
  have hdistinct : fs.names.Nodup := hfs.names_eq ▸ (List.nodup_cons.1 kind.nodup_leaves).2
  obtain ⟨-, -, hreads⟩ := (Fields.ofMembers_eq_ok_iff hdistinct).1 hread
  have hnamed' : Named (otherMembers members') := fun m hm =>
    h.named hnamed m (List.mem_filter.1 hm).1
  refine (Fields.ofMembers_eq_ok_iff hdistinct).2
    ⟨rfl, hnamed', hfs.reads (fun f hf => ?_) hreads⟩
  have hne := (ne_kindMember hf).1
  rw [valuesNamed_otherMembers hne, valuesNamed_otherMembers hne]
  exact h.values f (List.mem_cons_of_mem _ hf)

/-- A filter object is read the same after a change. -/
theorem filterOfMembers_of_step {closed : Bool} {filter : UsageFilter} {v : Json}
    (hstep : Step (filterSchema room) (.object members closed) v)
    (hread : filterOfMembers room members closed = .ok filter) :
    ∃ members', v = .object members' closed ∧
      filterOfMembers room members' closed = .ok filter := by
  obtain ⟨hclosed, hnamed, hall, kind, hkind, hfields⟩ := filterOfMembers_eq_ok_iff.1 hread
  obtain ⟨members', rfl, h⟩ := hstep.redrawn (defined?_filterSchema hkind) kind.nodup_leaves
  have hkind' : kindField.Reads (valuesNamed kindMember members') kind :=
    hkind.follows kindShape_respects (h.values _ List.mem_cons_self)
  exact ⟨members', rfl, filterOfMembers_eq_ok_iff.2 ⟨hclosed, h.named hnamed,
    settable_of_redrawn h hall, kind, hkind',
    kind.readFields_of_respects (fun fs c hfs => ofMembers_of_redrawn h hnamed hfs) hfields⟩⟩

/-- The members of a kind are read from the items after one of them changed. -/
theorem readItems_of_step {before after : List Json} {x y : Json} (hstep : Step .leaf x y)
    {γ : Type} {fs : Fields γ} (hfs : fs.Respects (leaves kind.memberNames)) {c : γ}
    (hread : readItems (before ++ x :: after) fs = .ok c) :
    readItems (before ++ y :: after) fs = .ok c := by
  rw [readItems_eq_ok_iff] at hread ⊢
  have hlength := Fields.length_le_of_ofItems hread
  rw [← hfs.names_eq] at hlength
  simp only [List.length_append, List.length_cons, List.length_nil, List.length_map] at hlength
  have hlt : before.length < (leaves kind.memberNames).length := by omega
  have hf := List.getElem?_eq_getElem hlt
  have hleaf := (ne_kindMember (List.getElem_mem hlt)).2
  exact hfs.ofItems hf (hleaf ▸ hstep) hread

/-- A filter array is read the same after a change. -/
theorem filterOfItems_of_step {items : List Json} {closed : Bool} {filter : UsageFilter} {v : Json}
    (harray : Step (filterSchema room) (.array items closed) v)
    (hread : filterOfItems room items closed = .ok filter) :
    ∃ items', v = .array items' closed ∧ filterOfItems room items' closed = .ok filter := by
  obtain ⟨hclosed, first, rest, hitems, hset, kind, hkind, hfields⟩ :=
    filterOfItems_eq_ok_iff.1 hread
  obtain ⟨before, behind, x, y, τ, rfl, rfl, hitem, hstep⟩ := harray.items
  cases hitem
  refine ⟨_, rfl, filterOfItems_eq_ok_iff.2 ⟨hclosed, ?_⟩⟩
  cases before with
  | nil =>
      cases hitems
      exact ⟨y, rest, rfl, hset, kind, kindShape_respects first y kind hstep hkind, hfields⟩
  | cons z before =>
      cases hitems
      refine ⟨first, before ++ y :: behind, rfl, fun w hw => ?_, kind, hkind,
        kind.readFields_of_respects (fun fs c hfs => readItems_of_step hstep hfs) hfields⟩
      rcases List.mem_append.1 hw with hw | hw
      · exact hset w (List.mem_append_left _ hw)
      rcases List.mem_cons.1 hw with rfl | hw
      · exact settable_of_leaf hstep (hset x (by simp))
      · exact hset w (by simp [hw])

end filters

/-- **Filters are not disturbed**, whether they are objects or arrays. -/
theorem filterShape_respects (depth : Nat) :
    (filterShape depth).Respects (filterSchema (nestingLimit - (depth + 1))) := by
  intro a b filter hstep ha
  cases a with
  | object members closed =>
      obtain ⟨members', rfl, hread⟩ := filterOfMembers_of_step hstep ha
      exact hread
  | array items closed =>
      obtain ⟨items', rfl, hread⟩ := filterOfItems_of_step hstep ha
      exact hread
  | string raw => cases ha
  | _ => cases hstep

/-! ## Artifacts -/

/-- A certificate is not disturbed. -/
theorem certificateShape_respects : certificateShape.Respects certificateSchema :=
  (Fields.Respects.record (.cons .text <| .cons .text <| .cons .text .nil) (by decide)).imap _ _

/-- Neither is a wrapped key. -/
theorem wrappedKeyShape_respects : wrappedKeyShape.Respects wrappedKeySchema :=
  (Fields.Respects.record (.cons .text <| .cons .text <| .cons .text .nil) (by decide)).imap _ _

/-- Nor a delivery entry. -/
theorem deliveryShape_respects : deliveryShape.Respects deliverySchema :=
  (Fields.Respects.record
    (.cons certificateShape_respects <| .cons wrappedKeyShape_respects .nil)
    (by decide)).imap _ _

/-- Nor a signature. -/
theorem signatureShape_respects : signatureShape.Respects signatureSchema :=
  (Fields.Respects.record (.cons certificateShape_respects <| .cons .text .nil)
    (by decide)).imap _ _

/-- Nor a sealed value. -/
theorem sealedShape_respects : sealedShape.Respects sealedSchema :=
  (Fields.Respects.record (.cons (.natural _) <| .cons .text <| .cons .text .nil)
    (by decide)).imap _ _

/-- A key is not disturbed. -/
theorem keyShape_respects : keyShape.Respects keySchema :=
  (Fields.Respects.record
    (.cons .text <| .cons Shape.Respects.text.optional <|
      .cons sealedShape_respects.optional .nil)
    (by decide)).imap _ _

/-- Neither is the keys section. -/
theorem keysShape_respects : keysShape.Respects keysSchema :=
  (Fields.Respects.record
    (.cons keyShape_respects.list <| .cons signatureShape_respects.list .nil)
    (by decide)).imap _ _

/-- A rule is not disturbed, as its filters are not. -/
theorem ruleShape_respects : ruleShape.Respects ruleSchema :=
  (Fields.Respects.record (.cons .text <| .cons (filterShape_respects 5).list .nil)
    (by decide)).imap _ _

/-- Neither is the rules section. -/
theorem rulesShape_respects : rulesShape.Respects rulesSchema :=
  (Fields.Respects.record
    (.cons ruleShape_respects.list <| .cons signatureShape_respects.list .nil)
    (by decide)).imap _ _

/-- **Artifacts are not disturbed.** -/
theorem documentShape_respects : documentShape.Respects documentSchema :=
  (Fields.Respects.record
    (.cons (.natural _) <| .cons deliveryShape_respects.list <| .cons keysShape_respects <|
      .cons rulesShape_respects <| .cons signatureShape_respects.optional .nil)
    (by decide)).imap _ _

end KeyExchange.Artifact

namespace KeyExchange.StoredDocument

open Json Artifact Outcome

/-- A document is read from the tree that its artifact spells. -/
theorem ofArtifact_eq_ok_iff {artifact : Bytes} {d : StoredDocument} :
    ofArtifact artifact = .ok d ↔
      ∃ tree, Spells artifact tree ∧
        ∃ text, documentShape.read tree = .ok text ∧ text.toStored = .ok d := by
  rw [ofArtifact]
  simp only [bind_eq_ok_iff, mapError_eq_ok_iff, Shape.readText_eq_ok_iff]
  constructor
  · intro hparts
    obtain ⟨text, ⟨tree, htree, hread⟩, hmeant⟩ := hparts
    exact ⟨tree, htree, text, hread, hmeant⟩
  · intro hparts
    obtain ⟨tree, htree, text, hread, hmeant⟩ := hparts
    exact ⟨text, ⟨tree, htree, hread⟩, hmeant⟩

end KeyExchange.StoredDocument

namespace KeyExchange.Document

open Json Artifact StoredDocument

/-- **Reformatting.**  An artifact that is read spells a tree.  Whatever spells what
comes of this tree by other orders of members, by other escapes, and by members
that are not defined where they are added or removed, is read as the same document.
So whoever loads it under the same settings finds the same or fails in the same
way.

A member that is not defined may also change its value: it is removed and another
one is added.  Only in filters the new value must be fit, and by `settable_iff_fit`
the old one was. -/
theorem load_reformatted {artifact : Bytes} {d : StoredDocument}
    (h : ofArtifact artifact = .ok d) :
    (∃ tree, Spells artifact tree) ∧
    ∀ tree tree' artifact', Spells artifact tree → Reformats documentSchema tree tree' →
      Spells artifact' tree' →
      ofArtifact artifact' = .ok d ∧
      ∀ settings credentials,
        artifact.length ≤ settings.maxArtifactLength →
        artifact'.length ≤ settings.maxArtifactLength →
        load settings credentials artifact' = load settings credentials artifact := by
  obtain ⟨tree, htree, text, hread, hmeant⟩ := ofArtifact_eq_ok_iff.1 h
  refine ⟨⟨tree, htree⟩, fun tree₁ tree' artifact' htree₁ hreformat htree' => ?_⟩
  obtain rfl := htree.unique htree₁
  have h' : ofArtifact artifact' = .ok d := ofArtifact_eq_ok_iff.2
    ⟨tree', htree', text, documentShape_respects.reformats hreformat hread, hmeant⟩
  refine ⟨h', fun settings credentials hfits hfits' => ?_⟩
  rw [load, load, if_neg (Nat.not_lt.2 hfits), if_neg (Nat.not_lt.2 hfits'), h, h']

/-- The rule of a bare document with its filter spelled in some way, and the tree of
that document. -/
def bareRule (filter : Json) : Json :=
  .object
    [member "kid" (ofString (KeyId.toText ⟨.replicate 16 1⟩)),
      member "filters" (.array [filter] true)] true

/-- The artifact of a bare document, with some filter in its rule. -/
def bareTree (filter : Json) : Json :=
  .object
    [member "version" (ofNat formatVersion.toNat),
      member "content_keys"
        (keysShape.write (DocumentText.ofStored (bareDocument formatVersion [] none)).contentKeys),
      member "usage_rules" (.object [member "rules" (.array [bareRule filter] true)] true)] true

/-- The filter of a bare document as it is written, and in another way: its kind is
told last, behind a member that is not defined. -/
def plainFilter : Json := .object (filterMembers (.video ⟨some 0, none⟩)) true

/-- The filter with its kind at the end and a member that no filter has. -/
def movedFilter : Json :=
  .object [member "min_pixels" (ofNat 0), member "note" (.array [.bool true, .null] true),
    member kindMember (ofString FilterKind.video.name)] true

/-- Members of any names can be written. -/
theorem written_members {members : List (String × Json)} (h : ∀ m ∈ members, Written m.2) :
    Written (.object (members.map fun m => member m.1 m.2) true) := by
  refine .object (fun m hm => ?_) (fun m hm => ?_)
  · obtain ⟨m', -, rfl⟩ := List.mem_map.1 hm
    exact ⟨m'.1, rfl⟩
  · obtain ⟨m', hm', rfl⟩ := List.mem_map.1 hm
    exact h m' hm'

/-- The tree can be written if the filter can. -/
theorem written_bareTree {filter : Json} (h : Written filter) : Written (bareTree filter) := by
  have hkeys : Written (keysShape.write
      (DocumentText.ofStored (bareDocument formatVersion [] none)).contentKeys) :=
    keysShape_faithful.written _ (DocumentText.narrow_ofStored _).2
  have hfilters : Written (.array [filter] true) := .array (List.forall_mem_singleton.2 h)
  have hrule : Written (bareRule filter) := @written_members [("kid", _), ("filters", _)]
    (List.forall_mem_cons.2 ⟨.string _, List.forall_mem_singleton.2 hfilters⟩)
  have hsection := @written_members [("rules", _)]
    (List.forall_mem_singleton.2 (.array (List.forall_mem_singleton.2 hrule)))
  exact @written_members [("version", _), ("content_keys", _), ("usage_rules", _)]
    (List.forall_mem_cons.2 ⟨.number _,
      List.forall_mem_cons.2 ⟨hkeys, List.forall_mem_singleton.2 hsection⟩⟩)

/-- The changed filter can be written. -/
theorem written_movedFilter : Written movedFilter := by
  have hnote : Written (.array [.bool true, .null] true) :=
    .array (List.forall_mem_cons.2 ⟨.bool true, List.forall_mem_singleton.2 .null⟩)
  exact @written_members [("min_pixels", _), ("note", _), (kindMember, _)]
    (List.forall_mem_cons.2 ⟨.number 0,
      List.forall_mem_cons.2 ⟨hnote, List.forall_mem_singleton.2 (.string _)⟩⟩)

/-- A member of a record changes. -/
theorem step_member {fields : List (String × Schema)} {name : String} {τ : Schema}
    (hdefined : (name, τ) ∈ fields) (before behind : List (Bytes × Json)) {x y : Json}
    (h : Step τ x y) :
    Step (.record fields) (.object (before ++ member name x :: behind) true)
      (.object (before ++ member name y :: behind) true) :=
  .member rfl (Literal.decode?_encode name) hdefined h

/-- The only item of a list changes. -/
theorem step_singleton {σ : Schema} {x y : Json} (h : Step σ x y) :
    Step (.list σ) (.array [x] true) (.array [y] true) :=
  @Step.item _ _ [] [] _ _ _ rfl h

/-- A change of the filter is a change of the tree. -/
theorem step_bareTree {x y : Json} (h : Step (filterSchema (nestingLimit - 6)) x y) :
    Step documentSchema (bareTree x) (bareTree y) := by
  have hrule : Step ruleSchema (bareRule x) (bareRule y) :=
    @step_member _ "filters" _ (by simp) [_] [] _ _ (step_singleton h)
  have hsection : Step rulesSchema _ _ :=
    @step_member _ "rules" _ (by simp) [] [] _ _ (step_singleton hrule)
  exact @step_member _ "usage_rules" rulesSchema (by simp) [_, _] [] _ _ hsection

/-- The other way is reached by a change of order and a new member. -/
theorem reformats_plainFilter :
    Reformats (filterSchema (nestingLimit - 6)) plainFilter movedFilter := by
  have hdefined : ∀ members : List (Bytes × Json),
      valuesNamed kindMember members = [ofString FilterKind.video.name] →
      (filterSchema (nestingLimit - 6)).defined? members
        = some ((kindMember, .leaf) :: leaves FilterKind.video.memberNames) := by
    intro members hvalues
    apply defined?_filterSchema
    rw [hvalues]
    exact FilterKind.read_ofString_name .video
  have hplain : filterMembers (.video ⟨some 0, none⟩)
      = [member kindMember (ofString FilterKind.video.name), member "min_pixels" (ofNat 0)] := rfl
  have horder := @Step.order (filterSchema (nestingLimit - 6)) _
    (filterMembers (.video ⟨some 0, none⟩)) _ true
    (hdefined _ (by simp [hplain, kindMember])) (List.reverse_perm _).symm
  have hadd := @Step.add (filterSchema (nestingLimit - 6)) _ [member "min_pixels" (ofNat 0)]
    [member kindMember (ofString FilterKind.video.name)] _ "note" (.array [.bool true, .null] true)
    true (hdefined _ (by simp [kindMember])) (Literal.decode?_encode _) (by decide)
    (.array (by simp [Fit.bool, Fit.null]))
  exact .tail (.single horder) hadd

/-- The filter may tell its kind last, and the text may have no blanks. -/
theorem load_reformatted_bareDocument :
    ofArtifact ((bareTree movedFilter).render .compact 0)
      = .ok (bareDocument formatVersion [] none) ∧
    load {} [] ((bareTree movedFilter).render .compact 0)
      = load {} [] ((bareDocument formatVersion [] none).toArtifact .indented) := by
  have hread : ofArtifact ((bareDocument formatVersion [] none).toArtifact .indented)
      = .ok (bareDocument formatVersion [] none) := by decide +kernel
  have hplain : documentShape.write (DocumentText.ofStored (bareDocument formatVersion [] none))
      = bareTree plainFilter := rfl
  have hspells : Spells ((bareDocument formatVersion [] none).toArtifact .indented)
      (bareTree plainFilter) := by
    rw [← hplain]
    exact spells_render (documentShape_faithful.written _ (DocumentText.narrow_ofStored _)) _
  have hmoved : Spells ((bareTree movedFilter).render .compact 0) (bareTree movedFilter) :=
    spells_render (written_bareTree written_movedFilter) _
  have hreformats : Reformats documentSchema (bareTree plainFilter) (bareTree movedFilter) :=
    Relation.ReflTransGen.lift bareTree (fun _ _ => step_bareTree) _ _ reformats_plainFilter
  obtain ⟨-, hsame⟩ := load_reformatted hread
  obtain ⟨hback, hloads⟩ := hsame _ _ _ hspells hreformats hmoved
  exact ⟨hback, hloads {} [] (by decide +kernel) (by decide +kernel)⟩

end KeyExchange.Document
