import KeyExchange.Document.Transfer
import KeyExchange.Proofs.Document.Built
import KeyExchange.Proofs.Document.Entitled

/-!
# From an empty document to a loaded one

What a producer has built is told by the edits of each kind on their own: how the
kinds are mixed makes no difference, and neither do edits that fail.  A document that
was loaded stays as it is, whatever is asked of it.

* `Document.ofEdits`: the document that some edits make, kind by kind;
* `ofEdits_edited`: one more edit, `editEach_empty`: so any number of them;
* `editAll_empty`: edits that add keys with values and ids of their own all succeed;
* `Document.Refuses`: the edits that fail, and how;
* `Session.step_loaded`: what one call leaves of a loaded document, `run_loaded`: so
  any number of them;
* `lifecycle`: both stages.
-/

namespace KeyExchange

open Outcome

/-! ## Edits of one kind -/

namespace Edit

/-- The content key that an edit adds. -/
def contentKey? : Edit → Option ContentKey
  | .addContentKey key => some key
  | _ => none

/-- The recipient that an edit adds. -/
def recipient? : Edit → Option Certificate
  | .addRecipient certificate => some certificate
  | _ => none

/-- The usage rule that an edit adds. -/
def usageRule? : Edit → Option UsageRule
  | .addUsageRule rule => some rule
  | _ => none

end Edit

/-- Of some keys those that a document takes: they have a value, and an id that no
such key before them has. -/
def ContentKey.taken (keys : List ContentKey) : List ContentKey :=
  (keys.filter hasValue).eraseDupsBy same

/-- The document that some edits make, kind by kind. -/
def Document.ofEdits (edits : List Edit) : Document where
  contentKeys := ContentKey.taken (edits.filterMap Edit.contentKey?)
  recipients := (edits.filterMap Edit.recipient?).eraseDups
  usageRules := edits.filterMap Edit.usageRule?
  stage := .building (.ofEdits edits)

/-- One more item stays when none that stayed before is like it. -/
theorem eraseDupsBy_snoc {α : Type} (r : α → α → Bool) (xs : List α) (x : α) :
    (xs ++ [x]).eraseDupsBy r
      = if (xs.eraseDupsBy r).any (r x) then xs.eraseDupsBy r else xs.eraseDupsBy r ++ [x] := by
  -- What stayed so far is kept in reverse, so the induction is over any such list.
  have hloop (kept : List α) : List.eraseDupsBy.loop r (xs ++ [x]) kept
      = if (List.eraseDupsBy.loop r xs kept).any (r x) then List.eraseDupsBy.loop r xs kept
        else List.eraseDupsBy.loop r xs kept ++ [x] := by
    induction xs generalizing kept with
    | nil =>
        rw [List.nil_append, List.eraseDupsBy.loop, List.eraseDupsBy.loop, List.any_reverse]
        by_cases hlike : kept.any (r x)
        · rw [hlike]
          rfl
        · rw [Bool.not_eq_true] at hlike
          rw [hlike]
          exact List.reverse_cons
    | cons y ys ih =>
        rw [List.cons_append, List.eraseDupsBy.loop, List.eraseDupsBy.loop]
        cases kept.any (r y) with
        | true => exact ih kept
        | false => exact ih (y :: kept)
  exact hloop []

/-- All items stay when none is like an earlier one. -/
theorem eraseDupsBy_eq_self {α : Type} {r : α → α → Bool} {xs : List α}
    (h : xs.Pairwise fun x y => r y x = false) : xs.eraseDupsBy r = xs := by
  induction xs using List.reverseRecOn with
  | nil => rfl
  | append_singleton xs x ih =>
      obtain ⟨hbefore, -, hlast⟩ := List.pairwise_append.1 h
      have hunlike : ¬xs.any (r x) = true := by
        rw [Bool.not_eq_true, List.any_eq_false]
        exact fun y hy => Bool.not_eq_true _ ▸ hlast y hy x (List.mem_singleton_self x)
      rw [eraseDupsBy_snoc, ih hbefore, if_neg hunlike]

namespace ContentKey

/-- Keys with values and with ids of their own are all taken. -/
theorem taken_eq_self {keys : List ContentKey} (hvalued : ∀ k ∈ keys, k.value ≠ none)
    (hdistinct : (keys.map ContentKey.id).Nodup) : taken keys = keys := by
  have hall : keys.filter hasValue = keys :=
    List.filter_eq_self.2 fun k hk => Option.isSome_iff_ne_none.2 (hvalued k hk)
  rw [taken, hall]
  refine eraseDupsBy_eq_self ((List.pairwise_map.1 hdistinct).imp fun hids => ?_)
  exact beq_false_of_ne hids.symm

/-- A key without a value is not taken. -/
theorem taken_snoc_none (keys : List ContentKey) (id : KeyId) :
    taken (keys ++ [⟨id, none⟩]) = taken keys := by
  rw [taken, List.filter_append, List.filter_cons_of_neg Bool.false_ne_true, List.filter_nil,
    List.append_nil, taken]

/-- A key with a value is taken unless its id is there already. -/
theorem taken_snoc_some (keys : List ContentKey) (id : KeyId) (value : KeyValue) :
    taken (keys ++ [⟨id, some value⟩])
      = if (taken keys).any (same ⟨id, some value⟩) then taken keys
        else taken keys ++ [⟨id, some value⟩] := by
  rw [taken, List.filter_append, List.filter_cons_of_pos rfl, List.filter_nil, eraseDupsBy_snoc,
    taken]

end ContentKey

namespace Document

/-- A document has a key with an id exactly when one of its keys is the same. -/
theorem isSome_contentKey? (d : Document) (key : ContentKey) :
    (d.contentKey? key.id).isSome = d.contentKeys.any key.same := by
  rw [contentKey?, List.isSome_find?]
  congr 1
  funext k
  exact BEq.comm

/-- One more edit adds to its own kind. -/
theorem ofEdits_snoc (edits : List Edit) (e : Edit) :
    ofEdits (edits ++ [e]) = {
      contentKeys := ContentKey.taken (edits.filterMap Edit.contentKey? ++ e.contentKey?.toList)
      recipients := (edits.filterMap Edit.recipient? ++ e.recipient?.toList).eraseDups
      usageRules := edits.filterMap Edit.usageRule? ++ e.usageRule?.toList
      stage := .building ((Signers.ofEdits edits).named e) } := by
  rw [ofEdits, Signers.ofEdits_snoc, List.filterMap_append, List.filterMap_append,
    List.filterMap_append]
  cases e <;> rfl

/-- A key that is taken, or refused for its id. -/
theorem ofEdits_edited_some (edits : List Edit) (id : KeyId) (value : KeyValue) :
    (ofEdits edits).edited (.addContentKey ⟨id, some value⟩)
      = { ofEdits edits with
          contentKeys :=
            ContentKey.taken (edits.filterMap Edit.contentKey? ++ [⟨id, some value⟩]) } := by
  let keys := ContentKey.taken (edits.filterMap Edit.contentKey?)
  have hid : ((ofEdits edits).contentKey? id).isSome
      = keys.any (ContentKey.same ⟨id, some value⟩) :=
    (ofEdits edits).isSome_contentKey? ⟨id, some value⟩
  have hedit : (ofEdits edits).edit (.addContentKey ⟨id, some value⟩)
      = if keys.any (ContentKey.same ⟨id, some value⟩) then .error (.duplicateKeyId id)
        else .ok { ofEdits edits with contentKeys := keys ++ [⟨id, some value⟩] } := by
    rw [← hid]
    rfl
  rw [ContentKey.taken_snoc_some]
  by_cases hlike : keys.any (ContentKey.same ⟨id, some value⟩)
  · rw [if_pos hlike] at hedit ⊢
    rw [edited_of_error hedit]
    rfl
  · rw [if_neg hlike] at hedit ⊢
    rw [edited_of_ok hedit]

/-- **One more edit.**  It makes a difference to its own kind only. -/
theorem ofEdits_edited (edits : List Edit) (e : Edit) :
    (ofEdits edits).edited e = ofEdits (edits ++ [e]) := by
  rw [ofEdits_snoc]
  cases e with
  | addContentKey key =>
      obtain ⟨id, value⟩ := key
      simp only [Edit.contentKey?, Edit.recipient?, Edit.usageRule?, Option.toList, List.append_nil]
      cases value with
      | none =>
          rw [ContentKey.taken_snoc_none]
          rfl
      | some value =>
          rw [ofEdits_edited_some]
          rfl
  | addRecipient certificate =>
      have hedit : (ofEdits edits).edit (.addRecipient certificate)
          = .ok { ofEdits edits with
              recipients := appendNew certificate (edits.filterMap Edit.recipient?).eraseDups } :=
        rfl
      rw [edited_of_ok hedit, appendNew_eraseDups]
      simp only [Edit.contentKey?, Edit.recipient?, Edit.usageRule?, Option.toList, List.append_nil]
      rfl
  | addUsageRule _ | setDocumentSigner _ | addContentKeysSigner _ | addUsageRulesSigner _ =>
      simp only [Edit.contentKey?, Edit.recipient?, Edit.usageRule?, Option.toList, List.append_nil]
      rfl

/-- **Any number of edits**, in any order and with those that fail left out. -/
theorem editEach_empty (edits : List Edit) : empty.editEach edits = ofEdits edits := by
  induction edits using List.reverseRecOn with
  | nil => rfl
  | append_singleton edits e ih => rw [editEach_snoc, ih, ofEdits_edited]

/-- The edits that fail, and how.  The value is asked for before the id. -/
inductive Refuses (d : Document) : Edit → DocumentFault → Prop
  | valueless {key : ContentKey} (hvalue : key.value = none) :
      Refuses d (.addContentKey key) (.missingKeyValue key.id)
  | duplicate {key : ContentKey} (hvalue : key.value ≠ none)
      (hid : key.id ∈ d.contentKeys.map ContentKey.id) :
      Refuses d (.addContentKey key) (.duplicateKeyId key.id)

/-- **How an edit fails** while a document is being built. -/
theorem edit_eq_error_iff {d : Document} {signers : Signers} (hstage : d.stage = .building signers)
    {e : Edit} {fault : DocumentFault} : d.edit e = .error fault ↔ d.Refuses e fault := by
  unfold edit
  rw [hstage]
  cases e with
  | addContentKey key =>
      dsimp only
      by_cases hvalue : key.value = none
      · rw [if_pos (Option.isNone_iff_eq_none.2 hvalue), Except.error.injEq]
        constructor
        · rintro rfl
          exact .valueless hvalue
        · intro h
          cases h with
          | valueless => rfl
          | duplicate hsome => exact absurd hvalue hsome
      · rw [if_neg (mt Option.isNone_iff_eq_none.1 hvalue)]
        by_cases hid : key.id ∈ d.contentKeys.map ContentKey.id
        · rw [if_pos (isSome_contentKey?_iff.2 hid), Except.error.injEq]
          constructor
          · rintro rfl
            exact .duplicate hvalue hid
          · intro h
            cases h with
            | valueless hnone => exact absurd hnone hvalue
            | duplicate => rfl
        · rw [if_neg (mt isSome_contentKey?_iff.1 hid)]
          refine iff_of_false (fun h => nomatch h) fun h => ?_
          cases h with
          | valueless hnone => exact hvalue hnone
          | duplicate _ hold => exact hid hold
  | addRecipient _ | addUsageRule _ | setDocumentSigner _ | addContentKeysSigner _
  | addUsageRulesSigner _ => exact iff_of_false (fun h => nomatch h) fun h => nomatch h

/-- **Edits that all succeed.**  Only a key can be refused, and none is that has a value
and an id of its own. -/
theorem editAll_empty {edits : List Edit}
    (hvalued : ∀ k ∈ edits.filterMap Edit.contentKey?, k.value ≠ none)
    (hdistinct : ((edits.filterMap Edit.contentKey?).map ContentKey.id).Nodup) :
    empty.editAll edits = .ok (ofEdits edits) := by
  induction edits using List.reverseRecOn with
  | nil => rfl
  | append_singleton edits e ih =>
      rw [List.filterMap_append] at hvalued hdistinct
      rw [List.map_append, List.nodup_append] at hdistinct
      obtain ⟨hbefore, -, hnew⟩ := hdistinct
      have hvaluedBefore : ∀ k ∈ edits.filterMap Edit.contentKey?, k.value ≠ none :=
        fun k hk => hvalued k (List.mem_append_left _ hk)
      have hstep : empty.editAll (edits ++ [e]) = (ofEdits edits).edit e := by
        rw [editAll, List.foldlM_append]
        change (empty.editAll edits >>= fun d => d.edit e >>= pure) = _
        rw [ih hvaluedBefore hbefore, ok_bind, bind_pure]
      rw [hstep]
      rcases hedit : (ofEdits edits).edit e with fault | d
      · exfalso
        cases (edit_eq_error_iff rfl).1 hedit with
        | @valueless key hnone =>
            exact hvalued key (List.mem_append_right _ (List.mem_singleton_self key)) hnone
        | @duplicate key _ hold =>
            have hold : key.id ∈ (edits.filterMap Edit.contentKey?).map ContentKey.id := by
              rwa [← ContentKey.taken_eq_self hvaluedBefore hbefore]
            exact hnew _ hold key.id (List.mem_singleton_self key.id) rfl
      · rw [← ofEdits_edited, edited_of_ok hedit]

end Document

/-! ## Documents that were loaded -/

/-- A loaded document has no artifact, and nothing is drawn for one. -/
theorem Document.toArtifact_of_loaded {d : Document} {report : SignatureReport}
    (h : d.stage = .loaded report) (layout : Json.Layout) (entropy : Entropy) :
    d.toArtifact layout entropy = (.error .readOnly, entropy) := by
  unfold toArtifact toStored
  rw [h]
  rfl

/-- What a caller may ask of a document. -/
inductive Call where
  /-- A change. -/
  | edit (e : Edit)
  /-- The artifact. -/
  | render (settings : Settings)
  /-- The artifact, written to the sink. -/
  | save (settings : Settings)

/-- A document in the hands of a caller, with the sink and the random source of the
caller. -/
structure Session where
  document : Document
  sink : Sink
  entropy : Entropy

namespace Session

/-- What comes of a call, and what it leaves. -/
def step (s : Session) : Call → Except DocumentFault Unit × Session
  | .edit e => ((s.document.edit e).map fun _ => (), { s with document := s.document.edited e })
  | .render settings =>
      let (outcome, entropy) := s.document.toArtifact settings.layout s.entropy
      (outcome.map fun _ => (), { s with entropy })
  | .save settings =>
      let (outcome, sink, entropy) := s.document.saveTo settings s.sink s.entropy
      (outcome, { s with sink, entropy })

/-- What comes of some calls, and what they leave. -/
def run (s : Session) : List Call → List (Except DocumentFault Unit) × Session
  | [] => ([], s)
  | call :: calls =>
      let (outcome, next) := s.step call
      let (outcomes, last) := next.run calls
      (outcome :: outcomes, last)

variable {s : Session} {report : SignatureReport}

/-- **One call.**  A loaded document refuses it, and nothing is drawn, written or
changed. -/
theorem step_loaded (h : s.document.stage = .loaded report) (call : Call) :
    s.step call = (.error .readOnly, s) := by
  cases call with
  | edit e =>
      have hedit : s.document.edit e = .error .readOnly := by rw [Document.edit, h]
      rw [step, Document.edited_of_error hedit, hedit]
      rfl
  | render settings =>
      rw [step, Document.toArtifact_of_loaded h]
      rfl
  | save settings =>
      rw [step, Document.saveTo, Document.toArtifact_of_loaded h]

/-- **Any number of calls.** -/
theorem run_loaded (h : s.document.stage = .loaded report) (calls : List Call) :
    s.run calls = (List.replicate calls.length (.error .readOnly), s) := by
  induction calls with
  | nil => rfl
  | cons call calls ih =>
      rw [run, step_loaded h]
      dsimp only
      rw [ih]
      rfl

end Session

namespace Document

/-- The ids of a loaded document are those of the artifact, which are pairwise
different. -/
theorem nodup_ids_of_load {settings : Settings} {credentials : List Credential} {artifact : Bytes}
    {d : Document} (h : load settings credentials artifact = .ok d) :
    (d.contentKeys.map ContentKey.id).Nodup := by
  obtain ⟨-, stored, report, key, ks, hread, -, hkey, hvalues, rfl⟩ := load_eq_ok_iff.1 h
  have htold := told_of_mapM (WrappedKey.isSome_of_unwrapAny (mapError_eq_ok_iff.1 hkey)) hvalues
  rw [ids_of_told htold]
  exact (StoredDocument.wellFormed_of_ofArtifact hread).distinct

/-- **Both stages of a document.**  Whatever edits a producer makes, the document is
told by those of each kind on their own: it has the keys with a value and an id that
was new, every recipient once, all rules and section signers in their order, and the
last document signer.  An edit fails for a missing value or an id that is there
already, and then leaves the document as it was.  Of a loaded document every call is
refused, and it leaves everything as it was: the document with its ids and its report,
the sink, and the random source. -/
theorem lifecycle (edits : List Edit) (settings : Settings) (credentials : List Credential)
    (artifact : Bytes) :
    (empty.editEach edits = ofEdits edits ∧
      ((ofEdits edits).contentKeys.map ContentKey.id).Nodup ∧
      (∀ k ∈ (ofEdits edits).contentKeys, k.value.isSome = true) ∧
      (ofEdits edits).report? = none ∧
      ∀ e fault,
        ((empty.editEach edits).edit e = .error fault ↔ (ofEdits edits).Refuses e fault) ∧
        ((empty.editEach edits).edit e = .error fault →
          empty.editEach (edits ++ [e]) = empty.editEach edits)) ∧
    ∀ d, load settings credentials artifact = .ok d →
      (d.contentKeys.map ContentKey.id).Nodup ∧ (∃ report, d.report? = some report) ∧
      ∀ sink entropy calls,
        Session.run ⟨d, sink, entropy⟩ calls
          = (List.replicate calls.length (.error .readOnly), ⟨d, sink, entropy⟩) := by
  constructor
  · have hbuilt := built_editEach edits
    rw [editEach_empty] at hbuilt
    refine ⟨editEach_empty edits, hbuilt.distinct, hbuilt.valued, rfl, fun e fault => ?_⟩
    constructor
    · rw [editEach_empty]
      exact edit_eq_error_iff hbuilt.stage
    · intro hrefused
      rw [editEach_snoc, edited_of_error hrefused]
  · intro d hload
    have hids := nodup_ids_of_load hload
    obtain ⟨-, stored, report, key, ks, -, -, -, -, rfl⟩ := load_eq_ok_iff.1 hload
    exact ⟨hids, ⟨report, rfl⟩, fun sink entropy calls => Session.run_loaded rfl calls⟩

/-- Two keys and a recipient, with a key whose id is there already, one without a value,
and the recipient and a signer once more. -/
def haltingEdits : List Edit :=
  [.addContentKey ⟨Sample.keyA, some Sample.valueA⟩, .setDocumentSigner Sample.recipient1,
    .addRecipient Sample.recipient1.certificate, .addContentKey ⟨Sample.keyA, some Sample.valueB⟩,
    .addContentKey ⟨Sample.keyB, none⟩, .addRecipient Sample.recipient1.certificate,
    .addContentKey ⟨Sample.keyB, some Sample.valueB⟩, .setDocumentSigner Sample.producer]

/-- What is left of such edits: both keys with their first values, the recipient once and
the last signer. -/
def haltingDocument : Document where
  contentKeys := [⟨Sample.keyA, some Sample.valueA⟩, ⟨Sample.keyB, some Sample.valueB⟩]
  recipients := [Sample.recipient1.certificate]
  usageRules := []
  stage := .building ⟨some Sample.producer, [], []⟩

/-- Kind by kind, the edits make this document. -/
theorem ofEdits_haltingEdits : ofEdits haltingEdits = haltingDocument := by
  have hnamed : haltingEdits.filterMap Edit.recipient?
      = [Sample.recipient1.certificate, Sample.recipient1.certificate] := rfl
  have honce : [Sample.recipient1.certificate, Sample.recipient1.certificate].eraseDups
      = [Sample.recipient1.certificate] := by
    simp [List.eraseDups_cons]
  rw [ofEdits, hnamed, honce]
  rfl

/-- A key with an id that is there is refused, and one that has no value besides is refused
for that.  After a load everything is. -/
theorem lifecycle_haltingEdits :
    empty.editEach haltingEdits = haltingDocument ∧
    (empty.editEach haltingEdits).edit (.addContentKey ⟨Sample.keyA, some Sample.valueB⟩)
      = .error (.duplicateKeyId Sample.keyA) ∧
    (empty.editEach haltingEdits).edit (.addContentKey ⟨Sample.keyA, none⟩)
      = .error (.missingKeyValue Sample.keyA) ∧
    empty.editEach (haltingEdits ++ [.addContentKey ⟨Sample.keyA, none⟩])
      = empty.editEach haltingEdits ∧
    ∃ d, load {} [] ((StoredDocument.bareDocument formatVersion [] none).toArtifact .compact)
        = .ok d ∧
      Session.run ⟨d, {}, .cycle []⟩ [.edit (.addRecipient Sample.recipient1.certificate), .save {}]
        = ([.error .readOnly, .error .readOnly], ⟨d, {}, .cycle []⟩) := by
  have hread :=
    (StoredDocument.wellFormed_bareDocument none).ofArtifact_toArtifact .compact
  have hfits : ((StoredDocument.bareDocument formatVersion [] none).toArtifact .compact).length
      ≤ Settings.maxArtifactLength {} := by decide +kernel
  have hkey : (StoredDocument.bareDocument formatVersion [] none).recoverKey [] = .ok none := rfl
  obtain ⟨d, hload⟩ := exists_load_of_recoverKey hfits hread hkey
  obtain ⟨⟨hbuilt, -, -, -, hrefusals⟩, hloaded⟩ := lifecycle haltingEdits {} [] _
  obtain ⟨-, -, hcalls⟩ := hloaded d hload
  rw [ofEdits_haltingEdits] at hbuilt hrefusals
  have hthere : Sample.keyA ∈ haltingDocument.contentKeys.map ContentKey.id := List.mem_cons_self
  have hduplicate := (hrefusals (.addContentKey ⟨Sample.keyA, some Sample.valueB⟩)
    (.duplicateKeyId Sample.keyA)).1.2 (.duplicate nofun hthere)
  obtain ⟨hmissing, hkept⟩ := hrefusals (.addContentKey ⟨Sample.keyA, none⟩)
    (.missingKeyValue Sample.keyA)
  have hvalueless := hmissing.2 (.valueless rfl)
  exact ⟨hbuilt, hduplicate, hvalueless, hkept hvalueless, d, hload, hcalls _ _ _⟩

end Document

end KeyExchange
