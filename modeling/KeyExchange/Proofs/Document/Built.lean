import Mathlib.Data.List.Induction
import Mathlib.Data.List.Nodup
import KeyExchange.Document.Basic

/-!
# Documents that were built

A producer starts with the empty document and edits it.  Whatever the edits
are and whichever of them fail, no id and no recipient occurs twice, every key
has a value, and the signers are those that were named.

* `Signers.ofEdits`: the signers that some edits name;
* `Document.Built`: what holds of a document that is being built;
* `Built.edited`: what one edit preserves, `built_editEach`: so any number of them.
-/

namespace KeyExchange

/-- The signer of the whole document that an edit names. -/
def Edit.documentSigner? : Edit → Option Credential
  | .setDocumentSigner signer => some signer
  | _ => none

/-- The signer of the content keys that an edit names. -/
def Edit.contentKeysSigner? : Edit → Option Credential
  | .addContentKeysSigner signer => some signer
  | _ => none

/-- The signer of the usage rules that an edit names. -/
def Edit.usageRulesSigner? : Edit → Option Credential
  | .addUsageRulesSigner signer => some signer
  | _ => none

/-- The signers that some edits name.  Of those for the whole document the last
one counts. -/
def Signers.ofEdits (edits : List Edit) : Signers where
  document := (edits.filterMap Edit.documentSigner?).getLast?
  contentKeys := edits.filterMap Edit.contentKeysSigner?
  usageRules := edits.filterMap Edit.usageRulesSigner?

/-- The signers that are named after one more edit. -/
def Signers.named (s : Signers) : Edit → Signers
  | .setDocumentSigner signer => { s with document := some signer }
  | .addContentKeysSigner signer => { s with contentKeys := s.contentKeys ++ [signer] }
  | .addUsageRulesSigner signer => { s with usageRules := s.usageRules ++ [signer] }
  | _ => s

/-- One more edit names one more signer at most. -/
theorem Signers.ofEdits_snoc (edits : List Edit) (e : Edit) :
    ofEdits (edits ++ [e]) = (ofEdits edits).named e := by
  cases e with
  | addContentKey _ | addRecipient _ | addUsageRule _ | setDocumentSigner _
  | addContentKeysSigner _ | addUsageRulesSigner _ =>
      simp [ofEdits, named, Edit.documentSigner?, Edit.contentKeysSigner?,
        Edit.usageRulesSigner?]

/-- A list of certificates without repetitions stays so. -/
theorem nodup_appendNew {certificate : Certificate} {listed : List Certificate}
    (h : listed.Nodup) : (appendNew certificate listed).Nodup := by
  unfold appendNew
  by_cases hmem : certificate ∈ listed
  · rw [if_pos hmem]
    exact h
  · rw [if_neg hmem, ← List.concat_eq_append]
    exact h.concat hmem

namespace Document

/-- What holds of a document that is being built with some signers. -/
structure Built (d : Document) (signers : Signers) : Prop where
  stage : d.stage = .building signers
  distinct : (d.contentKeys.map ContentKey.id).Nodup
  valued : ∀ k ∈ d.contentKeys, k.value.isSome = true
  once : d.recipients.Nodup

/-- The document after an edit, or as it was when the edit fails. -/
def edited (d : Document) (e : Edit) : Document := ((d.edit e).toOption).getD d

/-- An edit that succeeds leaves its document. -/
theorem edited_of_ok {d d' : Document} {e : Edit} (h : d.edit e = .ok d') : d.edited e = d' := by
  rw [edited, h]
  rfl

/-- An edit that fails leaves the document as it was. -/
theorem edited_of_error {d : Document} {e : Edit} {fault : DocumentFault}
    (h : d.edit e = .error fault) : d.edited e = d := by
  rw [edited, h]
  rfl

/-- The last edit is done on what the others have left. -/
theorem editEach_snoc (d : Document) (edits : List Edit) (e : Edit) :
    d.editEach (edits ++ [e]) = (d.editEach edits).edited e := by
  rw [editEach, List.foldl_append]
  rfl

/-- A document has a key with an id exactly when the id is one of its keys'. -/
theorem isSome_contentKey?_iff {d : Document} {id : KeyId} :
    (d.contentKey? id).isSome = true ↔ id ∈ d.contentKeys.map ContentKey.id := by
  rw [contentKey?, List.find?_isSome, List.mem_map]
  simp only [beq_iff_eq]

/-- A key is added, or the document stays as it was. -/
theorem Built.edited_addContentKey {d : Document} {signers : Signers} (h : d.Built signers)
    (key : ContentKey) : (d.edited (.addContentKey key)).Built signers := by
  have hedit : d.edit (.addContentKey key)
      = if key.value.isNone then .error (.missingKeyValue key.id)
        else if (d.contentKey? key.id).isSome then .error (.duplicateKeyId key.id)
        else .ok { d with contentKeys := d.contentKeys ++ [key] } := by
    rw [edit, h.stage]
  by_cases hvalue : key.value.isNone
  · rw [if_pos hvalue] at hedit
    rw [edited_of_error hedit]
    exact h
  · rw [if_neg hvalue] at hedit
    by_cases hid : (d.contentKey? key.id).isSome
    · rw [if_pos hid] at hedit
      rw [edited_of_error hedit]
      exact h
    · rw [if_neg hid] at hedit
      rw [edited_of_ok hedit]
      have hnew := mt isSome_contentKey?_iff.2 hid
      refine { h with distinct := ?_, valued := ?_ }
      · rw [List.map_append, List.map_singleton, ← List.concat_eq_append]
        exact h.distinct.concat hnew
      · intro k hk
        rcases List.mem_append.1 hk with hk | hk
        · exact h.valued k hk
        · rw [List.mem_singleton.1 hk, Option.isSome_iff_ne_none]
          exact fun hnone => hvalue (Option.isNone_iff_eq_none.2 hnone)

/-- **One edit.**  What holds of a document still does, with the signers named then. -/
theorem Built.edited {d : Document} {signers : Signers} (h : d.Built signers) (e : Edit) :
    (d.edited e).Built (signers.named e) := by
  have hstage := h.stage
  cases e with
  | addContentKey key => exact h.edited_addContentKey key
  | addRecipient certificate =>
      have hedit : d.edit (.addRecipient certificate)
          = .ok { d with recipients := appendNew certificate d.recipients } := by
        rw [edit, hstage]
      rw [edited_of_ok hedit]
      exact { h with once := nodup_appendNew h.once }
  | addUsageRule rule =>
      have hedit : d.edit (.addUsageRule rule)
          = .ok { d with usageRules := d.usageRules ++ [rule] } := by
        rw [edit, hstage]
      rw [edited_of_ok hedit]
      exact { h with }
  | setDocumentSigner _ | addContentKeysSigner _ | addUsageRulesSigner _ =>
      rw [Document.edited, edit, hstage]
      exact { h with stage := rfl }

/-- **Any number of edits**, those that fail left out. -/
theorem built_editEach (edits : List Edit) :
    (empty.editEach edits).Built (.ofEdits edits) := by
  induction edits using List.reverseRecOn with
  | nil => exact ⟨rfl, List.nodup_nil, fun _ hk => absurd hk List.not_mem_nil, List.nodup_nil⟩
  | append_singleton edits e ih =>
      rw [editEach_snoc, Signers.ofEdits_snoc]
      exact ih.edited e

end Document

end KeyExchange
