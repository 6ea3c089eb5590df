import KeyExchange.Proofs.Document.Failure
import KeyExchange.Proofs.Json.Ending

/-!
# Artifacts that are cut short or go on

The bracket that closes an artifact is its last octet, and no part of it before that spells
a tree of its own that could be a document.  So an artifact that was cut short anywhere is
malformed, and one that goes on with anything but blanks is too.

* `ofArtifact_eq_error_of_append`: artifacts that are cut short;
* `ofArtifact_append`: artifacts that go on;
* `ofArtifact_toArtifact_whole`: both.
-/

namespace KeyExchange

open Json Outcome

namespace Artifact

/-- What is read as the texts of a document is no number. -/
theorem ne_number_of_read {v : Json} {t : DocumentText} (h : documentShape.read v = .ok t)
    (x : Number) : v ≠ .number x := by
  rintro rfl
  cases h

/-- The text of a document's texts ends with the bracket of its object. -/
theorem getLast?_writeText (layout : Layout) (t : DocumentText) :
    (documentShape.writeText layout t).getLast? = some 125 :=
  getLast?_render_object layout 0 _

end Artifact

namespace StoredDocument

open Artifact

/-- **Cut short.**  If the first part were a document, what follows would have to be blank,
but it has the closing bracket. -/
theorem ofArtifact_eq_error_of_append {d : StoredDocument} {layout : Layout} {part rest : Bytes}
    (h : d.toArtifact layout = part ++ rest) (hrest : rest ≠ []) :
    ∃ cause, ofArtifact part = .error (.parse cause) := by
  rcases hread : ofArtifact part with fault | d'
  · obtain ⟨cause, rfl⟩ := failsOnly_ofArtifact part fault hread
    exact ⟨cause, rfl⟩
  · obtain ⟨t, ht, -⟩ := bind_eq_ok_iff.1 hread
    obtain ⟨v, hspells, hv⟩ := Shape.readText_eq_ok_iff.1 (mapError_eq_ok_iff.1 ht)
    have hpart := hspells.readText_append (ne_number_of_read hv) rest
    have hwhole := readText_render
      (documentShape_faithful.written _ (DocumentText.narrow_ofStored d)) layout
    have hblank : rest.all Token.isBlank = true := by
      rw [← h] at hpart
      exact congrArg Prod.snd (hpart.symm.trans hwhole)
    have hlast : rest.getLast? = some 125 := by
      have hall := getLast?_writeText layout (DocumentText.ofStored d)
      have hsame : documentShape.writeText layout (DocumentText.ofStored d) = part ++ rest := h
      rw [hsame, List.getLast?_append_of_ne_nil _ hrest] at hall
      exact hall
    have hbracket := List.all_eq_true.1 hblank 125 (List.mem_of_getLast? hlast)
    exact absurd hbracket (by decide)

/-- **Going on.**  Blanks make no difference, and anything else is noticed. -/
theorem ofArtifact_append (d : StoredDocument) (layout : Layout) (tail : Bytes) :
    ofArtifact (d.toArtifact layout ++ tail) =
      if tail.all Token.isBlank then ofArtifact (d.toArtifact layout)
      else .error (.parse (.json .malformed)) := by
  have hnarrow := DocumentText.narrow_ofStored d
  have hwritten := documentShape_faithful.written _ hnarrow
  have hback := documentShape_faithful.read_write _ hnarrow
  have hgoes := @Shape.readText_append _ documentShape _ _ (spells_render hwritten layout)
    (ne_number_of_read hback) tail
  have hends := documentShape_faithful.readText_writeText layout hnarrow
  rw [hback] at hgoes
  unfold ofArtifact toArtifact
  rw [hends]
  unfold Shape.writeText
  rw [hgoes]
  cases tail.all Token.isBlank <;> rfl

/-- **Whole artifacts only.**  No artifact that was cut short is read, wherever the cut is.
Behind an artifact that is read there may be blanks, which are space, tab, line feed and
carriage return, and nothing else. -/
theorem ofArtifact_toArtifact_whole (d : StoredDocument) (layout : Layout) :
    (∀ part, part <+: d.toArtifact layout → part ≠ d.toArtifact layout →
      ∃ cause, ofArtifact part = .error (.parse cause)) ∧
    (ofArtifact (d.toArtifact layout) = .ok d → ∀ tail,
      ((∀ b ∈ tail, b ∈ [0x20, 0x09, 0x0a, 0x0d]) →
        ofArtifact (d.toArtifact layout ++ tail) = .ok d) ∧
      ((∃ b ∈ tail, b ∉ [0x20, 0x09, 0x0a, 0x0d]) →
        ∃ cause, ofArtifact (d.toArtifact layout ++ tail) = .error (.parse cause))) := by
  constructor
  · rintro part ⟨rest, hsplit⟩ hpart
    refine ofArtifact_eq_error_of_append hsplit.symm ?_
    rintro rfl
    rw [List.append_nil] at hsplit
    exact hpart hsplit
  · intro hread tail
    have hblank : tail.all Token.isBlank = true ↔ ∀ b ∈ tail, b ∈ [0x20, 0x09, 0x0a, 0x0d] := by
      simp [Token.isBlank, or_assoc]
    rw [ofArtifact_append]
    constructor
    · intro hblanks
      rw [if_pos (hblank.2 hblanks), hread]
    · rintro ⟨b, hb, hother⟩
      rw [if_neg fun hall => hother (hblank.1 hall b hb)]
      exact ⟨_, rfl⟩

/-- One key and one rule, whose label looks like the end of a document. -/
def bracedDocument : StoredDocument where
  version := formatVersion
  delivery := []
  contentKeys := [⟨⟨.replicate 16 1⟩, .plain ⟨.replicate 16 7⟩⟩]
  contentKeySignatures := []
  usageRules := [⟨⟨.replicate 16 1⟩, [.label "\"\x7d]\x7d]\x7d\x7d\\"]⟩]
  usageRuleSignatures := []
  documentSignature := none

/-- The document with braces in its texts is well-formed. -/
theorem wellFormed_bracedDocument : bracedDocument.WellFormed where
  version := rfl
  distinct := by simp [bracedDocument]
  delivered := by simp [bracedDocument, StoredValue.isEncrypted]
  addressed := by simp [Addressed, bracedDocument]

/-- The last bracket cannot be left out nor written twice; a line feed may follow it. -/
theorem ofArtifact_toArtifact_whole_bracedDocument :
    (∃ cause, ofArtifact (bracedDocument.toArtifact .compact).dropLast = .error (.parse cause)) ∧
    ofArtifact (bracedDocument.toArtifact .compact ++ [0x0a]) = .ok bracedDocument ∧
    ∃ cause, ofArtifact (bracedDocument.toArtifact .compact ++ [0x7d]) = .error (.parse cause) := by
  have hread := wellFormed_bracedDocument.ofArtifact_toArtifact .compact
  have hbracket : (bracedDocument.toArtifact .compact).getLast? = some 125 :=
    getLast?_writeText .compact (DocumentText.ofStored bracedDocument)
  have hshort : (bracedDocument.toArtifact .compact).dropLast
      ≠ bracedDocument.toArtifact .compact := by
    intro hsame
    have hlength := congrArg List.length hsame
    have hpositive := List.length_pos_of_mem (List.mem_of_getLast? hbracket)
    rw [List.length_dropLast] at hlength
    omega
  obtain ⟨hcut, hgoes⟩ := ofArtifact_toArtifact_whole bracedDocument .compact
  exact ⟨hcut _ (List.dropLast_prefix _) hshort, (hgoes hread [0x0a]).1 (by simp),
    (hgoes hread [0x7d]).2 (by simp)⟩

end StoredDocument

end KeyExchange
