import Mathlib.Data.List.Nodup
import KeyExchange.Document.Load
import KeyExchange.Document.Save
import KeyExchange.Proofs.Curve.EdDsa
import KeyExchange.Proofs.ScopeCoverage

/-!
# Signatures from saving to loading

The sections are signed before the document, and a scope does not cover the
signatures that are made later, so each signature is made over the very octets
that are checked when the document is loaded.  A section is signed by each of
its signers once, in the order in which their certificates are first named.

* `certificates_ofSection`: the signers of a section;
* `SignedBy`: the records of some signers for a scope;
* `signed_of_signAll`: what saving signs, `exists_signAll`: and that it always can;
* `Signed.checkSignatures`: what loading reports of it.
-/

namespace KeyExchange

open Outcome

/-! ## Signers of a section -/

namespace Signers

/-- The signers that are kept beside those already seen. -/
theorem certificates_go (seen : List Certificate) (signers : List Credential) :
    (ofSection.go seen signers).map Credential.certificate
      = ((signers.map Credential.certificate).filter (· ∉ seen)).eraseDups := by
  induction signers generalizing seen with
  | nil => rfl
  | cons signer rest ih =>
      by_cases hmem : signer.certificate ∈ seen
      · rw [ofSection.go, if_pos hmem, ih, List.map_cons, List.filter_cons]
        simp [hmem]
      · have hothers : (rest.map Credential.certificate).filter (· ∉ signer.certificate :: seen)
            = ((rest.map Credential.certificate).filter (· ∉ seen)).filter
                (fun c => !c == signer.certificate) := by
          rw [List.filter_filter]
          apply List.filter_congr
          intro c _
          by_cases hsame : c = signer.certificate
          · simp [hsame]
          · simp [hsame]
        have hkept : decide (signer.certificate ∉ seen) = true := decide_eq_true hmem
        rw [ofSection.go, if_neg hmem, List.map_cons, ih, List.map_cons, List.filter_cons,
          if_pos hkept, List.eraseDups_cons, hothers]

/-- **The signers of a section**, each named where it is first met. -/
theorem certificates_ofSection (s : Signers) (own : List Credential) :
    (s.ofSection own).map Credential.certificate
      = ((s.document.toList ++ own).map Credential.certificate).eraseDups := by
  have hall := certificates_go [] (s.document.toList ++ own)
  simpa [ofSection] using hall

/-- No certificate that is kept was seen before, and none is kept twice. -/
theorem nodup_go (seen : List Certificate) (signers : List Credential) :
    ((ofSection.go seen signers).map Credential.certificate).Nodup ∧
      ∀ c ∈ (ofSection.go seen signers).map Credential.certificate, c ∉ seen := by
  induction signers generalizing seen with
  | nil => exact ⟨List.nodup_nil, fun _ hc => absurd hc List.not_mem_nil⟩
  | cons signer rest ih =>
      by_cases hmem : signer.certificate ∈ seen
      · rw [ofSection.go, if_pos hmem]
        exact ih seen
      · obtain ⟨hnodup, hnew⟩ := ih (signer.certificate :: seen)
        rw [ofSection.go, if_neg hmem, List.map_cons]
        constructor
        · exact List.nodup_cons.2 ⟨fun hc => hnew _ hc List.mem_cons_self, hnodup⟩
        · intro c hc
          rcases List.mem_cons.1 hc with rfl | hc
          · exact hmem
          · exact fun hseen => hnew c hc (List.mem_cons_of_mem _ hseen)

/-- No signer signs a section twice. -/
theorem nodup_ofSection (s : Signers) (own : List Credential) :
    ((s.ofSection own).map Credential.certificate).Nodup :=
  (nodup_go [] _).1

end Signers

/-! ## Honest records -/

/-- A credential is believed under its own certificate. -/
theorem Credential.verify_sign (c : Credential) (message : Bytes) :
    c.certificate.signingKey.verify message (c.sign message) = .ok () := by
  have hvalid := EdDsa.verify_sign c.seed.octets message
  rw [c.signingKey_eq]
  unfold VerifyingKey.verify Credential.sign SigningSeed.sign SigningSeed.publicKey
  rw [hvalid]
  rfl

/-- **An honest record holds.** -/
theorem SignatureRecord.check_create (content : Bytes) (signer : Credential) :
    (create content signer).check content = .valid signer.certificate := by
  have hverified := signer.verify_sign (signedMessage content)
  unfold check create
  rw [hverified]
  rfl

/-- The report grows by each new signer of an honest record. -/
theorem SectionReport.foldl_create (content : Bytes) (signers : List Credential)
    (report : SectionReport)
    (h : (report.valid ++ signers.map Credential.certificate).Nodup) :
    (signers.map (SignatureRecord.create content)).foldl
        (fun report r => report.record (r.check content)) report
      = { report with valid := report.valid ++ signers.map Credential.certificate } := by
  induction signers generalizing report with
  | nil => simp
  | cons signer rest ih =>
      have hnew : signer.certificate ∉ report.valid := by
        rw [List.map_cons] at h
        exact fun hmem => (List.nodup_append.1 h).2.2 _ hmem _ List.mem_cons_self rfl
      have hgrown : report.record (.valid signer.certificate)
          = { report with valid := report.valid ++ [signer.certificate] } := by
        rw [record, appendNew, if_neg hnew]
      have hrest : (report.valid ++ [signer.certificate]
          ++ rest.map Credential.certificate).Nodup := by
        rw [List.append_assoc]
        exact h
      rw [List.map_cons, List.foldl_cons, SignatureRecord.check_create, hgrown, ih _ hrest,
        List.map_cons, List.append_assoc]
      rfl

/-! ## What saving signs -/

/-- The document with other signatures. -/
def StoredDocument.resigned (d : StoredDocument) (keys rules : List SignatureRecord)
    (document : Option SignatureRecord) : StoredDocument :=
  { d with contentKeySignatures := keys, usageRuleSignatures := rules,
           documentSignature := document }

/-- The records are those of some signers for a scope of the document. -/
def StoredDocument.SignedBy (d : StoredDocument) (scope : Scope)
    (records : List SignatureRecord) (signers : List Credential) : Prop :=
  ∃ content, d.scopeBytes scope = .ok content ∧
    records = signers.map (SignatureRecord.create content)

/-- The document carries the signatures of its signers.  Rules that do not exist
are not signed. -/
structure StoredDocument.Signed (d : StoredDocument) (signers : Signers) : Prop where
  contentKeys : d.SignedBy .contentKeys d.contentKeySignatures
    (signers.ofSection signers.contentKeys)
  usageRules : d.SignedBy .usageRules d.usageRuleSignatures
    (if d.usageRules.isEmpty then [] else signers.ofSection signers.usageRules)
  document : d.SignedBy .wholeDocument d.documentSignature.toList signers.document.toList

namespace Document

/-- The records of a scope are those of its signers. -/
theorem signedBy_of_signScope {d : StoredDocument} {scope : Scope} {signers : List Credential}
    {records : List SignatureRecord} (h : signScope d scope signers = .ok records) :
    d.SignedBy scope records signers := by
  unfold signScope at h
  obtain ⟨content, hcontent, h⟩ := bind_eq_ok_iff.1 h
  cases h
  exact ⟨content, mapError_eq_ok_iff.1 hcontent, rfl⟩

/-- The records of the rules are those of their signers, or none without rules. -/
theorem signedBy_of_signRules {d : StoredDocument} {signers : Signers}
    {records : List SignatureRecord} (h : signRules signers d = .ok records) :
    d.SignedBy .usageRules records
      (if d.usageRules.isEmpty then [] else signers.ofSection signers.usageRules) := by
  unfold signRules at h
  by_cases hempty : d.usageRules.isEmpty
  · rw [if_pos hempty] at h ⊢
    cases h
    obtain ⟨content, hcontent⟩ := d.exists_scopeBytes .usageRules
    exact ⟨content, hcontent, rfl⟩
  · rw [if_neg hempty] at h ⊢
    exact signedBy_of_signScope h

/-- The record of the whole document is that of its signer, if there is one. -/
theorem signedBy_of_signDocument {d : StoredDocument} {signers : Signers}
    {record : Option SignatureRecord} (h : signDocument signers d = .ok record) :
    d.SignedBy .wholeDocument record.toList signers.document.toList := by
  unfold signDocument at h
  obtain ⟨content, hcontent⟩ := d.exists_scopeBytes .wholeDocument
  rcases hsigner : signers.document with _ | signer
  · rw [hsigner] at h
    cases h
    exact ⟨content, hcontent, rfl⟩
  · rw [hsigner, hcontent] at h
    cases h
    exact ⟨content, hcontent, rfl⟩

/-- **What saving signs.**  Only signatures are added, and none of them changes what
an earlier one covers. -/
theorem signed_of_signAll {signers : Signers} {d stored : StoredDocument}
    (h : signAll signers d = .ok stored) :
    stored.Signed signers ∧ ∃ keys rules document, stored = d.resigned keys rules document := by
  unfold signAll at h
  obtain ⟨rules, hrules, h⟩ := bind_eq_ok_iff.1 h
  obtain ⟨keys, hkeys, h⟩ := bind_eq_ok_iff.1 h
  obtain ⟨document, hdocument, h⟩ := bind_eq_ok_iff.1 h
  cases h
  -- A scope does not mention the signatures added after it was signed.
  have hsigned : (d.resigned keys rules document).Signed signers :=
    ⟨signedBy_of_signScope hkeys, signedBy_of_signRules hrules,
      signedBy_of_signDocument hdocument⟩
  exact ⟨hsigned, keys, rules, document, rfl⟩

/-- Any scope can be signed by anyone. -/
theorem exists_signScope (stored : StoredDocument) (scope : Scope) (signers : List Credential) :
    ∃ records, signScope stored scope signers = .ok records := by
  obtain ⟨content, hcontent⟩ := stored.exists_scopeBytes scope
  exact ⟨signers.map (SignatureRecord.create content), by rw [signScope, hcontent]; rfl⟩

/-- So can the rules. -/
theorem exists_signRules (signers : Signers) (stored : StoredDocument) :
    ∃ records, signRules signers stored = .ok records := by
  unfold signRules
  by_cases hempty : stored.usageRules.isEmpty = true
  · exact ⟨[], if_pos hempty⟩
  · rw [if_neg hempty]
    exact exists_signScope stored _ _

/-- So can the whole document. -/
theorem exists_signDocument (signers : Signers) (stored : StoredDocument) :
    ∃ record, signDocument signers stored = .ok record := by
  obtain ⟨content, hcontent⟩ := stored.exists_scopeBytes .wholeDocument
  unfold signDocument
  cases signers.document with
  | none => exact ⟨none, rfl⟩
  | some signer => exact ⟨some (.create content signer), by rw [hcontent]; rfl⟩

/-- **Signing never fails.** -/
theorem exists_signAll (signers : Signers) (stored : StoredDocument) :
    ∃ signed, signAll signers stored = .ok signed := by
  obtain ⟨rules, hrules⟩ := exists_signRules signers stored
  obtain ⟨keys, hkeys⟩ := exists_signScope { stored with usageRuleSignatures := rules }
    .contentKeys (signers.ofSection signers.contentKeys)
  obtain ⟨document, hdocument⟩ := exists_signDocument signers
    { stored with usageRuleSignatures := rules, contentKeySignatures := keys }
  exact ⟨_, bind_eq_ok_iff.2 ⟨rules, hrules, bind_eq_ok_iff.2 ⟨keys, hkeys,
    bind_eq_ok_iff.2 ⟨document, hdocument, rfl⟩⟩⟩⟩

end Document

/-! ## What loading reports -/

/-- The report on a document that was signed by all its signers. -/
def Signers.report (s : Signers) (rules : List UsageRule) : SignatureReport where
  document := (s.document.map fun c => Observation.valid c.certificate).getD .unsigned
  contentKeys :=
    { valid := ((s.document.toList ++ s.contentKeys).map Credential.certificate).eraseDups
      invalid := [] }
  usageRules :=
    { valid :=
        if rules.isEmpty then []
        else ((s.document.toList ++ s.usageRules).map Credential.certificate).eraseDups
      invalid := [] }

namespace StoredDocument

/-- A section is reported as it was signed. -/
theorem SignedBy.checkSection {d : StoredDocument} {scope : Scope}
    {records : List SignatureRecord} {signers : List Credential}
    (h : d.SignedBy scope records signers)
    (hnodup : (signers.map Credential.certificate).Nodup) :
    d.checkSection scope records = .ok ⟨signers.map Credential.certificate, []⟩ := by
  obtain ⟨content, hcontent, rfl⟩ := h
  have hreport := SectionReport.foldl_create content signers .empty hnodup
  unfold StoredDocument.checkSection
  by_cases hempty : (signers.map (SignatureRecord.create content)).isEmpty
  · have hnone : signers = [] := List.map_eq_nil_iff.1 (List.isEmpty_iff.1 hempty)
    rw [if_pos hempty, hnone]
    rfl
  · rw [if_neg hempty, hcontent, mapError_ok, ok_bind, hreport]
    rfl

/-- The whole document is reported as it was signed. -/
theorem Signed.checkDocument {d : StoredDocument} {signers : Signers} (h : d.Signed signers) :
    d.checkDocument = .ok (signers.report d.usageRules).document := by
  obtain ⟨content, hcontent, hrecord⟩ := h.document
  unfold StoredDocument.checkDocument Signers.report
  rcases hsigner : signers.document with _ | signer
  · rw [hsigner] at hrecord
    have hnone : d.documentSignature = none := Option.toList_eq_nil_iff.1 hrecord
    rw [hnone]
    rfl
  · rw [hsigner] at hrecord
    have hsome : d.documentSignature = some (.create content signer) := by
      rcases hd : d.documentSignature with _ | r
      · rw [hd] at hrecord
        cases hrecord
      · rw [hd] at hrecord
        exact congrArg some (List.cons.inj hrecord).1
    rw [hsome]
    dsimp only
    rw [hcontent, mapError_ok, ok_bind, SignatureRecord.check_create]
    rfl

/-- The signers of the usage rules, if there are rules. -/
theorem certificates_rules (signers : Signers) (rules : List UsageRule) :
    (if rules.isEmpty then [] else signers.ofSection signers.usageRules).map Credential.certificate
        = (signers.report rules).usageRules.valid ∧
      ((if rules.isEmpty then [] else signers.ofSection signers.usageRules).map
        Credential.certificate).Nodup := by
  by_cases hempty : rules.isEmpty
  · rw [Signers.report, if_pos hempty, if_pos hempty]
    exact ⟨rfl, List.nodup_nil⟩
  · rw [Signers.report, if_neg hempty, if_neg hempty]
    exact ⟨signers.certificates_ofSection _, signers.nodup_ofSection _⟩

/-- **What loading reports** of a document that was signed when it was saved: every
signer, and nothing that does not hold. -/
theorem Signed.checkSignatures {d : StoredDocument} {signers : Signers} (h : d.Signed signers) :
    d.checkSignatures = .ok (signers.report d.usageRules) := by
  obtain ⟨hvalid, hnodup⟩ := certificates_rules signers d.usageRules
  have hkeys := h.contentKeys.checkSection (signers.nodup_ofSection _)
  have hrules := h.usageRules.checkSection hnodup
  unfold StoredDocument.checkSignatures
  rw [hkeys, hrules, h.checkDocument, hvalid, Signers.certificates_ofSection]
  rfl

end StoredDocument

end KeyExchange
