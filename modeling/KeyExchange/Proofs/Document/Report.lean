import KeyExchange.Proofs.Document.Signed
import KeyExchange.Sample.Parties

/-!
# What loading reports of signatures

An artifact may carry any records, honest or not, in any number and order.  The
report says of each of them whether it holds: those who signed are listed once
each, in the order in which they are first met, and so are those who are named
by a signature that does not hold.  Nothing about a signature can make a load
fail.

* `SignatureRecord.Holds`: the signature of a record verifies under its own key;
* `SectionReport.Exact`, `Observation.Exact`: a report says what holds;
* `record_exact`: one more record, `foldl_record_exact`: so all records of a
  section;
* `load_eq_ok_iff`: the steps of a load;
* `load_report_exact`: the report of a loaded document.
-/

namespace KeyExchange

open Outcome

/-- The signature verifies under the key of the certificate beside it, as one on
this content. -/
def SignatureRecord.Holds (r : SignatureRecord) (content : Bytes) : Prop :=
  r.certificate.signingKey.verify (signedMessage content) r.signature = .ok ()

instance (r : SignatureRecord) (content : Bytes) : Decidable (r.Holds content) :=
  inferInstanceAs (Decidable (_ = _))

namespace SignatureRecord

/-- A record that holds is found valid. -/
theorem check_of_holds {r : SignatureRecord} {content : Bytes} (h : r.Holds content) :
    r.check content = .valid r.certificate := by
  rw [check, h]
  rfl

/-- Any other record is found invalid. -/
theorem check_of_not_holds {r : SignatureRecord} {content : Bytes} (h : ¬r.Holds content) :
    r.check content = .invalid r.certificate := by
  unfold Holds at h
  unfold check
  rcases hverified : r.certificate.signingKey.verify (signedMessage content) r.signature with
    fault | ⟨⟨⟩⟩
  · rfl
  · exact absurd hverified h

/-- **An honest record holds.** -/
theorem holds_create (content : Bytes) (signer : Credential) :
    (create content signer).Holds content :=
  signer.verify_sign (signedMessage content)

/-- A signature whose number is not reduced holds for nothing. -/
theorem not_holds_of_order_le {r : SignatureRecord} {content : Bytes}
    (h : Edwards.order ≤ littleEndian (r.signature.octets.toList.drop 32)) : ¬r.Holds content := by
  unfold Holds VerifyingKey.verify EdDsa.verify
  rcases Edwards.decompress? r.certificate.signingKey.octets with _ | point
  · exact nofun
  · rw [Option.map_some, EdDsa.judge, if_pos h]
    exact nofun

/-- The signers named by some records, each where it is first met. -/
def signers (records : List SignatureRecord) : List Certificate :=
  (records.map certificate).eraseDups

end SignatureRecord

/-- The report lists the signers whose records hold, those whose records do not,
and is empty only without any record. -/
structure SectionReport.Exact (report : SectionReport) (content : Bytes)
    (records : List SignatureRecord) : Prop where
  valid : report.valid = SignatureRecord.signers (records.filter (·.Holds content))
  invalid : report.invalid = SignatureRecord.signers (records.filter (¬·.Holds content))
  unsigned : report.isUnsigned = true ↔ records = []

/-- The observation says whether there is a record and whether it holds. -/
def Observation.Exact (o : Observation) (content : Bytes) (record : Option SignatureRecord) :
    Prop :=
  (record = none → o = .unsigned) ∧
  ∀ r, record = some r →
    (r.Holds content → o = .valid r.certificate) ∧
    (¬r.Holds content → o = .invalid r.certificate)

/-! ## Sections -/

/-- A signer is listed behind the others, unless listed already. -/
theorem appendNew_eraseDups (certificate : Certificate) (certificates : List Certificate) :
    appendNew certificate certificates.eraseDups = (certificates ++ [certificate]).eraseDups := by
  rw [List.eraseDups_append]
  by_cases hlisted : certificate ∈ certificates
  · rw [appendNew, if_pos (List.mem_eraseDups.2 hlisted)]
    simp [List.removeAll, hlisted]
  · rw [appendNew, if_neg (mt List.mem_eraseDups.1 hlisted)]
    simp [List.removeAll, hlisted, List.eraseDups_cons]

namespace SignatureRecord

/-- Records name signers exactly when there are any. -/
theorem signers_eq_nil_iff {records : List SignatureRecord} :
    signers records = [] ↔ records = [] := by
  cases records with
  | nil => simp [signers]
  | cons r records => simp [signers, List.eraseDups_cons]

/-- A record that passes a test adds its signer. -/
theorem signers_snoc_of_pos {p : SignatureRecord → Bool} {r : SignatureRecord} (hr : p r = true)
    (records : List SignatureRecord) :
    signers ((records ++ [r]).filter p) = appendNew r.certificate (signers (records.filter p)) := by
  rw [List.filter_append, List.filter_cons_of_pos hr, List.filter_nil, signers, signers,
    appendNew_eraseDups, List.map_append, List.map_singleton]

/-- A record that does not adds nobody. -/
theorem signers_snoc_of_neg {p : SignatureRecord → Bool} {r : SignatureRecord} (hr : ¬p r = true)
    (records : List SignatureRecord) :
    signers ((records ++ [r]).filter p) = signers (records.filter p) := by
  rw [List.filter_append, List.filter_cons_of_neg hr, List.filter_nil, List.append_nil]

end SignatureRecord

namespace SectionReport

/-- Whether there is any record can be told from the two lists. -/
theorem exact_of_lists {report : SectionReport} {content : Bytes} {records : List SignatureRecord}
    (hvalid : report.valid = SignatureRecord.signers (records.filter (·.Holds content)))
    (hinvalid : report.invalid = SignatureRecord.signers (records.filter (¬·.Holds content))) :
    report.Exact content records where
  valid := hvalid
  invalid := hinvalid
  unsigned := by
    rw [isUnsigned, Bool.and_eq_true, List.isEmpty_iff, List.isEmpty_iff, hvalid, hinvalid,
      SignatureRecord.signers_eq_nil_iff, SignatureRecord.signers_eq_nil_iff,
      List.filter_eq_nil_iff, List.filter_eq_nil_iff]
    constructor
    · intro hparts
      obtain ⟨hnone, hall⟩ := hparts
      refine List.eq_nil_iff_forall_not_mem.2 fun r hr => hall r hr ?_
      exact decide_eq_true fun hholds => hnone r hr (decide_eq_true hholds)
    · intro hsame
      subst hsame
      exact ⟨fun _ hr => absurd hr List.not_mem_nil, fun _ hr => absurd hr List.not_mem_nil⟩

/-- **One more record.**  An exact report stays exact. -/
theorem Exact.record {report : SectionReport} {content : Bytes} {records : List SignatureRecord}
    (h : report.Exact content records) (r : SignatureRecord) :
    (report.record (r.check content)).Exact content (records ++ [r]) := by
  have hvalid := h.valid
  have hinvalid := h.invalid
  by_cases hr : r.Holds content
  · have hyes : decide (r.Holds content) = true := decide_eq_true hr
    have hno : ¬decide (¬r.Holds content) = true := by simp [hr]
    rw [SignatureRecord.check_of_holds hr]
    apply exact_of_lists
    · rw [SignatureRecord.signers_snoc_of_pos (p := fun r => decide (r.Holds content)) hyes,
        ← hvalid]
      rfl
    · rw [SignatureRecord.signers_snoc_of_neg (p := fun r => decide (¬r.Holds content)) hno,
        ← hinvalid]
      rfl
  · have hno : ¬decide (r.Holds content) = true := by simp [hr]
    have hyes : decide (¬r.Holds content) = true := decide_eq_true hr
    rw [SignatureRecord.check_of_not_holds hr]
    apply exact_of_lists
    · rw [SignatureRecord.signers_snoc_of_neg (p := fun r => decide (r.Holds content)) hno,
        ← hvalid]
      rfl
    · rw [SignatureRecord.signers_snoc_of_pos (p := fun r => decide (¬r.Holds content)) hyes,
        ← hinvalid]
      rfl

/-- **All records of a section**, one after the other. -/
theorem foldl_record_exact (content : Bytes) (records : List SignatureRecord) :
    (records.foldl (fun report r => report.record (r.check content)) empty).Exact content
      records := by
  induction records using List.reverseRecOn with
  | nil =>
      rw [List.foldl_nil]
      apply exact_of_lists
      · rw [List.filter_nil, SignatureRecord.signers_eq_nil_iff.2 rfl]
        rfl
      · rw [List.filter_nil, SignatureRecord.signers_eq_nil_iff.2 rfl]
        rfl
  | append_singleton records r ih =>
      rw [List.foldl_append, List.foldl_cons, List.foldl_nil]
      exact ih.record r

/-- Somebody is named by a signature that does not hold exactly when there is such
a record. -/
theorem Exact.invalid_ne_nil_iff {report : SectionReport} {content : Bytes}
    {records : List SignatureRecord} (h : report.Exact content records) :
    report.invalid ≠ [] ↔ ∃ r ∈ records, ¬r.Holds content := by
  rw [h.invalid, Ne, SignatureRecord.signers_eq_nil_iff, List.filter_eq_nil_iff]
  simp

end SectionReport

namespace Observation

/-- The signature on a whole document. -/
theorem ofOutcome_exact (r : SignatureRecord) (content : Bytes) :
    (ofOutcome (r.check content)).Exact content (some r) := by
  refine ⟨nofun, ?_⟩
  intro r' hr
  cases hr
  constructor
  · intro hholds
    rw [SignatureRecord.check_of_holds hholds]
    rfl
  · intro hnot
    rw [SignatureRecord.check_of_not_holds hnot]
    rfl

/-- The observation is of an invalid signature exactly when there is one. -/
theorem Exact.invalid_iff {o : Observation} {content : Bytes} {record : Option SignatureRecord}
    (h : o.Exact content record) :
    (∃ claimed, o = .invalid claimed) ↔ ∃ r, record = some r ∧ ¬r.Holds content := by
  obtain ⟨hnone, hsome⟩ := h
  cases record with
  | none => simp [hnone rfl]
  | some r =>
      obtain ⟨hvalid, hinvalid⟩ := hsome r rfl
      by_cases hr : r.Holds content
      · simp [hvalid hr, hr]
      · simp [hinvalid hr, hr]

end Observation

/-! ## Documents -/

/-- The report says of every record of the document whether it holds. -/
structure SignatureReport.Exact (report : SignatureReport) (d : StoredDocument)
    (keys rules whole : Bytes) : Prop where
  contentKeys : report.contentKeys.Exact keys d.contentKeySignatures
  usageRules : report.usageRules.Exact rules d.usageRuleSignatures
  document : report.document.Exact whole d.documentSignature

/-- Some record of the document does not hold. -/
def StoredDocument.HasFailing (d : StoredDocument) (keys rules whole : Bytes) : Prop :=
  (∃ r ∈ d.contentKeySignatures, ¬r.Holds keys) ∨
  (∃ r ∈ d.usageRuleSignatures, ¬r.Holds rules) ∨
  ∃ r, d.documentSignature = some r ∧ ¬r.Holds whole

/-- A report has something invalid when a section lists a signer as such, or the document has a
signature of the kind. -/
theorem SignatureReport.hasInvalid_iff {report : SignatureReport} :
    report.hasInvalid = true ↔ report.contentKeys.invalid ≠ [] ∨ report.usageRules.invalid ≠ [] ∨
      ∃ claimed, report.document = .invalid claimed := by
  obtain ⟨document, contentKeys, usageRules⟩ := report
  cases document <;> simp [hasInvalid]

/-- Something invalid is reported exactly when some record does not hold. -/
theorem SignatureReport.Exact.hasInvalid_iff {report : SignatureReport} {d : StoredDocument}
    {keys rules whole : Bytes} (h : report.Exact d keys rules whole) :
    report.hasInvalid = true ↔ d.HasFailing keys rules whole := by
  rw [SignatureReport.hasInvalid_iff, h.contentKeys.invalid_ne_nil_iff,
    h.usageRules.invalid_ne_nil_iff, h.document.invalid_iff]
  rfl

namespace StoredDocument

/-- A section is reported as its records are. -/
theorem checkSection_exact {d : StoredDocument} {scope : Scope} {content : Bytes}
    (hcontent : d.scopeBytes scope = .ok content) (records : List SignatureRecord) :
    ∃ report, d.checkSection scope records = .ok report ∧ report.Exact content records := by
  have hexact := SectionReport.foldl_record_exact content records
  refine ⟨_, ?_, hexact⟩
  unfold checkSection
  by_cases hempty : records.isEmpty
  · rw [if_pos hempty, List.isEmpty_iff.1 hempty]
    rfl
  · rw [if_neg hempty, hcontent]
    rfl

/-- The whole document is reported as its record is. -/
theorem checkDocument_exact {d : StoredDocument} {content : Bytes}
    (hcontent : d.scopeBytes .wholeDocument = .ok content) :
    ∃ o, d.checkDocument = .ok o ∧ o.Exact content d.documentSignature := by
  unfold checkDocument
  cases d.documentSignature with
  | none => exact ⟨.unsigned, rfl, fun _ => rfl, nofun⟩
  | some r => exact ⟨_, by rw [hcontent]; rfl, Observation.ofOutcome_exact r content⟩

/-- Other signatures do not make a document ill-formed. -/
theorem WellFormed.resigned {d : StoredDocument} (h : d.WellFormed)
    (keys rules : List SignatureRecord) (r : Option SignatureRecord) :
    (d.resigned keys rules r).WellFormed where
  version := h.version
  distinct := h.distinct
  delivered := h.delivered
  addressed := h.addressed

/-- The report is put together from those on the sections and that on the document. -/
theorem checkSignatures_eq_ok_iff {d : StoredDocument} {report : SignatureReport} :
    d.checkSignatures = .ok report ↔
      d.checkSection .contentKeys d.contentKeySignatures = .ok report.contentKeys ∧
      d.checkSection .usageRules d.usageRuleSignatures = .ok report.usageRules ∧
      d.checkDocument = .ok report.document := by
  obtain ⟨document, contentKeys, usageRules⟩ := report
  unfold checkSignatures
  simp only [bind_eq_ok_iff]
  constructor
  · rintro ⟨contentKeys, hkeys, usageRules, hrules, document, hdocument, h⟩
    cases h
    exact ⟨hkeys, hrules, hdocument⟩
  · rintro ⟨hkeys, hrules, hdocument⟩
    exact ⟨contentKeys, hkeys, usageRules, hrules, document, hdocument, rfl⟩

/-- **Checking never fails**, whatever records there are, and its report is exact. -/
theorem exists_report (d : StoredDocument) :
    ∃ report keys rules whole, d.checkSignatures = .ok report ∧
      d.scopeBytes .contentKeys = .ok keys ∧ d.scopeBytes .usageRules = .ok rules ∧
      d.scopeBytes .wholeDocument = .ok whole ∧ report.Exact d keys rules whole := by
  obtain ⟨keys, hkeys⟩ := d.exists_scopeBytes .contentKeys
  obtain ⟨rules, hrules⟩ := d.exists_scopeBytes .usageRules
  obtain ⟨whole, hwhole⟩ := d.exists_scopeBytes .wholeDocument
  obtain ⟨contentKeys, hcontentKeys, hexactKeys⟩ := checkSection_exact hkeys d.contentKeySignatures
  obtain ⟨usageRules, husageRules, hexactRules⟩ := checkSection_exact hrules d.usageRuleSignatures
  obtain ⟨document, hdocument, hexactDocument⟩ := checkDocument_exact hwhole
  exact ⟨⟨document, contentKeys, usageRules⟩, keys, rules, whole,
    checkSignatures_eq_ok_iff.2 ⟨hcontentKeys, husageRules, hdocument⟩, hkeys, hrules, hwhole,
    hexactKeys, hexactRules, hexactDocument⟩

end StoredDocument

/-- Without a document key every key is revealed, as far as it is in the clear. -/
theorem exists_mapM_reveal_none (ks : List StoredKey) :
    ∃ revealed, ks.mapM (StoredKey.reveal none) = .ok revealed := by
  apply exists_mapM_eq_ok
  intro k _
  obtain ⟨id, value⟩ := k
  cases value with
  | plain value => exact ⟨_, rfl⟩
  | encrypted v => exact ⟨_, rfl⟩

namespace Document

/-- **The steps of a load.**  The artifact is not too long and is read, its
signatures are checked, the document key is recovered, and every key is revealed
as far as it can be. -/
theorem load_eq_ok_iff {settings : Settings} {credentials : List Credential} {artifact : Bytes}
    {l : Document} :
    load settings credentials artifact = .ok l ↔
      artifact.length ≤ settings.maxArtifactLength ∧
      ∃ d report documentKey contentKeys, StoredDocument.ofArtifact artifact = .ok d ∧
        d.checkSignatures = .ok report ∧ d.recoverKey credentials = .ok documentKey ∧
        d.contentKeys.mapM (StoredKey.reveal documentKey) = .ok contentKeys ∧
        l = { contentKeys, recipients := d.delivery.map Delivery.recipient,
              usageRules := d.usageRules, stage := .loaded report } := by
  unfold load
  by_cases hlong : settings.maxArtifactLength < artifact.length
  · rw [if_pos hlong]
    simp [hlong]
  · rw [if_neg hlong]
    simp only [ofStored, bind_eq_ok_iff, Nat.not_lt.1 hlong, true_and]
    constructor
    · intro hparts
      obtain ⟨d, hd, report, hreport, key, hkey, keys, hkeys, h⟩ := hparts
      cases h
      exact ⟨d, report, key, keys, hd, hreport, hkey, hkeys, rfl⟩
    · intro hparts
      obtain ⟨d, report, key, keys, hd, hreport, hkey, hkeys, rfl⟩ := hparts
      exact ⟨d, hd, report, hreport, key, hkey, keys, hkeys, rfl⟩

/-- Without a document key every readable artifact that is not too long loads. -/
theorem exists_load_of_recoverKey {settings : Settings} {credentials : List Credential}
    {artifact : Bytes} {d : StoredDocument} (hfits : artifact.length ≤ settings.maxArtifactLength)
    (hread : StoredDocument.ofArtifact artifact = .ok d)
    (hkey : d.recoverKey credentials = .ok none) :
    ∃ l, load settings credentials artifact = .ok l := by
  obtain ⟨report, -, -, -, hreport, -⟩ := d.exists_report
  obtain ⟨ks, hvalues⟩ := exists_mapM_reveal_none d.contentKeys
  exact ⟨_, load_eq_ok_iff.2 ⟨hfits, d, report, none, ks, hread, hreport, hkey, hvalues, rfl⟩⟩

/-- **The report is exact.**  Whatever records an artifact carries, its load
reports of each section who signed it and who is named by a signature that does
not hold, each once and in the order of the records, and of the document whether
its signature holds.  Something invalid is reported exactly when some record does
not hold.  No signatures in place of these would make the load fail. -/
theorem load_report_exact {settings : Settings} {credentials : List Credential} {artifact : Bytes}
    {l : Document} (h : load settings credentials artifact = .ok l) :
    ∃ d report keys rules whole, StoredDocument.ofArtifact artifact = .ok d ∧
      l.report? = some report ∧
      d.scopeBytes .contentKeys = .ok keys ∧ d.scopeBytes .usageRules = .ok rules ∧
      d.scopeBytes .wholeDocument = .ok whole ∧
      report.contentKeys.Exact keys d.contentKeySignatures ∧
      report.usageRules.Exact rules d.usageRuleSignatures ∧
      report.document.Exact whole d.documentSignature ∧
      (report.hasInvalid = true ↔ d.HasFailing keys rules whole) ∧
      ∀ other keyRecords ruleRecords record, other.length ≤ settings.maxArtifactLength →
        StoredDocument.ofArtifact other = .ok (d.resigned keyRecords ruleRecords record) →
        ∃ l', load settings credentials other = .ok l' ∧ l'.contentKeys = l.contentKeys := by
  obtain ⟨-, d, report, documentKey, contentKeys, hread, hreport, hkey, hvalues, rfl⟩ :=
    load_eq_ok_iff.1 h
  obtain ⟨_, keys, rules, whole, hreport', hkeys, hrules, hwhole, hexact⟩ := d.exists_report
  obtain rfl := Except.ok.inj (hreport.symm.trans hreport')
  refine ⟨d, report, keys, rules, whole, hread, rfl, hkeys, hrules, hwhole, hexact.contentKeys,
    hexact.usageRules, hexact.document, hexact.hasInvalid_iff, ?_⟩
  intro other keyRecords ruleRecords record hfits hother
  obtain ⟨report', -, -, -, hchecked, -⟩ :=
    (d.resigned keyRecords ruleRecords record).exists_report
  exact ⟨_, load_eq_ok_iff.2 ⟨hfits, _, report', documentKey, contentKeys, hother, hchecked, hkey,
    hvalues, rfl⟩, rfl⟩

/-- A record with a signature that holds for nothing. -/
def voidRecord (certificate : Certificate) : SignatureRecord :=
  ⟨certificate, ⟨.replicate 64 0xff⟩⟩

/-- A void record holds for nothing. -/
theorem not_holds_voidRecord (certificate : Certificate) (content : Bytes) :
    ¬(voidRecord certificate).Holds content := by
  have hlarge : Edwards.order ≤ littleEndian ((Octets.replicate 64 0xff).toList.drop 32) := by
    decide +kernel
  exact SignatureRecord.not_holds_of_order_le hlarge

/-- Two records of one signer on some content, of which one holds. -/
def doubtfulRecords (content : Bytes) (signer : Credential) : List SignatureRecord :=
  [voidRecord signer.certificate, .create content signer]

/-- The signer is listed with those whose records hold and with the others. -/
theorem eq_of_doubtfulRecords {report : SectionReport} {content : Bytes} {signer : Credential}
    (h : report.Exact content (doubtfulRecords content signer)) :
    report = ⟨[signer.certificate], [signer.certificate]⟩ := by
  have hhonest := SignatureRecord.holds_create content signer
  have hvoid := not_holds_voidRecord signer.certificate content
  obtain ⟨valid, invalid⟩ := report
  have hvalid : valid = _ := h.valid
  have hinvalid : invalid = _ := h.invalid
  simp only [doubtfulRecords, List.filter_cons, List.filter_nil, hhonest, hvoid, not_true_eq_false,
    not_false_eq_true, decide_true, decide_false, if_true, Bool.false_eq_true, if_false]
    at hvalid hinvalid
  rw [hvalid, hinvalid]
  rfl

/-- Whoever is named by a record that does not hold and by one that does is listed
twice. -/
theorem load_report_exact_doubtfulRecords :
    ∃ settings artifact keys d l report,
      StoredDocument.ofArtifact artifact = .ok d ∧
      d.contentKeySignatures = doubtfulRecords keys Sample.producer ∧
      load settings [] artifact = .ok l ∧ l.report? = some report ∧
      report.contentKeys = ⟨[Sample.producer.certificate], [Sample.producer.certificate]⟩ := by
  have hbare := StoredDocument.wellFormed_bareDocument none
  obtain ⟨keys, hkeys⟩ :=
    (StoredDocument.bareDocument formatVersion [] none).exists_scopeBytes .contentKeys
  have hformed := hbare.resigned (doubtfulRecords keys Sample.producer) [] none
  have hread := hformed.ofArtifact_toArtifact .compact
  obtain ⟨l, hload⟩ : ∃ l, load ⟨.compact, _⟩ [] _ = .ok l :=
    exists_load_of_recoverKey le_rfl hread rfl
  obtain ⟨d, report, keys', rules, whole, hread', hreport, hkeys', -, -, hexact, -⟩ :=
    load_report_exact hload
  obtain rfl := Except.ok.inj (hread.symm.trans hread')
  obtain rfl : keys = keys' := Except.ok.inj (hkeys.symm.trans hkeys')
  exact ⟨_, _, keys, _, l, report, hread, rfl, hload, hreport, eq_of_doubtfulRecords hexact⟩

end Document

end KeyExchange
