import KeyExchange.Proofs.Document.Failure
import KeyExchange.Proofs.Document.Saving

/-!
# Entries and credentials of others

The key of a document is looked for twice: for the first credential that has an entry,
and among the entries for the first that is its own.  Entries for nobody at hand and
credentials without an entry are passed over in both, so they make no difference to what
is opened, whatever is in them and wherever they stand.

* `unwrapAny_congr`: the key depends on what each credential finds;
* `unwrapAny_addressed`, `unwrapAny_addressees`: entries and credentials that count;
* `StoredDocument.delivering`: a document with other entries;
* `Document.SameOpened`: two documents that tell the same of everything but the entries;
* `load_ignores_bystanders`: what makes no difference to a load.
-/

namespace KeyExchange

open Drawing Outcome

namespace WrappedKey

/-- The entry has the address of some of the credentials. -/
def isForAny (w : WrappedKey) (credentials : List Credential) : Bool :=
  credentials.any fun c => c.fingerprint = .ok w.recipient

/-- Some entry has the address of the credential. -/
def anyIsFor (entries : List WrappedKey) (c : Credential) : Bool :=
  entries.any fun w => c.fingerprint = .ok w.recipient

variable {entries entries' : List WrappedKey} {credentials : List Credential}

/-- **What is found decides.**  Where every credential finds the same entry, the same
key is found. -/
theorem unwrapAny_congr
    (h : ∀ c ∈ credentials, ∀ address, c.fingerprint = .ok address →
      entries.find? (fun e => e.isFor address) = entries'.find? (fun e => e.isFor address)) :
    unwrapAny entries credentials = unwrapAny entries' credentials := by
  induction credentials with
  | nil => rfl
  | cons c others ih =>
      obtain ⟨hfirst, hothers⟩ := List.forall_mem_cons.1 h
      obtain ⟨address, haddress⟩ := c.exists_fingerprint
      rw [unwrapAny, unwrapAny, haddress, mapError_ok, ok_bind, ok_bind, hfirst address haddress,
        ih hothers]

/-- Entries for others are passed over. -/
theorem unwrapAny_addressed (entries : List WrappedKey) (credentials : List Credential) :
    unwrapAny (entries.filter (·.isForAny credentials)) credentials
      = unwrapAny entries credentials := by
  apply unwrapAny_congr
  intro c hc address haddress
  have hown (w : WrappedKey) (hw : w.isFor address = true) : w.isForAny credentials = true :=
    List.any_eq_true.2 ⟨c, hc, decide_eq_true ((isFor_iff haddress).1 hw)⟩
  have hsame : (fun w : WrappedKey => decide (w.isForAny credentials ∧ w.isFor address))
      = fun w => w.isFor address := by
    funext w
    rw [Bool.eq_iff_iff, decide_eq_true_iff]
    exact and_iff_right_of_imp (hown w)
  rw [List.find?_filter, hsame]

/-- A credential has an entry exactly when one is found for it. -/
theorem anyIsFor_iff {c : Credential} {address : Fingerprint}
    (haddress : c.fingerprint = .ok address) :
    anyIsFor entries c = true ↔ (entries.find? fun e => e.isFor address).isSome = true := by
  rw [anyIsFor, List.any_eq_true, List.find?_isSome]
  constructor
  · intro ⟨w, hw, hfor⟩
    exact ⟨w, hw, (isFor_iff haddress).2 (of_decide_eq_true hfor)⟩
  · intro ⟨w, hw, hfor⟩
    exact ⟨w, hw, decide_eq_true ((isFor_iff haddress).1 hfor)⟩

/-- Credentials without an entry are passed over. -/
theorem unwrapAny_addressees (entries : List WrappedKey) (credentials : List Credential) :
    unwrapAny entries (credentials.filter (anyIsFor entries)) = unwrapAny entries credentials := by
  induction credentials with
  | nil => rfl
  | cons c others ih =>
      obtain ⟨address, haddress⟩ := c.exists_fingerprint
      have hcounts : anyIsFor entries c = true ↔ _ := anyIsFor_iff haddress
      rcases hfind : entries.find? (fun e => e.isFor address) with _ | w
      · rw [hfind] at hcounts
        have hnone : ¬anyIsFor entries c = true := fun h => nomatch hcounts.1 h
        rw [List.filter_cons_of_neg hnone, unwrapAny_of_find_none haddress hfind, ih]
      · rw [hfind] at hcounts
        have hsome : anyIsFor entries c = true := hcounts.2 rfl
        rw [List.filter_cons_of_pos hsome, unwrapAny_of_find haddress hfind,
          unwrapAny_of_find haddress hfind]

end WrappedKey

/-- The entries that have the address of some of the credentials, in their order. -/
def Delivery.addressed (entries : List Delivery) (credentials : List Credential) : List Delivery :=
  entries.filter fun e => e.wrappedKey.isForAny credentials

/-- An entry for someone else is not among those that are addressed. -/
theorem Delivery.addressed_cons_of_not {e : Delivery} {credentials : List Credential}
    (h : ¬e.wrappedKey.isForAny credentials = true) (entries : List Delivery) :
    addressed (e :: entries) credentials = addressed entries credentials :=
  List.filter_cons_of_neg (p := fun e : Delivery => e.wrappedKey.isForAny credentials) h

namespace StoredDocument

/-- The credentials that have an entry, in their order. -/
def addressees (d : StoredDocument) (credentials : List Credential) : List Credential :=
  credentials.filter (WrappedKey.anyIsFor (d.delivery.map Delivery.wrappedKey))

/-- The document with other entries. -/
def delivering (d : StoredDocument) (delivery : List Delivery) : StoredDocument :=
  { d with delivery }

variable {d : StoredDocument} {delivery : List Delivery}
  {credentials credentials' : List Credential}

/-- Other entries with the addresses of their recipients leave a document well-formed. -/
theorem WellFormed.delivering (h : d.WellFormed) (hsome : delivery ≠ [])
    (haddressed : ∀ e ∈ delivery, e.recipient.fingerprint = .ok e.wrappedKey.recipient) :
    (d.delivering delivery).WellFormed where
  version := h.version
  distinct := h.distinct
  delivered := fun _ => hsome
  addressed := haddressed

/-- **Entries of others** make no difference to the document key. -/
theorem recoverKey_delivering
    (h : Delivery.addressed d.delivery credentials = Delivery.addressed delivery credentials) :
    (d.delivering delivery).recoverKey credentials = d.recoverKey credentials := by
  have hkeys (entries : List Delivery) :
      WrappedKey.unwrapAny (entries.map Delivery.wrappedKey) credentials
        = WrappedKey.unwrapAny ((Delivery.addressed entries credentials).map Delivery.wrappedKey)
            credentials := by
    rw [← WrappedKey.unwrapAny_addressed, List.filter_map]
    rfl
  unfold recoverKey
  rw [hkeys d.delivery, h, ← hkeys delivery]
  rfl

/-- **Credentials of others** make no difference to it. -/
theorem recoverKey_of_addressees (h : d.addressees credentials = d.addressees credentials') :
    d.recoverKey credentials = d.recoverKey credentials' := by
  unfold recoverKey
  rw [← WrappedKey.unwrapAny_addressees _ credentials,
    ← WrappedKey.unwrapAny_addressees _ credentials']
  exact congrArg _ (congrArg _ h)

end StoredDocument

namespace Document

/-- The two tell the same but for the recipients and what is observed of the signature
on the whole document. -/
structure SameOpened (l l' : Document) : Prop where
  contentKeys : l.contentKeys = l'.contentKeys
  usageRules : l.usageRules = l'.usageRules
  contentKeysReport : l.report?.map SignatureReport.contentKeys
    = l'.report?.map SignatureReport.contentKeys
  usageRulesReport : l.report?.map SignatureReport.usageRules
    = l'.report?.map SignatureReport.usageRules

/-- **Opening with other entries.**  The reports on the sections do not look at the
entries, and from the document key on everything is the same. -/
theorem ofStored_delivering {d : StoredDocument} {delivery : List Delivery}
    {credentials : List Credential}
    (h : Delivery.addressed d.delivery credentials = Delivery.addressed delivery credentials) :
    Agree SameOpened (ofStored d credentials) (ofStored (d.delivering delivery) credentials) := by
  obtain ⟨report, -, -, -, hreport, -⟩ := d.exists_report
  obtain ⟨report', -, -, -, hreport', -⟩ := (d.delivering delivery).exists_report
  have hkey := StoredDocument.recoverKey_delivering h
  unfold ofStored
  rw [hreport, hreport', ok_bind, ok_bind, hkey]
  rcases d.recoverKey credentials with fault | documentKey
  · exact .error fault
  · rw [ok_bind, ok_bind]
    have hsame : (d.delivering delivery).contentKeys = d.contentKeys := rfl
    rw [hsame]
    rcases d.contentKeys.mapM (StoredKey.reveal documentKey) with fault | contentKeys
    · exact .error fault
    · obtain ⟨hkeys, hrules, -⟩ := StoredDocument.checkSignatures_eq_ok_iff.1 hreport
      obtain ⟨hkeys', hrules', -⟩ := StoredDocument.checkSignatures_eq_ok_iff.1 hreport'
      have hsections : report.contentKeys = report'.contentKeys :=
        Except.ok.inj (hkeys.symm.trans hkeys')
      have hrulesSections : report.usageRules = report'.usageRules :=
        Except.ok.inj (hrules.symm.trans hrules')
      exact .ok ⟨rfl, rfl, congrArg some hsections, congrArg some hrulesSections⟩

/-- **What makes no difference to a load.**  Two artifacts that can be read as documents
which differ in their entries only, and in these only where they are for nobody at hand,
load alike: with the same fault, or with the same values, rules and reports on the
sections.  Other entries may be missing, repeated, damaged or elsewhere; as long as none
of them makes an artifact too long.  And of the credentials those without an entry may be
left out or put in anywhere, and the load is the same. -/
theorem load_ignores_bystanders (settings : Settings) (credentials : List Credential) :
    (∀ artifact artifact' d delivery,
      StoredDocument.ofArtifact artifact = .ok d →
      StoredDocument.ofArtifact artifact' = .ok (d.delivering delivery) →
      (settings.maxArtifactLength < artifact.length ↔
        settings.maxArtifactLength < artifact'.length) →
      Delivery.addressed d.delivery credentials = Delivery.addressed delivery credentials →
      Agree SameOpened (load settings credentials artifact)
        (load settings credentials artifact')) ∧
    ∀ artifact credentials',
      (∀ d, StoredDocument.ofArtifact artifact = .ok d →
        d.addressees credentials = d.addressees credentials') →
      load settings credentials artifact = load settings credentials' artifact := by
  constructor
  · intro artifact artifact' d delivery hread hread' hlength hsame
    rcases lt_or_ge settings.maxArtifactLength artifact.length with hlong | hfits
    · rw [load_of_length_lt hlong, load_of_length_lt (hlength.1 hlong)]
      exact .error _
    · have hfits' := Nat.not_lt.1 (mt hlength.2 (Nat.not_lt.2 hfits))
      rw [load_of_length_le hfits, load_of_length_le hfits', hread, hread', ok_bind, ok_bind]
      exact ofStored_delivering hsame
  · intro artifact credentials' hsame
    rcases lt_or_ge settings.maxArtifactLength artifact.length with hlong | hfits
    · rw [load_of_length_lt hlong, load_of_length_lt hlong]
    · rw [load_of_length_le hfits, load_of_length_le hfits]
      rcases hread : StoredDocument.ofArtifact artifact with fault | d
      · rfl
      · rw [ok_bind, ok_bind, ofStored, ofStored,
          StoredDocument.recoverKey_of_addressees (hsame d hread)]

/-- An entry that was read, for somebody else, and holds nothing. -/
theorem exists_foreign_delivery :
    ∃ e : Delivery, e.recipient.fingerprint = .ok e.wrappedKey.recipient ∧
      ¬e.wrappedKey.isForAny [Sample.recipient1] = true :=
  ⟨StoredDocument.blankDelivery.readdressed,
    StoredDocument.blankDelivery.fingerprint_readdressed, by decide +kernel⟩

/-- An outsider has no entry in the document for one recipient. -/
theorem SavedAs.addressees_addressedEdits {stored : StoredDocument} {signers : Signers}
    (h : (empty.editEach addressedEdits).SavedAs signers stored) :
    stored.addressees [Sample.outsider, Sample.recipient1]
      = stored.addressees [Sample.recipient1] := by
  have hdifferent : Sample.outsider.fingerprint
      ≠ Sample.recipient1.certificate.fingerprint := by decide +kernel
  apply List.filter_cons_of_neg
  rw [WrappedKey.anyIsFor, List.any_eq_true]
  rintro ⟨w, hw, hfor⟩
  obtain ⟨e, he, rfl⟩ := List.mem_map.1 hw
  have hrecipient : e.recipient ∈ stored.delivery.map Delivery.recipient := List.mem_map_of_mem he
  have haddress := h.stores.addressed he
  rw [h.stores.recipients] at hrecipient
  rw [List.mem_singleton.1 hrecipient] at haddress
  exact hdifferent ((of_decide_eq_true hfor).trans haddress.symm)

/-- Neither an empty entry for somebody else in front nor the credential of an outsider
keeps the recipient from the value. -/
theorem load_ignores_bystanders_addressedEdits :
    ∃ (stored : StoredDocument) (other : Delivery) (settings : Settings) (l l' : Document),
      ¬other.wrappedKey.isForAny [Sample.recipient1] = true ∧
      load settings [Sample.recipient1] (stored.toArtifact .compact) = .ok l ∧
      load settings [Sample.outsider, Sample.recipient1] (stored.toArtifact .compact) = .ok l ∧
      load settings [Sample.recipient1]
        ((stored.delivering (other :: stored.delivery)).toArtifact .compact) = .ok l' ∧
      l.contentKeys = [⟨Sample.keyA, some Sample.valueA⟩] ∧ l'.contentKeys = l.contentKeys := by
  obtain ⟨stored, hstored⟩ := exists_savedAs_addressedEdits
  obtain ⟨documentKey, -, -, hkey, hvalues⟩ := hstored.reveal_addressedEdits
  obtain ⟨other, haddressed, hother⟩ := exists_foreign_delivery
  let extended := stored.delivering (other :: stored.delivery)
  have hextended : extended.WellFormed := hstored.wellFormed.delivering (List.cons_ne_nil _ _)
    (List.forall_mem_cons.2 ⟨haddressed, hstored.wellFormed.addressed⟩)
  have hread := hstored.wellFormed.ofArtifact_toArtifact .compact
  have hread' := hextended.ofArtifact_toArtifact .compact
  let settings : Settings :=
    ⟨.compact, max (stored.toArtifact .compact).length (extended.toArtifact .compact).length⟩
  have hfits : (stored.toArtifact .compact).length ≤ settings.maxArtifactLength := le_max_left _ _
  have hfits' : (extended.toArtifact .compact).length ≤ settings.maxArtifactLength :=
    le_max_right _ _
  have hload := hstored.load hfits hkey hvalues
  obtain ⟨hentries, hcredentials⟩ := load_ignores_bystanders settings [Sample.recipient1]
  have hsame : Delivery.addressed stored.delivery [Sample.recipient1]
      = Delivery.addressed (other :: stored.delivery) [Sample.recipient1] :=
    (Delivery.addressed_cons_of_not hother _).symm
  have hagree := hentries _ _ stored _ hread hread'
    (iff_of_false (Nat.not_lt.2 hfits) (Nat.not_lt.2 hfits')) hsame
  have hcounts (d : StoredDocument)
      (hd : StoredDocument.ofArtifact (stored.toArtifact .compact) = .ok d) :
      d.addressees [Sample.recipient1] = d.addressees [Sample.outsider, Sample.recipient1] := by
    obtain rfl := Except.ok.inj (hread.symm.trans hd)
    exact hstored.addressees_addressedEdits.symm
  have hthird := hcredentials _ [Sample.outsider, Sample.recipient1] hcounts
  rw [hload] at hagree hthird
  rcases hload' : load settings [Sample.recipient1] (extended.toArtifact .compact) with fault | l'
  · rw [hload'] at hagree
    cases hagree
  · rw [hload'] at hagree
    cases hagree with
    | ok hopened =>
        exact ⟨stored, other, settings, _, l', hother, hload, hthird.symm, hload', rfl,
          hopened.contentKeys.symm⟩

end Document

end KeyExchange
