import KeyExchange.Proofs.Document.Report
import KeyExchange.Sample.Parties

/-!
# What a load tells to whom

A load tells everybody the ids, the rules, the recipients, the values in the
clear and the report on the signatures.  The sealed values it tells to those who
are addressed: all of them, or the load fails.  It does not fail for callers who
are not addressed, whatever the sealed parts of an artifact are.

* `WrappedKey.AddressAny`: some credential has the address of some entry;
* `isSome_of_unwrapAny`, `unwrapAny_of_not_address`: there is a document key for
  those who are addressed only;
* `StoredKey.Told`: what of a stored key comes out of a load;
* `load_tells`: what is told to whom.
-/

namespace KeyExchange

open Outcome

/-! ## The document key -/

namespace WrappedKey

/-- Some entry has the address of some of the credentials. -/
def AddressAny (entries : List WrappedKey) (credentials : List Credential) : Prop :=
  ∃ c ∈ credentials, ∃ w ∈ entries, c.fingerprint = .ok w.recipient

variable {entries : List WrappedKey} {c : Credential} {others : List Credential}
  {address : Fingerprint}

/-- The entry that is found for a credential has its address. -/
theorem address_of_find {w : WrappedKey} (haddress : c.fingerprint = .ok address)
    (hfind : entries.find? (fun e => e.isFor address) = some w) :
    w ∈ entries ∧ c.fingerprint = .ok w.recipient := by
  have hfor := List.find?_some hfind
  have hsame : w.recipient = address := eq_of_beq hfor
  rw [hsame]
  exact ⟨List.mem_of_find?_eq_some hfind, haddress⟩

/-- The entry that is found for the first credential is opened. -/
theorem unwrapAny_of_find {w : WrappedKey} (haddress : c.fingerprint = .ok address)
    (hfind : entries.find? (fun e => e.isFor address) = some w) :
    unwrapAny entries (c :: others) = (w.reveal c).map some := by
  have hfor := List.find?_some hfind
  rw [unwrapAny, haddress, mapError_ok, ok_bind, hfind]
  dsimp only
  rw [unwrap, haddress, mapError_ok, ok_bind, if_pos hfor]
  cases w.reveal c with
  | error fault => rfl
  | ok key => rfl

/-- A credential without an entry is passed over. -/
theorem unwrapAny_of_find_none (haddress : c.fingerprint = .ok address)
    (hfind : entries.find? (fun e => e.isFor address) = none) :
    unwrapAny entries (c :: others) = unwrapAny entries others := by
  rw [unwrapAny, haddress, mapError_ok, ok_bind, hfind]

/-- A credential without an entry makes no difference to who is addressed. -/
theorem addressAny_cons_of_find (haddress : c.fingerprint = .ok address)
    (hfind : entries.find? (fun e => e.isFor address) = none) :
    AddressAny entries (c :: others) ↔ AddressAny entries others := by
  constructor
  · intro hparts
    obtain ⟨c', hc, w, hw, hsame⟩ := hparts
    rcases List.mem_cons.1 hc with rfl | hc
    · have hfor : address = w.recipient := Except.ok.inj (haddress.symm.trans hsame)
      exact absurd (beq_iff_eq.2 hfor.symm) (List.find?_eq_none.1 hfind w hw)
    · exact ⟨c', hc, w, hw, hsame⟩
  · intro hparts
    obtain ⟨c', hc, hentry⟩ := hparts
    exact ⟨c', List.mem_cons_of_mem _ hc, hentry⟩

/-- **Those who are addressed get a key**, unless its entry fails, and others get
none.  The first credential with an entry decides, so the induction is on the
credentials. -/
theorem isSome_of_unwrapAny {credentials : List Credential} {key : Option SymmetricKey}
    (h : unwrapAny entries credentials = .ok key) :
    key.isSome = true ↔ AddressAny entries credentials := by
  induction credentials with
  | nil =>
      cases h
      simp [AddressAny]
  | cons c others ih =>
      obtain ⟨address, haddress⟩ := c.exists_fingerprint
      rcases hfind : entries.find? (fun e => e.isFor address) with _ | w
      · rw [unwrapAny_of_find_none haddress hfind] at h
        rw [addressAny_cons_of_find haddress hfind]
        exact ih h
      · rw [unwrapAny_of_find haddress hfind] at h
        obtain ⟨opened, -, rfl⟩ := map_eq_ok_iff.1 h
        obtain ⟨hw, hentry⟩ := address_of_find haddress hfind
        exact iff_of_true rfl ⟨c, List.mem_cons_self, w, hw, hentry⟩

/-- **Nothing fails for those who are not addressed.** -/
theorem unwrapAny_of_not_address {credentials : List Credential}
    (h : ¬AddressAny entries credentials) : unwrapAny entries credentials = .ok none := by
  induction credentials with
  | nil => rfl
  | cons c others ih =>
      obtain ⟨address, haddress⟩ := c.exists_fingerprint
      rcases hfind : entries.find? (fun e => e.isFor address) with _ | w
      · rw [addressAny_cons_of_find haddress hfind] at h
        rw [unwrapAny_of_find_none haddress hfind]
        exact ih h
      · obtain ⟨hw, hentry⟩ := address_of_find haddress hfind
        exact absurd ⟨c, List.mem_cons_self, w, hw, hentry⟩ h

end WrappedKey

/-- Some entry of the document has the address of some of the credentials. -/
def StoredDocument.Addresses (d : StoredDocument) (credentials : List Credential) : Prop :=
  WrappedKey.AddressAny (d.delivery.map Delivery.wrappedKey) credentials

/-! ## Values -/

namespace StoredKey

/-- What of a stored key is told: its id, its value if that is in the clear, and
some value if it is sealed and `entitled`. -/
def Told (entitled : Prop) (s : StoredKey) (k : ContentKey) : Prop :=
  k.id = s.id ∧
  (∀ value, s.value = .plain value → k.value = some value) ∧
  (s.value.isEncrypted = true → (k.value.isSome = true ↔ entitled))

variable {entitled : Prop} {documentKey : Option SymmetricKey} {s : StoredKey} {k : ContentKey}

/-- With a document key the sealed values are told, without one they are not. -/
theorem told_of_reveal (hkey : documentKey.isSome = true ↔ entitled)
    (h : s.reveal documentKey = .ok k) : s.Told entitled k := by
  obtain ⟨id, value⟩ := s
  cases value with
  | plain value =>
      cases h
      refine ⟨rfl, fun value' hvalue => ?_, nofun⟩
      cases hvalue
      rfl
  | encrypted v =>
      cases documentKey with
      | none =>
          cases h
          exact ⟨rfl, nofun, fun _ => hkey⟩
      | some key =>
          obtain ⟨octets, -, h⟩ := bind_eq_ok_iff.1 h
          rcases hvalue : Octets.ofList? 16 octets with _ | value
          · rw [hvalue] at h
            cases h
          · rw [hvalue] at h
            cases h
            exact ⟨rfl, nofun, fun _ => hkey⟩

/-- A key in the clear is told as it is. -/
theorem Told.eq_of_plain (h : s.Told entitled k) {value : KeyValue} (hs : s.value = .plain value) :
    k = ⟨s.id, some value⟩ := by
  obtain ⟨hid, hvalue, -⟩ := h
  obtain ⟨id', value'⟩ := k
  cases hid
  cases hvalue value hs
  rfl

/-- A sealed key is told to others without its value. -/
theorem Told.eq_of_encrypted (h : s.Told entitled k) (hs : s.value.isEncrypted = true)
    (hstranger : ¬entitled) : k = ⟨s.id, none⟩ := by
  obtain ⟨hid, -, hvalue⟩ := h
  obtain ⟨id', value'⟩ := k
  cases hid
  cases value' with
  | none => rfl
  | some value => exact absurd ((hvalue hs).1 rfl) hstranger

end StoredKey

/-! ## Lists of values -/

section Told

variable {entitled : Prop} {ss : List StoredKey} {ks : List ContentKey}

/-- What of the stored keys is told. -/
theorem told_of_mapM {documentKey : Option SymmetricKey}
    (hkey : documentKey.isSome = true ↔ entitled)
    (h : ss.mapM (StoredKey.reveal documentKey) = .ok ks) :
    List.Forall₂ (StoredKey.Told entitled) ss ks :=
  (mapM_eq_ok_iff.1 h).imp fun _ _ => StoredKey.told_of_reveal hkey

/-- Every id is told, in its place. -/
theorem ids_of_told (h : List.Forall₂ (StoredKey.Told entitled) ss ks) :
    ks.map ContentKey.id = ss.map StoredKey.id := by
  induction h with
  | nil => rfl
  | cons hfirst _ ih => rw [List.map_cons, List.map_cons, hfirst.1, ih]

/-- A value in the clear is told, in its place. -/
theorem getElem?_of_told (h : List.Forall₂ (StoredKey.Told entitled) ss ks) {i : Nat} {id : KeyId}
    {value : KeyValue} (hi : ss[i]? = some ⟨id, .plain value⟩) :
    ks[i]? = some ⟨id, some value⟩ := by
  induction h generalizing i with
  | nil => cases hi
  | @cons s k ss ks hfirst _ ih =>
      cases i with
      | zero =>
          cases hi
          exact congrArg some (hfirst.eq_of_plain rfl)
      | succ i => exact ih hi

end Told

namespace Document

/-- The two tell the same of everything that is not sealed in `d`. -/
structure SameInClear (d : StoredDocument) (l l' : Document) : Prop where
  ids : l.contentKeys.map ContentKey.id = l'.contentKeys.map ContentKey.id
  plain : ∀ (i : Nat) (id : KeyId) (value : KeyValue),
    d.contentKeys[i]? = some ⟨id, .plain value⟩ → l.contentKeys[i]? = l'.contentKeys[i]?
  recipients : l.recipients = l'.recipients
  usageRules : l.usageRules = l'.usageRules
  report : l.report? = l'.report?

/-- **What is told to whom.**  Of any artifact that loads, in whatever way it came
about, everything in the clear is told, and the sealed values are told exactly
when one of the credentials has the address of a delivery.  No other credentials
under which it loads are told anything else of what is in the clear.  When no
credential is addressed, every readable artifact loads. -/
theorem load_tells (settings : Settings) (credentials : List Credential) (artifact : Bytes) :
    (∀ l, load settings credentials artifact = .ok l →
      ∃ d, StoredDocument.ofArtifact artifact = .ok d ∧
        l.contentKeys.map ContentKey.id = d.contentKeys.map StoredKey.id ∧
        List.Forall₂ (StoredKey.Told (d.Addresses credentials)) d.contentKeys l.contentKeys ∧
        l.recipients = d.delivery.map Delivery.recipient ∧ l.usageRules = d.usageRules ∧
        ∀ settings' credentials' l', load settings' credentials' artifact = .ok l' →
          SameInClear d l l') ∧
    (∀ d, artifact.length ≤ settings.maxArtifactLength →
      StoredDocument.ofArtifact artifact = .ok d → ¬d.Addresses credentials →
      ∃ l, load settings credentials artifact = .ok l) := by
  constructor
  · intro l hl
    obtain ⟨-, d, report, key, ks, hread, hreport, hkey, hvalues, rfl⟩ := load_eq_ok_iff.1 hl
    have htold := told_of_mapM (WrappedKey.isSome_of_unwrapAny (mapError_eq_ok_iff.1 hkey)) hvalues
    refine ⟨d, hread, ids_of_told htold, htold, rfl, rfl, ?_⟩
    intro settings' credentials' l' hl'
    obtain ⟨-, d', report', key', ks', hread', hreport', hkey', hvalues', rfl⟩ :=
      load_eq_ok_iff.1 hl'
    obtain rfl : d = d' := Except.ok.inj (hread.symm.trans hread')
    obtain rfl : report = report' := Except.ok.inj (hreport.symm.trans hreport')
    have htold' :=
      told_of_mapM (WrappedKey.isSome_of_unwrapAny (mapError_eq_ok_iff.1 hkey')) hvalues'
    exact {
      ids := (ids_of_told htold).trans (ids_of_told htold').symm
      plain := fun i id value hi => by rw [getElem?_of_told htold hi, getElem?_of_told htold' hi]
      recipients := rfl
      usageRules := rfl
      report := rfl }
  · intro d hfits hread hstranger
    apply exists_load_of_recoverKey hfits hread
    rw [StoredDocument.recoverKey, WrappedKey.unwrapAny_of_not_address hstranger, mapError_ok]

end Document

/-- One value in the clear and one that nobody sealed, for a recipient to whom
nothing was wrapped. -/
def StoredDocument.damagedDocument : StoredDocument where
  version := formatVersion
  delivery := [blankDelivery.readdressed]
  contentKeys := [⟨Sample.keyA, .plain Sample.valueA⟩,
    ⟨Sample.keyB, .encrypted ⟨.chacha20Poly1305, ⟨.replicate 12 0⟩, []⟩⟩]
  contentKeySignatures := []
  usageRules := []
  usageRuleSignatures := []
  documentSignature := some forgedRecord

/-- Nothing of the form of the damaged document is wrong. -/
theorem StoredDocument.wellFormed_damagedDocument : damagedDocument.WellFormed where
  version := rfl
  distinct := by decide
  delivered := fun _ => List.cons_ne_nil _ _
  addressed := fun e he => by
    rw [List.mem_singleton.1 he]
    exact blankDelivery.fingerprint_readdressed

/-- An outsider loads what is damaged, and is told the value in the clear. -/
theorem Document.load_tells_damagedDocument :
    ∃ l,
      load {} [Sample.outsider] (StoredDocument.damagedDocument.toArtifact .compact) = .ok l ∧
      l.contentKeys = [⟨Sample.keyA, some Sample.valueA⟩, ⟨Sample.keyB, none⟩] := by
  have hread := StoredDocument.wellFormed_damagedDocument.ofArtifact_toArtifact .compact
  have hfits : (StoredDocument.damagedDocument.toArtifact .compact).length
      ≤ Settings.maxArtifactLength {} := by decide +kernel
  have hdifferent : Sample.outsider.fingerprint
      ≠ .ok StoredDocument.blankDelivery.readdressed.wrappedKey.recipient := by decide +kernel
  have hstranger : ¬StoredDocument.damagedDocument.Addresses [Sample.outsider] := by
    simpa [StoredDocument.Addresses, WrappedKey.AddressAny, StoredDocument.damagedDocument]
      using hdifferent
  obtain ⟨htells, hloads⟩ :=
    load_tells {} [Sample.outsider] (StoredDocument.damagedDocument.toArtifact .compact)
  obtain ⟨l, hl⟩ := hloads _ hfits hread hstranger
  obtain ⟨d, hread', -, htold, -⟩ := htells l hl
  obtain rfl := Except.ok.inj (hread.symm.trans hread')
  refine ⟨l, hl, ?_⟩
  generalize l.contentKeys = ks at htold
  obtain _ | ⟨hplain, hrest⟩ := htold
  obtain _ | ⟨hsealed, hrest⟩ := hrest
  cases hrest
  rw [hplain.eq_of_plain rfl, hsealed.eq_of_encrypted rfl hstranger]

end KeyExchange
