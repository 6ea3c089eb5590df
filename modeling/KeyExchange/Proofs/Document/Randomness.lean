import KeyExchange.Proofs.Document.Saving
import Mathlib.Order.Interval.Set.Disjoint
import Mathlib.Order.CompletePartialOrder

/-!
# What is drawn for a save

A save takes its secrets and nonces from one random source, each from a piece of its
own: the document key, for each recipient an ephemeral secret and a nonce, for each key a
nonce.  The pieces lie side by side, so no octet of the source serves twice, neither in
one save nor in two that follow each other.

* `Piece`: what is drawn, with its place;
* `exists_place`, `eq_of_place`: every octet that is drawn belongs to one piece;
* `local_toArtifact`: the octets that are not drawn make no difference;
* `DrawnFrom.map_nonce?`: the nonces of the values in their order;
* `save_draws_once`: all of this.
-/

namespace KeyExchange

open Drawing

/-- The nonce under which a value is sealed. -/
def StoredKey.nonce? (k : StoredKey) : Option Nonce :=
  match k.value with
  | .plain _ => none
  | .encrypted v => some v.nonce

namespace Document

/-! ## Pieces of the source -/

/-- What is drawn for a save with so many recipients and keys. -/
inductive Piece (recipients keys : Nat) where
  | documentKey
  | secret (i : Fin recipients)
  | wrappingNonce (i : Fin recipients)
  | valueNonce (j : Fin keys)

namespace Piece

variable {recipients keys : Nat}

/-- How many octets are drawn before the piece. -/
def start : Piece recipients keys → Nat
  | .documentKey => 0
  | .secret i => 32 + 44 * i
  | .wrappingNonce i => 64 + 44 * i
  | .valueNonce j => 32 + 44 * recipients + 12 * j

/-- How many octets the piece has. -/
def length : Piece recipients keys → Nat
  | .documentKey => 32
  | .secret _ => 32
  | .wrappingNonce _ => 12
  | .valueNonce _ => 12

/-- The octets of the source that the piece has, in a save that begins there. -/
def places (p : Piece recipients keys) (e : Entropy) : Set Nat :=
  Set.Ico (e.position + p.start) (e.position + p.start + p.length)

/-- Every octet that is drawn belongs to a piece. -/
theorem exists_place {n : Nat} (h : n < 32 + 44 * recipients + 12 * keys) :
    ∃ p : Piece recipients keys, p.start ≤ n ∧ n < p.start + p.length := by
  by_cases hkey : n < 32
  · exact ⟨.documentKey, Nat.zero_le n, by simpa [start, length] using hkey⟩
  by_cases hentry : n < 32 + 44 * recipients
  · have hi : (n - 32) / 44 < recipients := by omega
    by_cases hsecret : (n - 32) % 44 < 32
    · refine ⟨.secret ⟨(n - 32) / 44, hi⟩, ?_⟩
      simp only [start, length]
      omega
    · refine ⟨.wrappingNonce ⟨(n - 32) / 44, hi⟩, ?_⟩
      simp only [start, length]
      omega
  · have hj : (n - (32 + 44 * recipients)) / 12 < keys := by omega
    refine ⟨.valueNonce ⟨(n - (32 + 44 * recipients)) / 12, hj⟩, ?_⟩
    simp only [start, length]
    omega

/-- A piece ends before so many octets were drawn. -/
theorem end_le (p : Piece recipients keys) :
    p.start + p.length ≤ 32 + 44 * recipients + 12 * keys := by
  cases p with
  | documentKey => simp only [start, length]; omega
  | secret i | wrappingNonce i | valueNonce j => simp only [start, length]; omega

/-- No octet belongs to two pieces. -/
theorem eq_of_place {p q : Piece recipients keys} {n : Nat}
    (hp : p.start ≤ n ∧ n < p.start + p.length) (hq : q.start ≤ n ∧ n < q.start + q.length) :
    p = q := by
  cases p with
  | documentKey =>
      cases q with
      | documentKey => rfl
      | secret i | wrappingNonce i | valueNonce j => simp only [start, length] at hp hq; omega
  | secret i =>
      cases q with
      | secret i' =>
          simp only [start, length] at hp hq
          exact congrArg secret (Fin.ext (by omega))
      | documentKey | wrappingNonce i' | valueNonce j =>
          simp only [start, length] at hp hq
          omega
  | wrappingNonce i =>
      cases q with
      | wrappingNonce i' =>
          simp only [start, length] at hp hq
          exact congrArg wrappingNonce (Fin.ext (by omega))
      | documentKey | secret i' | valueNonce j =>
          simp only [start, length] at hp hq
          omega
  | valueNonce j =>
      cases q with
      | valueNonce j' =>
          simp only [start, length] at hp hq
          exact congrArg valueNonce (Fin.ext (by omega))
      | documentKey | secret i | wrappingNonce i =>
          simp only [start, length] at hp hq
          omega

/-- An octet belongs to a piece by its number in the save. -/
theorem mem_places_iff {p : Piece recipients keys} {e : Entropy} {n : Nat} :
    e.position + n ∈ p.places e ↔ p.start ≤ n ∧ n < p.start + p.length := by
  rw [places, Set.mem_Ico]
  omega

/-- Different pieces have no octet in common. -/
theorem pairwise_disjoint (e : Entropy) :
    Pairwise fun p q : Piece recipients keys => Disjoint (p.places e) (q.places e) := by
  intro p q hne
  refine Set.disjoint_left.2 fun n hp hq => hne ?_
  obtain ⟨k, rfl⟩ := Nat.exists_eq_add_of_le ((Nat.le_add_right _ _).trans hp.1)
  exact eq_of_place (mem_places_iff.1 hp) (mem_places_iff.1 hq)

/-- Together the pieces are all that is drawn. -/
theorem iUnion_places (e : Entropy) :
    ⋃ p : Piece recipients keys, p.places e
      = Set.Ico e.position (e.position + (32 + 44 * recipients + 12 * keys)) := by
  ext n
  rw [Set.mem_iUnion, Set.mem_Ico]
  constructor
  · rintro ⟨p, hp⟩
    have hend := p.end_le
    rw [places, Set.mem_Ico] at hp
    omega
  · rintro ⟨hfrom, hto⟩
    obtain ⟨k, rfl⟩ := Nat.exists_eq_add_of_le hfrom
    obtain ⟨p, hp⟩ := exists_place (Nat.lt_of_add_lt_add_left hto)
    exact ⟨p, mem_places_iff.2 hp⟩

end Piece

end Document

/-! ## Only these octets count -/

/-- Making a secret looks at its own octets only. -/
theorem AgreementSecret.local_generate {ε : Type} :
    Local (generate : Drawing ε AgreementSecret) :=
  (local_draw 32).bind fun octets => local_pure (AgreementSecret.mk octets)

/-- So does making a key. -/
theorem SymmetricKey.local_generate {ε : Type} : Local (generate : Drawing ε SymmetricKey) :=
  (local_draw 32).bind fun octets => local_pure (SymmetricKey.mk octets)

/-- So does making a nonce. -/
theorem Nonce.local_generate {ε : Type} : Local (generate : Drawing ε Nonce) :=
  (local_draw 12).bind fun octets => local_pure (Nonce.mk octets)

/-- Wrapping a key looks at no octets but those of its secret and its nonce. -/
theorem WrappedKey.local_wrap (recipient : Certificate) (key : SymmetricKey) :
    Local (wrap recipient key) := by
  unfold wrap
  refine (local_liftExcept _).bind fun address =>
    AgreementSecret.local_generate.bind fun ephemeral => ?_
  dsimp only
  split
  · exact Nonce.local_generate.bind fun nonce =>
      (local_liftExcept _).bind fun ciphertext => local_pure _
  · exact local_throw _

/-- Sealing a value looks at no octets but those of its nonce. -/
theorem SealedValue.local_create (message aad : Bytes) (key : SymmetricKey) :
    Local (create message aad key) :=
  Nonce.local_generate.bind fun _ => (local_liftExcept _).bind fun _ => local_pure _

namespace Document

/-- A delivery entry looks at no octets but its own. -/
theorem local_deliver (documentKey : SymmetricKey) (recipient : Certificate) :
    Local (deliver documentKey recipient) :=
  ((WrappedKey.local_wrap recipient documentKey).adapt _).bind fun _ => local_pure _

/-- A stored key looks at no octets but its own. -/
theorem local_storeSealed (documentKey : SymmetricKey) (key : ContentKey) :
    Local (storeSealed documentKey key) := by
  unfold storeSealed
  split
  · exact ((SealedValue.local_create _ _ documentKey).adapt _).bind fun _ => local_pure _
  · exact local_throw _

/-- So it is with all entries and all keys together. -/
theorem local_storeKeys (d : Document) : Local d.storeKeys := by
  unfold storeKeys
  split
  · exact (local_liftExcept _).bind fun keys => local_pure ([], keys)
  · exact SymmetricKey.local_generate.bind fun documentKey =>
      (local_mapM (local_deliver documentKey) _).bind fun delivery =>
        (local_mapM (local_storeSealed documentKey) _).bind fun keys =>
          local_pure (delivery, keys)

/-- **The octets that are drawn decide**, whatever document it is and whether it is saved
or not. -/
theorem local_toArtifact (d : Document) (layout : Json.Layout) : Local (d.toArtifact layout) := by
  have hstored : Local d.toStored := by
    unfold toStored
    split
    · exact local_throw _
    · exact d.local_storeKeys.bind fun _ => local_liftExcept _
  exact hstored.bind fun _ => local_pure _

/-! ## The nonces of the values -/

variable {d : Document} {e : Entropy} {delivery : List Delivery} {keys : List StoredKey}

/-- Every value has a nonce of its own, in the order of the keys. -/
theorem DrawnFrom.map_nonce? (h : d.DrawnFrom e delivery keys) :
    keys.map StoredKey.nonce? = (List.range d.contentKeys.length).map fun j =>
      some (e.nonceAfter (32 + 44 * d.recipients.length + 12 * j)) := by
  apply List.ext_getElem
  · rw [List.length_map, List.length_map, List.length_range, h.length_keys]
  · intro j hj hj'
    rw [List.length_map, List.length_range] at hj'
    obtain ⟨value, v, -, hv, hnonce, -⟩ := h.value j _ (List.getElem?_eq_getElem hj')
    obtain ⟨_, hget⟩ := List.getElem?_eq_some_iff.1 hv
    rw [List.getElem_map, List.getElem_map, List.getElem_range, hget, ← hnonce]
    rfl

/-- When the pieces that serve as their nonces differ, no nonce is used twice. -/
theorem DrawnFrom.nodup_nonces (h : d.DrawnFrom e delivery keys)
    (hdifferent : ((List.range d.contentKeys.length).map fun j =>
      e.nonceAfter (32 + 44 * d.recipients.length + 12 * j)).Nodup) :
    (keys.filterMap StoredKey.nonce?).Nodup := by
  have hnonces : keys.filterMap StoredKey.nonce?
      = (keys.map StoredKey.nonce?).filterMap id := by
    rw [List.filterMap_map]
    rfl
  rw [hnonces, h.map_nonce?, List.filterMap_map]
  have hsame : (id ∘ fun j => some (e.nonceAfter (32 + 44 * d.recipients.length + 12 * j)))
      = some ∘ fun j => e.nonceAfter (32 + 44 * d.recipients.length + 12 * j) := rfl
  rw [hsame, List.filterMap_eq_map]
  exact hdifferent

/-- The octets of the source that a save draws which begins there. -/
def places (d : Document) (e : Entropy) : Set Nat :=
  if d.recipients = [] then ∅
  else ⋃ p : Piece d.recipients.length d.contentKeys.length, p.places e

/-- The pieces of a save cover everything that it draws. -/
theorem places_eq (d : Document) (e : Entropy) :
    d.places e = Set.Ico e.position (e.skip d.drawn).position := by
  unfold places drawn
  by_cases hnobody : d.recipients = []
  · rw [if_pos hnobody, if_pos hnobody]
    exact (Set.Ico_self _).symm
  · rw [if_neg hnobody, if_neg hnobody]
    exact Piece.iUnion_places e

/-- What a save that succeeded has drawn. -/
theorem Built.drawn_of_toArtifact {signers : Signers} (hbuilt : d.Built signers)
    {layout : Json.Layout} {artifact : Bytes} {left : Entropy}
    (hsaved : d.toArtifact layout e = (.ok artifact, left)) :
    left = e.skip d.drawn ∧ ∃ stored, StoredDocument.ofArtifact artifact = .ok stored ∧
      (d.recipients ≠ [] → d.DrawnFrom e stored.delivery stored.contentKeys) := by
  by_cases hagrees : d.Agrees e
  · obtain ⟨stored, hmade, -, hread, -, hdrawn⟩ := hbuilt.draws_toArtifact hagrees layout
    cases hsaved.symm.trans hmade
    exact ⟨rfl, stored, hread, hdrawn⟩
  · have hfails : (d.toArtifact layout e).1 = .error (.encryption .lowOrderRecipient) :=
      (hbuilt.fails_toStored hagrees).bind _
    rw [hsaved] at hfails
    cases hfails

/-- **What a save draws.**  A document that was built by any edits and is saved draws
nothing when nobody is a recipient.  Otherwise it draws the document key, a secret and a
nonce for each recipient and a nonce for each key.  When the nonces of the values differ
in the source, none is used twice under the document key.  The pieces have no octet in
common, and together they are all that is drawn; a save that follows, of whatever
document, draws none of it again.  No other octet of the source makes a difference. -/
theorem save_draws_once {edits : List Edit} {layout : Json.Layout} {e left : Entropy}
    {artifact : Bytes}
    (hsaved : (empty.editEach edits).toArtifact layout e = (.ok artifact, left)) :
    let d := empty.editEach edits
    let recipients := d.recipients.length
    let keys := d.contentKeys.length
    (d.recipients = [] → left = e) ∧
    (d.recipients ≠ [] →
      left = e.skip (32 + 44 * recipients + 12 * keys) ∧
      ∃ stored, StoredDocument.ofArtifact artifact = .ok stored ∧
        d.DrawnFrom e stored.delivery stored.contentKeys ∧
        (((List.range keys).map fun j => e.nonceAfter (32 + 44 * recipients + 12 * j)).Nodup →
          (stored.contentKeys.filterMap StoredKey.nonce?).Nodup)) ∧
    (Pairwise fun p q : Piece recipients keys => Disjoint (p.places e) (q.places e)) ∧
    d.places e = Set.Ico e.position left.position ∧
    (∀ edits' layout' artifact' left',
      (empty.editEach edits').toArtifact layout' left = (.ok artifact', left') →
      left.byteAt = e.byteAt ∧ (empty.editEach edits').places left
          = Set.Ico left.position left'.position ∧
        Disjoint (d.places e) ((empty.editEach edits').places left)) ∧
    ∀ e', e.SameNext (left.position - e.position) e' →
      (d.toArtifact layout e').1 = .ok artifact := by
  intro d recipients keys
  have hbuilt : d.Built (.ofEdits edits) := built_editEach edits
  obtain ⟨hleft, stored, hread, hdrawn⟩ := hbuilt.drawn_of_toArtifact hsaved
  have hplaces : d.places e = Set.Ico e.position left.position := by
    rw [hleft]
    exact d.places_eq e
  refine ⟨fun hnobody => ?_, fun hsomebody => ?_, Piece.pairwise_disjoint e, hplaces, ?_, ?_⟩
  · rw [hleft, drawn, if_pos hnobody]
    rfl
  · rw [drawn, if_neg hsomebody] at hleft
    have hfrom := hdrawn hsomebody
    exact ⟨hleft, stored, hread, hfrom, hfrom.nodup_nonces⟩
  · intro edits' layout' artifact' left' hsaved'
    have hbuilt' := built_editEach edits'
    obtain ⟨hleft', -⟩ := hbuilt'.drawn_of_toArtifact hsaved'
    have hplaces' : (empty.editEach edits').places left
        = Set.Ico left.position left'.position := by
      rw [hleft']
      exact places_eq _ left
    refine ⟨by rw [hleft]; rfl, hplaces', ?_⟩
    rw [hplaces, hplaces']
    exact Set.Ico_disjoint_Ico_same
  · intro e' hsame
    obtain ⟨n, hend, hlocal⟩ := d.local_toArtifact layout e
    have hn : left.position - e.position = n := by
      rw [hsaved] at hend
      rw [show left = e.skip n from hend]
      exact Nat.add_sub_cancel_left ..
    rw [hlocal e' (hn ▸ hsame), hsaved]

/-- Two keys for one recipient. -/
def pairedEdits : List Edit :=
  Sample.plainEdits ++ [.addRecipient Sample.recipient1.certificate]

/-- A document with two keys is saved twice from one source.  Its values have different
nonces, and for the first save nothing counts behind the octets that it draws. -/
theorem save_draws_once_pairedEdits :
    let d := empty.editEach pairedEdits
    let e := Entropy.cycle [1, 2, 3, 4, 5]
    ∃ artifact artifact', ∃ left' : Entropy,
      d.toArtifact .compact e = (.ok artifact, e.skip 100) ∧
      d.toArtifact .compact (e.skip 100) = (.ok artifact', left') ∧
      Disjoint (d.places e) (d.places (e.skip 100)) ∧
      (∃ stored, StoredDocument.ofArtifact artifact = .ok stored ∧
        stored.contentKeys.map StoredKey.nonce?
          = [some (e.nonceAfter 76), some (e.nonceAfter 88)] ∧
        (stored.contentKeys.filterMap StoredKey.nonce?).Nodup) ∧
      (d.toArtifact .compact ⟨fun i => if i < 100 then e.byteAt i else 0, 0⟩).1
        = .ok artifact := by
  intro d e
  have hbuilt : d.Built (.ofEdits pairedEdits) := built_editEach pairedEdits
  have hrecipients : d.recipients = [Sample.recipient1].map Credential.certificate := rfl
  obtain ⟨stored, hmade, -⟩ :=
    hbuilt.draws_toArtifact (agrees_of_credentials hrecipients e) .compact
  obtain ⟨stored', hmade', -⟩ :=
    hbuilt.draws_toArtifact (agrees_of_credentials hrecipients (e.skip 100)) .compact
  obtain ⟨-, hdraws, -, -, hfollowing, hlocal⟩ := save_draws_once hmade
  obtain ⟨-, read, hread, hdrawn, hnonces⟩ := hdraws (List.cons_ne_nil _ _)
  obtain ⟨-, -, hdisjoint⟩ := hfollowing pairedEdits _ _ _ hmade'
  have hdifferent : ((List.range 2).map fun j => e.nonceAfter (32 + 44 * 1 + 12 * j)).Nodup := by
    decide
  have hsame : e.SameNext 100 ⟨fun i => if i < 100 then e.byteAt i else 0, 0⟩ := by
    refine ⟨rfl, fun i hi => ?_⟩
    have hplace : e.position + i = i := Nat.zero_add i
    rw [hplace]
    exact if_pos hi
  exact ⟨_, _, _, hmade, hmade', hdisjoint,
    ⟨read, hread, hdrawn.map_nonce?, hnonces hdifferent⟩, hlocal _ hsame⟩

end Document

end KeyExchange
