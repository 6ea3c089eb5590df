import KeyExchange.BasicFault
import KeyExchange.Proofs.Cbor.Readable

/-!
# Records in canonical encoding

Signed content is made of records: maps whose keys are small integers in
ascending order.  Their entries already stand in canonical order, and no two
have the same key, so a record is encoded whenever its values are.

* `encodable_record`, `encodable_array`: records and arrays of encodable values
  are encodable;
* `canonical_record_eq_iff`, `canonical_array_eq_iff`: two records, or two
  arrays, have one encoding exactly when they agree part by part;
* `canonical_unsigned_eq_iff`, `canonical_bytes_eq_iff` and their like: the leaves.
-/

namespace KeyExchange.Cbor

open Outcome

/-- The value has a canonical encoding. -/
def Encodable (v : Cbor) : Prop := ∃ b, canonical v = .ok b

/-- The map of some fields. -/
def record (fields : List (UInt64 × Cbor)) : Cbor := .map (fields.map fun f => field f.1 f.2)

/-- Keys that are single octets in ascending order. -/
def Ascending (keys : List UInt64) : Prop :=
  keys.Pairwise (· < ·) ∧ (∀ k ∈ keys, k < 24) ∧ keys.length < 24

instance (keys : List UInt64) : Decidable (Ascending keys) :=
  have : Decidable (∀ k ∈ keys, k < 24) := List.decidableBAll _ keys
  inferInstanceAs (Decidable (_ ∧ _ ∧ _))

/-! ## Order -/

/-- Entries in strictly ascending order stay as they are. -/
theorem sortByKey_of_ascending {α : Type} {entries : List (Bytes × α)}
    (h : entries.Pairwise fun a b => a.1 < b.1) : sortByKey entries = entries := by
  induction h with
  | nil => rfl
  | @cons entry rest hfirst _ ih =>
      rw [sortByKey, ih]
      cases rest with
      | nil => rfl
      | cons next rest => rw [insertByKey, if_pos (hfirst next (by simp))]

/-- In strictly ascending order no neighbours are equal. -/
theorem hasEqualNeighbours_of_ascending {α : Type} :
    ∀ {entries : List (Bytes × α)}, entries.Pairwise (fun a b => a.1 < b.1) →
      hasEqualNeighbours entries = false
  | [], _ => rfl
  | [_], _ => rfl
  | a :: b :: rest, h => by
      obtain ⟨hfirst, hrest⟩ := List.pairwise_cons.1 h
      have hne : a.1 ≠ b.1 := fun heq => by
        have hlt : a.1 < b.1 := hfirst b (by simp)
        rw [heq] at hlt
        exact List.lt_irrefl b.1 hlt
      rw [hasEqualNeighbours, hasEqualNeighbours_of_ascending hrest, Bool.or_false]
      exact beq_false_of_ne hne

/-- The encoding of a small key. -/
theorem head_small {k : UInt64} (h : k < 24) : head 0 k.toNat = [UInt8.ofNat k.toNat] := by
  have hk : k.toNat < 24 := UInt64.lt_iff_toNat_lt.1 h
  simp [head, hk]

/-- Heads of small keys are in the order of the keys. -/
theorem head_lt_head {j k : UInt64} (hjk : j < k) (hk : k < 24) :
    head 0 j.toNat < head 0 k.toNat := by
  have hlt : j.toNat < k.toNat := UInt64.lt_iff_toNat_lt.1 hjk
  have hbound : k.toNat < 24 := UInt64.lt_iff_toNat_lt.1 hk
  rw [head_small hk, head_small (UInt64.lt_trans hjk hk), List.cons_lt_cons_iff]
  left
  rw [Text.Utf8.ofNat_lt_iff (by omega), Text.Utf8.toNat_ofNat_of_lt (by omega)]
  exact hlt

/-! ## Records -/

/-- What the fields of a record are encoded as. -/
def FieldPieces (fields : List (UInt64 × Cbor)) (pieces : List (Bytes × Bytes)) : Prop :=
  List.Forall₂ (fun f p => p.1 = head 0 f.1.toNat ∧ canonical f.2 = .ok p.2) fields pieces

/-- The entries of a record are its fields with their keys encoded. -/
theorem entryPieces_record {fields : List (UInt64 × Cbor)} {pieces : List (Bytes × Bytes)} :
    EntryPieces (fields.map fun f => field f.1 f.2) pieces ↔ FieldPieces fields pieces := by
  rw [EntryPieces, List.forall₂_map_left_iff]
  simp only [FieldPieces, field, canonical, Except.ok.injEq, eq_comm]

/-- The encoded keys of a record strictly ascend. -/
theorem FieldPieces.ascending {fields : List (UInt64 × Cbor)} {pieces : List (Bytes × Bytes)}
    (hfields : Ascending (fields.map Prod.fst)) (h : FieldPieces fields pieces) :
    pieces.Pairwise fun p q => p.1 < q.1 := by
  obtain ⟨keys, small, -⟩ := hfields
  induction h with
  | nil => exact .nil
  | @cons f p fields pieces hfp hrest ih =>
      obtain ⟨hfirst, keys⟩ := List.pairwise_cons.1 keys
      refine List.pairwise_cons.2 ⟨?_, ih keys fun k hk => small k (List.mem_cons_of_mem _ hk)⟩
      intro q hq
      obtain ⟨g, hg, hgq, -⟩ := exists_left_of_forall₂ hrest hq
      have hkey : g.1 ∈ fields.map Prod.fst := List.mem_map_of_mem hg
      rw [hfp.1, hgq]
      exact head_lt_head (hfirst g.1 hkey) (small g.1 (List.mem_cons_of_mem _ hkey))

/-- **Records.**  The encoding of a record is its head and its fields as they
stand. -/
theorem canonical_record_eq_ok_iff {fields : List (UInt64 × Cbor)} {b : Bytes}
    (hfields : Ascending (fields.map Prod.fst)) :
    canonical (record fields) = .ok b ↔
      ∃ pieces, FieldPieces fields pieces ∧
        b = head 5 pieces.length ++ pieces.flatMap fun p => p.1 ++ p.2 := by
  rw [record, canonical_map_eq_ok_iff]
  refine exists_congr fun pieces => ?_
  rw [entryPieces_record]
  refine and_congr_right fun hpieces => ?_
  have hascending := hpieces.ascending hfields
  rw [sortByKey_of_ascending hascending, hasEqualNeighbours_of_ascending hascending]
  exact and_iff_right rfl

/-- Values that are encodable one by one are encodable together. -/
theorem exists_pieces {α : Type} {f : α → Cbor} {xs : List α} (h : ∀ x ∈ xs, Encodable (f x)) :
    ∃ pieces, List.Forall₂ (fun x p => canonical (f x) = .ok p) xs pieces := by
  induction xs with
  | nil => exact ⟨[], .nil⟩
  | cons x xs ih =>
      obtain ⟨p, hp⟩ := h x (by simp)
      obtain ⟨pieces, hpieces⟩ := ih fun y hy => h y (by simp [hy])
      exact ⟨p :: pieces, .cons hp hpieces⟩

/-- A record is encodable when its values are. -/
theorem encodable_record {fields : List (UInt64 × Cbor)} (hfields : Ascending (fields.map Prod.fst))
    (h : ∀ f ∈ fields, Encodable f.2) : Encodable (record fields) := by
  obtain ⟨values, hvalues⟩ := exists_pieces h
  suffices hpieces : ∃ pieces, FieldPieces fields pieces by
    obtain ⟨pieces, hpieces⟩ := hpieces
    exact ⟨_, (canonical_record_eq_ok_iff hfields).2 ⟨pieces, hpieces, rfl⟩⟩
  clear h hfields
  induction hvalues with
  | nil => exact ⟨[], .nil⟩
  | @cons f v fields values hv _ ih =>
      obtain ⟨pieces, hpieces⟩ := ih
      exact ⟨(head 0 f.1.toNat, v) :: pieces, .cons ⟨rfl, hv⟩ hpieces⟩

/-- A record fits when its values do. -/
theorem sized_record {fields : List (UInt64 × Cbor)} (hfields : Ascending (fields.map Prod.fst))
    (h : ∀ f ∈ fields, Sized f.2) : Sized (record fields) := by
  obtain ⟨-, -, hfew⟩ := hfields
  rw [List.length_map] at hfew
  refine .map (by rw [List.length_map]; omega) ?_ ?_
  · intro e he
    obtain ⟨f, -, rfl⟩ := List.mem_map.1 he
    exact .unsigned f.1
  · intro e he
    obtain ⟨f, hf, rfl⟩ := List.mem_map.1 he
    exact h f hf

/-- An array is encodable when its items are. -/
theorem encodable_array {items : List Cbor} (h : ∀ x ∈ items, Encodable x) :
    Encodable (.array items) := by
  obtain ⟨pieces, hpieces⟩ := exists_pieces (f := id) h
  refine ⟨head 4 items.length ++ pieces.flatten, ?_⟩
  rw [canonical, canonicalItems_eq_ok_iff.2 ⟨pieces, hpieces, rfl⟩]
  rfl

/-! ## Leaves -/

/-- Numbers with one encoding are equal. -/
@[simp] theorem canonical_unsigned_eq_iff {a b : UInt64} :
    canonical (.unsigned a) = canonical (.unsigned b) ↔ a = b := by
  constructor
  · intro h
    rw [canonical, canonical, Except.ok.injEq] at h
    have hheads := head_split (j := 0) (k := 0) (s := []) (t := []) (by decide) (by decide)
      a.toNat_lt b.toNat_lt (by rw [h])
    exact UInt64.toNat_inj.1 hheads.2.1
  · intro hsame
    subst hsame
    rfl

/-- A number is encodable. -/
theorem encodable_unsigned (n : UInt64) : Encodable (.unsigned n) := ⟨_, rfl⟩

/-- An octet string is encodable. -/
theorem encodable_bytes (content : Bytes) : Encodable (.bytes content) := ⟨_, rfl⟩

/-- A text is encodable. -/
theorem encodable_text (content : String) : Encodable (.text content) := ⟨_, rfl⟩

/-- An octet string of fixed length is encodable. -/
theorem encodable_octets {n : Nat} (o : Octets n) : Encodable (octets o) := ⟨_, rfl⟩

/-- A number that may be absent is encodable. -/
theorem encodable_optional (n : Option UInt64) : Encodable (optional n) := by
  cases n with
  | none => exact ⟨_, rfl⟩
  | some n => exact encodable_unsigned n

/-- A number that may be absent is sized. -/
theorem sized_optional (n : Option UInt64) : Sized (optional n) := by
  cases n with
  | none => exact .null
  | some n => exact .unsigned n

/-- An octet string of fixed length is sized, if its length fits a head. -/
theorem sized_octets {n : Nat} (o : Octets n) (hn : n < 2 ^ 64) : Sized (octets o) :=
  .bytes (by rw [o.length_toList]; exact hn)

/-- Strings of one length are told by their octets alone. -/
@[simp] theorem canonical_octets_eq_iff {n : Nat} {a b : Octets n} :
    canonical (octets a) = canonical (octets b) ↔ a = b := by
  constructor
  · intro h
    simp only [octets, canonical, a.length_toList, b.length_toList, Except.ok.injEq,
      List.append_cancel_left_eq] at h
    exact Octets.ext h
  · intro hsame
    subst hsame
    rfl

/-- Octet strings with one encoding are equal. -/
theorem canonical_bytes_eq_iff {a b : Bytes} (ha : a.length < 2 ^ 64) (hb : b.length < 2 ^ 64) :
    canonical (.bytes a) = canonical (.bytes b) ↔ a = b := by
  constructor
  · intro h
    rw [canonical, canonical, Except.ok.injEq] at h
    exact (head_split (by decide) (by decide) ha hb h).2.2
  · intro hsame
    subst hsame
    rfl

/-- Texts with one encoding are equal. -/
theorem canonical_text_eq_iff {a b : String} (ha : (Text.Utf8.ofString a).length < 2 ^ 64)
    (hb : (Text.Utf8.ofString b).length < 2 ^ 64) :
    canonical (.text a) = canonical (.text b) ↔ a = b := by
  constructor
  · intro h
    simp only [canonical, Except.ok.injEq] at h
    exact Text.Utf8.ofString_injective (head_split (by decide) (by decide) ha hb h).2.2
  · intro hsame
    subst hsame
    rfl

/-- An absent bound is not encoded like any number. -/
theorem canonical_null_ne_unsigned (n : UInt64) : canonical .null ≠ canonical (.unsigned n) := by
  intro h
  rw [canonical, canonical, Except.ok.injEq] at h
  have hheads := head_split (j := 7) (k := 0) (n := 22) (s := []) (t := []) (by decide)
    (by decide) (by decide) n.toNat_lt (by rw [← h]; rfl)
  exact absurd hheads.1 (by decide)

/-- Numbers that may be absent and have one encoding are equal, or both absent. -/
@[simp] theorem canonical_optional_eq_iff {a b : Option UInt64} :
    canonical (optional a) = canonical (optional b) ↔ a = b := by
  cases a with
  | none =>
      cases b with
      | none => simp
      | some n => simpa [optional] using canonical_null_ne_unsigned n
  | some m =>
      cases b with
      | none => simpa [optional] using (canonical_null_ne_unsigned m).symm
      | some n => simp [optional]

/-! ## Records and arrays, part by part -/

/-- Two records have one encoding exactly when they have the same keys and, at
each key, values with one encoding. -/
theorem canonical_record_eq_iff {fs gs : List (UInt64 × Cbor)} (hfs : Ascending (fs.map Prod.fst))
    (hgs : Ascending (gs.map Prod.fst)) (hencodable : ∀ f ∈ fs, Encodable f.2)
    (hfsized : ∀ f ∈ fs, Sized f.2) (hgsized : ∀ g ∈ gs, Sized g.2) :
    canonical (record fs) = canonical (record gs) ↔
      List.Forall₂ (fun f g => f.1 = g.1 ∧ canonical f.2 = canonical g.2) fs gs := by
  obtain ⟨b, hb⟩ := encodable_record hfs hencodable
  obtain ⟨ps, hps, hbps⟩ := (canonical_record_eq_ok_iff hfs).1 hb
  rw [hb, eq_comm, canonical_record_eq_ok_iff hgs]
  constructor
  · intro hparts
    obtain ⟨qs, hqs, hbqs⟩ := hparts
    have hfew : ps.length < 2 ^ 64 := by
      have hfew := hfs.2.2
      rw [List.length_map] at hfew
      rw [← hps.length_eq]
      omega
    have hfew' : qs.length < 2 ^ 64 := by
      have hfew' := hgs.2.2
      rw [List.length_map] at hfew'
      rw [← hqs.length_eq]
      omega
    obtain ⟨-, hcount, hentries⟩ := head_split (j := 5) (k := 5) (by decide) (by decide) hfew
      hfew' (hbps.symm.trans hbqs)
    have hpieces : ps = qs := by
      refine (flatMap_split (s := []) (t := []) hcount ?_ (by rw [hentries])).1
      intro p hp q hq s t hpq
      obtain ⟨f, hf, hfkey, hfvalue⟩ := exists_left_of_forall₂ hps hp
      obtain ⟨g, hg, hgkey, hgvalue⟩ := exists_left_of_forall₂ hqs hq
      rw [List.append_assoc, List.append_assoc, hfkey, hgkey] at hpq
      obtain ⟨-, hkey, hrest⟩ :=
        head_split (j := 0) (k := 0) (by decide) (by decide) f.1.toNat_lt g.1.toNat_lt hpq
      obtain ⟨hvalue, hend⟩ :=
        splits_of_sized (hfsized f hf) (hgsized g hg) hfvalue hgvalue hrest
      exact ⟨Prod.ext (by rw [hfkey, hgkey, hkey]) hvalue, hend⟩
    subst hpieces
    refine (forall₂_trans hps hqs.flip).imp ?_
    intro f g hparts
    obtain ⟨p, ⟨hfkey, hfvalue⟩, hgkey, hgvalue⟩ := hparts
    have hheads := head_split (j := 0) (k := 0) (s := []) (t := []) (by decide) (by decide)
      f.1.toNat_lt g.1.toNat_lt (by rw [← hfkey, ← hgkey])
    exact ⟨UInt64.toNat_inj.1 hheads.2.1, by rw [hfvalue, hgvalue]⟩
  · intro hsame
    refine ⟨ps, (forall₂_trans hsame.flip hps).imp ?_, hbps⟩
    intro g p hparts
    obtain ⟨f, ⟨hkey, hvalue⟩, hfkey, hfvalue⟩ := hparts
    exact ⟨by rw [hfkey, hkey], by rw [← hvalue, hfvalue]⟩

/-- The encoding of an array is its head and its items as they stand. -/
theorem canonical_array_eq_ok_iff {items : List Cbor} {b : Bytes} :
    canonical (.array items) = .ok b ↔
      ∃ pieces, List.Forall₂ (fun x p => canonical x = .ok p) items pieces ∧
        b = head 4 items.length ++ pieces.flatMap id := by
  rw [canonical, bind_eq_ok_iff]
  constructor
  · intro hparts
    obtain ⟨flat, hflat, h⟩ := hparts
    obtain ⟨pieces, hpieces, rfl⟩ := canonicalItems_eq_ok_iff.1 hflat
    cases h
    exact ⟨pieces, hpieces, by rw [List.flatMap_id]⟩
  · intro hparts
    obtain ⟨pieces, hpieces, rfl⟩ := hparts
    refine ⟨pieces.flatten, canonicalItems_eq_ok_iff.2 ⟨pieces, hpieces, rfl⟩, ?_⟩
    rw [List.flatMap_id]
    rfl

/-- Two arrays have one encoding exactly when they have as many items, with one
encoding each. -/
theorem canonical_array_eq_iff {xs ys : List Cbor} (hencodable : ∀ x ∈ xs, Encodable x)
    (hx : Sized (.array xs)) (hy : Sized (.array ys)) :
    canonical (.array xs) = canonical (.array ys) ↔
      List.Forall₂ (fun x y => canonical x = canonical y) xs ys := by
  obtain ⟨b, hb⟩ := encodable_array hencodable
  obtain ⟨ps, hps, hbps⟩ := canonical_array_eq_ok_iff.1 hb
  rw [hb, eq_comm, canonical_array_eq_ok_iff]
  cases hx with
  | array hxshort hxeach =>
  cases hy with
  | array hyshort hyeach =>
  constructor
  · intro hparts
    obtain ⟨qs, hqs, hbqs⟩ := hparts
    obtain ⟨-, hcount, hitems⟩ := head_split (j := 4) (k := 4) (by decide) (by decide) hxshort
      hyshort (hbps.symm.trans hbqs)
    obtain ⟨rfl, -⟩ := items_split (s := []) (t := []) (fun x hx => splits_of_sized (hxeach x hx))
      hyeach hcount hps hqs (by rw [hitems])
    refine (forall₂_trans hps hqs.flip).imp ?_
    intro x y hparts
    obtain ⟨p, hxp, hyp⟩ := hparts
    rw [hxp, hyp]
  · intro hsame
    refine ⟨ps, (forall₂_trans hsame.flip hps).imp ?_, by rw [hbps, hsame.length_eq]⟩
    intro y p hparts
    obtain ⟨x, hxy, hxp⟩ := hparts
    rw [← hxy, hxp]

/-! ## Contents -/

/-- The encodings of some contents tell a part of what they are the content of,
and nothing else. -/
structure Tells {α β : Type} (content : α → Cbor) (fits : α → Prop) (part : α → β) : Prop where
  encodable : ∀ a, Encodable (content a)
  sized : ∀ a, fits a → Sized (content a)
  told : ∀ a b, fits a → fits b →
    (canonical (content a) = canonical (content b) ↔ part a = part b)

/-- A record tells what its fields tell together. -/
theorem tells_record {α β : Type} (fields : α → List (UInt64 × Cbor)) {fits : α → Prop}
    {part : α → β} (keys : ∀ a, Ascending ((fields a).map Prod.fst))
    (encodable : ∀ a, ∀ f ∈ fields a, Encodable f.2)
    (sized : ∀ a, fits a → ∀ f ∈ fields a, Sized f.2)
    (told : ∀ a b, fits a → fits b →
      (List.Forall₂ (fun f g => f.1 = g.1 ∧ canonical f.2 = canonical g.2) (fields a) (fields b)
        ↔ part a = part b)) :
    Tells (fun a => record (fields a)) fits part where
  encodable a := encodable_record (keys a) (encodable a)
  sized a ha := sized_record (keys a) (sized a ha)
  told a b ha hb := by
    rw [canonical_record_eq_iff (keys a) (keys b) (encodable a) (sized a ha) (sized b hb)]
    exact told a b ha hb

/-- A list is told when each of its items is. -/
theorem Tells.array {α β : Type} {content : α → Cbor} {fits : α → Prop} {part : α → β}
    (h : Tells content fits part) :
    Tells (fun xs : List α => .array (xs.map content))
      (fun xs => xs.length < 2 ^ 64 ∧ ∀ x ∈ xs, fits x) (List.map part) where
  encodable xs := encodable_array (by simpa using fun x _ => h.encodable x)
  sized xs hxs := by
    refine .array (by simpa using hxs.1) ?_
    simpa using fun x hx => h.sized x (hxs.2 x hx)
  told xs ys hxs hys := by
    have hsized : ∀ zs : List α, (zs.length < 2 ^ 64 ∧ ∀ z ∈ zs, fits z) →
        Sized (.array (zs.map content)) := fun zs hzs =>
      .array (by simpa using hzs.1) (by simpa using fun z hz => h.sized z (hzs.2 z hz))
    rw [canonical_array_eq_iff (by simpa using fun x _ => h.encodable x) (hsized xs hxs)
      (hsized ys hys), ← List.forall₂_eq_eq_eq]
    simp only [List.forall₂_map_left_iff, List.forall₂_map_right_iff]
    obtain ⟨-, hxs⟩ := hxs
    obtain ⟨-, hys⟩ := hys
    clear hsized
    constructor
    · intro hsame
      induction hsame with
      | nil => exact .nil
      | @cons x y xs ys hxy _ ih =>
          exact .cons ((h.told x y (hxs x (by simp)) (hys y (by simp))).1 hxy)
            (ih (fun a ha => hxs a (by simp [ha])) fun b hb => hys b (by simp [hb]))
    · intro hsame
      induction hsame with
      | nil => exact .nil
      | @cons x y xs ys hxy _ ih =>
          exact .cons ((h.told x y (hxs x (by simp)) (hys y (by simp))).2 hxy)
            (ih (fun a ha => hxs a (by simp [ha])) fun b hb => hys b (by simp [hb]))

end KeyExchange.Cbor
