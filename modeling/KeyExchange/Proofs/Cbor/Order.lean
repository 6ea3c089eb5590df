import Mathlib.Data.List.Forall2
import Mathlib.Data.List.Nodup
import Mathlib.Data.List.Perm.Basic
import KeyExchange.Proofs.Cbor.Record

/-!
# What a canonical encoding identifies

The entries of a map have no order of their own, and the canonical encoding
gives them one.  It forgets nothing else: two values have one encoding exactly
when they are equal up to the order of map entries.  And since every encoding
says where it ends, none of them is the beginning of another.

* `Reordered`: equal up to the order of map entries, at any depth;
* `sortByKey_eq_of_perm`: sorting forgets the order of entries;
* `Reordered.canonical_eq`: reordered values have one encoding;
* `reordered_of_canonical`: values with one encoding are reordered;
* `canonicalBytes_eq_iff_reordered`: both, and no encoding goes on as another.
-/

namespace KeyExchange.Cbor

open Outcome

/-- The two values are equal up to the order of map entries, at any depth: in
the keys of a map and in its values as well as in the items of an array. -/
inductive Reordered : Cbor → Cbor → Prop where
  | unsigned (n : UInt64) : Reordered (.unsigned n) (.unsigned n)
  | negative (n : UInt64) : Reordered (.negative n) (.negative n)
  | bytes (content : Bytes) : Reordered (.bytes content) (.bytes content)
  | text (content : String) : Reordered (.text content) (.text content)
  | bool (value : Bool) : Reordered (.bool value) (.bool value)
  | null : Reordered .null .null
  | float (bits : UInt64) : Reordered (.float bits) (.float bits)
  | tag (number : UInt64) {content other : Cbor} (inner : Reordered content other) :
      Reordered (.tag number content) (.tag number other)
  | array {items others : List Cbor} (each : List.Forall₂ Reordered items others) :
      Reordered (.array items) (.array others)
  | map {entries moved others : List (Cbor × Cbor)} (order : entries.Perm moved)
      (keys : List.Forall₂ Reordered (moved.map Prod.fst) (others.map Prod.fst))
      (values : List.Forall₂ Reordered (moved.map Prod.snd) (others.map Prod.snd)) :
      Reordered (.map entries) (.map others)

/-! ## Sorting forgets the order -/

section sorting

variable {α : Type}

/-- An entry is inserted where it belongs. -/
theorem sorted_insertByKey (entry : Bytes × α) {entries : List (Bytes × α)}
    (h : entries.Pairwise fun a b => a.1 ≤ b.1) :
    (insertByKey entry entries).Pairwise fun a b => a.1 ≤ b.1 := by
  induction h with
  | nil => exact List.pairwise_singleton _ _
  | @cons first rest hfirst hrest ih =>
      unfold insertByKey
      by_cases hlt : entry.1 < first.1
      · rw [if_pos hlt]
        refine .cons ?_ (.cons hfirst hrest)
        intro other hother
        rcases List.mem_cons.1 hother with rfl | hother
        · exact List.le_of_lt hlt
        · exact List.le_trans (List.le_of_lt hlt) (hfirst other hother)
      · rw [if_neg hlt]
        refine .cons ?_ ih
        intro other hother
        rcases List.mem_cons.1 ((insertByKey_perm entry rest).mem_iff.1 hother) with rfl | hother
        · exact List.not_lt.1 hlt
        · exact hfirst other hother

/-- Sorted entries stand in ascending order. -/
theorem sorted_sortByKey (entries : List (Bytes × α)) :
    (sortByKey entries).Pairwise fun a b => a.1 ≤ b.1 := by
  induction entries with
  | nil => exact .nil
  | cons entry rest ih => exact sorted_insertByKey entry ih

/-- In ascending order equal keys would be neighbours. -/
theorem nodup_keys_of_sorted :
    ∀ {entries : List (Bytes × α)}, entries.Pairwise (fun a b => a.1 ≤ b.1) →
      hasEqualNeighbours entries = false → (entries.map Prod.fst).Nodup
  | [], _, _ => .nil
  | [_], _, _ => List.nodup_singleton _
  | a :: b :: rest, hsorted, hdistinct => by
      obtain ⟨hfirst, hsorted⟩ := List.pairwise_cons.1 hsorted
      obtain ⟨hsecond, -⟩ := List.pairwise_cons.1 hsorted
      obtain ⟨hne, hdistinct⟩ := Bool.or_eq_false_iff.1 hdistinct
      refine List.nodup_cons.2 ⟨?_, nodup_keys_of_sorted hsorted hdistinct⟩
      intro hmem
      obtain ⟨c, hc, hkey⟩ := List.mem_map.1 hmem
      rcases List.mem_cons.1 hc with rfl | hc
      · exact absurd hkey.symm (ne_of_beq_false hne)
      · -- What stands between two equal keys is equal to both.
        have hbetween : b.1 ≤ a.1 := hkey ▸ hsecond c hc
        exact absurd (List.le_antisymm (hfirst b List.mem_cons_self) hbetween)
          (ne_of_beq_false hne)

/-- **Sorting forgets the order** of entries whose keys are all different. -/
theorem sortByKey_eq_of_perm {xs ys : List (Bytes × α)} (h : xs.Perm ys)
    (hdistinct : hasEqualNeighbours (sortByKey xs) = false) : sortByKey xs = sortByKey ys := by
  have hsame : (sortByKey xs).Perm (sortByKey ys) :=
    (sortByKey_perm xs).trans (h.trans (sortByKey_perm ys).symm)
  have hnodup := nodup_keys_of_sorted (sorted_sortByKey xs) hdistinct
  refine hsame.eq_of_pairwise ?_ (sorted_sortByKey xs) (sorted_sortByKey ys)
  intro a b ha hb hab hba
  exact List.inj_on_of_nodup_map hnodup ha (hsame.mem_iff.2 hb) (List.le_antisymm hab hba)

end sorting

/-! ## Lists related item by item -/

section related

variable {α β γ δ : Type}

/-- Results of related items are equal when each item has only one result. -/
theorem results_eq {T : α → β → Prop} {R : α → γ → Prop} {S : β → γ → Prop} {xs : List α}
    {ys : List β} {ps qs : List γ} (h : List.Forall₂ T xs ys) (hps : List.Forall₂ R xs ps)
    (hqs : List.Forall₂ S ys qs)
    (hone : ∀ x ∈ xs, ∀ y p q, T x y → R x p → S y q → p = q) : ps = qs := by
  induction h generalizing ps qs with
  | nil =>
      cases hps
      cases hqs
      rfl
  | @cons x y xs ys hxy _ ih =>
      cases hps with
      | cons hp hps =>
          cases hqs with
          | cons hq hqs =>
              rw [hone x List.mem_cons_self _ _ _ hxy hp hq,
                ih hps hqs fun a ha => hone a (List.mem_cons_of_mem _ ha)]

/-- Items with the same results are related when they are so one by one. -/
theorem related_of_results {T : α → β → Prop} {R : α → γ → Prop} {S : β → γ → Prop} {xs : List α}
    {ys : List β} {zs : List γ} (hxs : List.Forall₂ R xs zs) (hys : List.Forall₂ S ys zs)
    (hone : ∀ x ∈ xs, ∀ y ∈ ys, ∀ z, R x z → S y z → T x y) : List.Forall₂ T xs ys := by
  induction hxs generalizing ys with
  | nil =>
      cases hys
      exact .nil
  | @cons x z xs zs hx _ ih =>
      cases hys with
      | @cons y _ ys _ hy hys =>
          exact .cons (hone x List.mem_cons_self y List.mem_cons_self z hx hy)
            (ih hys fun a ha b hb =>
              hone a (List.mem_cons_of_mem _ ha) b (List.mem_cons_of_mem _ hb))

/-- Keys and values that are related apart are related together. -/
theorem forall₂_pairs_iff {R : α → γ → Prop} {S : β → δ → Prop} {xs : List (α × β)}
    {ys : List (γ × δ)} :
    List.Forall₂ (fun x y => R x.1 y.1 ∧ S x.2 y.2) xs ys ↔
      List.Forall₂ R (xs.map Prod.fst) (ys.map Prod.fst) ∧
        List.Forall₂ S (xs.map Prod.snd) (ys.map Prod.snd) := by
  simp only [List.forall₂_map_left_iff, List.forall₂_map_right_iff]
  constructor
  · intro h
    exact ⟨h.imp fun _ _ hxy => hxy.1, h.imp fun _ _ hxy => hxy.2⟩
  · intro hparts
    obtain ⟨hkeys, hvalues⟩ := hparts
    induction hkeys with
    | nil => exact .nil
    | cons hkey _ ih =>
        cases hvalues with
        | cons hvalue hvalues => exact .cons ⟨hkey, hvalue⟩ (ih hvalues)

end related

/-- The pieces of a map's entries move with the entries. -/
theorem EntryPieces.moved {entries moved : List (Cbor × Cbor)} {pieces : List (Bytes × Bytes)}
    (h : EntryPieces entries pieces) (horder : entries.Perm moved) :
    ∃ others, EntryPieces moved others ∧ pieces.Perm others := by
  obtain ⟨others, hothers, hperm⟩ := List.perm_comp_forall₂ horder.symm h
  exact ⟨others, hothers, hperm.symm⟩

/-- Moved pieces of a map's entries belong to entries that have moved. -/
theorem EntryPieces.of_moved {entries : List (Cbor × Cbor)} {pieces others : List (Bytes × Bytes)}
    (h : EntryPieces entries pieces) (horder : pieces.Perm others) :
    ∃ moved, EntryPieces moved others ∧ entries.Perm moved := by
  obtain ⟨moved, hmoved, hperm⟩ := List.perm_comp_forall₂ horder.symm h.flip
  exact ⟨moved, hmoved.flip, hperm.symm⟩

/-! ## Reordered values have one encoding -/

/-- **Reordered values have one encoding.**  The induction is on the first value.
The keys and values of a map are encoded alike, up to their order, and sorting
forgets that. -/
theorem Reordered.canonical_eq {v w : Cbor} (h : Reordered v w) {b c : Bytes}
    (hb : canonical v = .ok b) (hc : canonical w = .ok c) : b = c := by
  induction v using valueInduction generalizing w b c with
  | unsigned _ | negative _ | bytes _ | text _ | bool _ | null | float _ =>
      cases h
      exact Except.ok.inj (hb.symm.trans hc)
  | tag _ _ => cases hb
  | array items ih =>
      cases h with
      | @array _ others each =>
          rw [canonical] at hb hc
          obtain ⟨flat, hflat, hb⟩ := bind_eq_ok_iff.1 hb
          obtain ⟨flat', hflat', hc⟩ := bind_eq_ok_iff.1 hc
          obtain ⟨pieces, hpieces, rfl⟩ := canonicalItems_eq_ok_iff.1 hflat
          obtain ⟨pieces', hpieces', rfl⟩ := canonicalItems_eq_ok_iff.1 hflat'
          have hsame : pieces = pieces' := results_eq each hpieces hpieces'
            fun x hx _ _ _ hxy hp hq => ih x hx hxy hp hq
          rw [hsame, each.length_eq] at hb
          exact Except.ok.inj (hb.symm.trans hc)
  | map entries ih =>
      cases h with
      | @map _ moved others order keys values =>
          obtain ⟨ps, hps, hdistinct, rfl⟩ := canonical_map_eq_ok_iff.1 hb
          obtain ⟨qs, hqs, -, rfl⟩ := canonical_map_eq_ok_iff.1 hc
          obtain ⟨ms, hms, hperm⟩ := hps.moved order
          have hsame : ms = qs := results_eq (forall₂_pairs_iff.2 ⟨keys, values⟩) hms hqs
            fun x hx _ p q hxy hp hq => by
              obtain ⟨hkey, hvalue⟩ := ih x (order.mem_iff.2 hx)
              exact Prod.ext (hkey hxy.1 hp.1 hq.1) (hvalue hxy.2 hp.2 hq.2)
          subst hsame
          rw [sortByKey_eq_of_perm hperm hdistinct, hperm.length_eq]

/-! ## Values with one encoding are reordered -/

/-- Two values with one encoding have the same head and the same body. -/
theorem body_of_same {v w : Cbor} (hv : v.Sized) (hw : w.Sized) {b : Bytes}
    (hb : canonical v = .ok b) (hc : canonical w = .ok b) :
    v.major = w.major ∧ v.argument = w.argument ∧ ∃ p q, Body v p ∧ Body w q ∧ p = q := by
  obtain ⟨p, hp, hsplit⟩ := body_of_canonical hb
  obtain ⟨q, hq, hsplit'⟩ := body_of_canonical hc
  obtain ⟨hmajor, hargument, hbody⟩ := head_split v.major_lt w.major_lt (argument_lt hv)
    (argument_lt hw) (hsplit.symm.trans hsplit')
  exact ⟨hmajor, hargument, p, q, hp, hq, hbody⟩

/-- The items of a sized array are sized. -/
theorem Sized.items {items : List Cbor} (h : Sized (.array items)) : ∀ x ∈ items, Sized x := by
  cases h with
  | array _ each => exact each

/-- The keys and values of a sized map are sized. -/
theorem Sized.entries {entries : List (Cbor × Cbor)} (h : Sized (.map entries)) :
    ∀ e ∈ entries, Sized e.1 ∧ Sized e.2 := by
  cases h with
  | map _ keys values => exact fun e he => ⟨keys e he, values e he⟩

/-- Arrays with one body have the same pieces. -/
theorem pieces_of_arrays {xs ys : List Cbor} (hxs : Sized (.array xs)) (hys : Sized (.array ys))
    (hlength : xs.length = ys.length) {p q : Bytes} (hp : Body (.array xs) p)
    (hq : Body (.array ys) q) (hbody : p = q) :
    ∃ pieces, List.Forall₂ (fun x p => canonical x = .ok p) xs pieces ∧
      List.Forall₂ (fun y p => canonical y = .ok p) ys pieces := by
  cases hp with
  | @array _ ps hps =>
      cases hq with
      | @array _ qs hqs =>
          have hsplit : ps.flatMap id ++ [] = qs.flatMap id ++ [] := by rw [hbody]
          obtain ⟨rfl, -⟩ := items_split (fun x hx => splits_of_sized (hxs.items x hx)) hys.items
            hlength hps hqs hsplit
          exact ⟨ps, hps, hqs⟩

/-- Maps with one body have the same pieces, up to their order. -/
theorem pieces_of_maps {xs ys : List (Cbor × Cbor)} (hxs : Sized (.map xs)) (hys : Sized (.map ys))
    (hlength : xs.length = ys.length) {p q : Bytes} (hp : Body (.map xs) p)
    (hq : Body (.map ys) q) (hbody : p = q) :
    ∃ ps qs, EntryPieces xs ps ∧ EntryPieces ys qs ∧ ps.Perm qs := by
  cases hp with
  | @map _ ps hps =>
      cases hq with
      | @map _ qs hqs =>
          have hsplit : ((sortByKey ps).flatMap fun p => p.1 ++ p.2) ++ []
              = ((sortByKey qs).flatMap fun p => p.1 ++ p.2) ++ [] := by rw [hbody]
          obtain ⟨hsorted, -⟩ := entries_split
            (fun x hx =>
              ⟨splits_of_sized (hxs.entries x hx).1, splits_of_sized (hxs.entries x hx).2⟩)
            (fun y hy => (hys.entries y hy).1) (fun y hy => (hys.entries y hy).2) hlength hps hqs
            hsplit
          exact ⟨ps, qs, hps, hqs, (sortByKey_perm ps).symm.trans (hsorted ▸ sortByKey_perm qs)⟩

/-- **Values with one encoding are reordered.**  The induction is on the first
value.  The pieces of an array are told by its body, and so are those of a map's
entries, up to their order. -/
theorem reordered_of_canonical {v w : Cbor} (hv : v.Sized) (hw : w.Sized) {b : Bytes}
    (hb : canonical v = .ok b) (hc : canonical w = .ok b) : Reordered v w := by
  induction v using valueInduction generalizing w b with
  | float _ | tag _ _ => cases hb
  | unsigned n =>
      obtain ⟨hmajor, hargument, -⟩ := body_of_same hv hw hb hc
      cases w with
      | unsigned m => exact UInt64.toNat_inj.1 hargument ▸ .unsigned n
      | _ => simp [major] at hmajor
  | negative n =>
      obtain ⟨hmajor, hargument, -⟩ := body_of_same hv hw hb hc
      cases w with
      | negative m => exact UInt64.toNat_inj.1 hargument ▸ .negative n
      | _ => simp [major] at hmajor
  | bytes content =>
      obtain ⟨hmajor, -⟩ := body_of_same hv hw hb hc
      cases w with
      | bytes other =>
          have hsame := canonical_bytes_eq_iff (argument_lt hv) (argument_lt hw)
          exact hsame.1 (hb.trans hc.symm) ▸ .bytes content
      | _ => simp [major] at hmajor
  | text content =>
      obtain ⟨hmajor, -⟩ := body_of_same hv hw hb hc
      cases w with
      | text other =>
          have hsame := canonical_text_eq_iff (argument_lt hv) (argument_lt hw)
          exact hsame.1 (hb.trans hc.symm) ▸ .text content
      | _ => simp [major] at hmajor
  | bool value =>
      obtain ⟨hmajor, hargument, -⟩ := body_of_same hv hw hb hc
      cases w with
      | bool other =>
          cases value <;> cases other <;> first | exact .bool _ | simp [argument] at hargument
      | null => cases value <;> simp [argument] at hargument
      | float _ => cases hc
      | _ => simp [major] at hmajor
  | null =>
      obtain ⟨hmajor, hargument, -⟩ := body_of_same hv hw hb hc
      cases w with
      | bool other => cases other <;> simp [argument] at hargument
      | null => exact .null
      | float _ => cases hc
      | _ => simp [major] at hmajor
  | array items ih =>
      obtain ⟨hmajor, hargument, p, q, hp, hq, hbody⟩ := body_of_same hv hw hb hc
      cases w with
      | array others =>
          obtain ⟨pieces, hitems, hothers⟩ := pieces_of_arrays hv hw hargument hp hq hbody
          refine .array (related_of_results hitems hothers fun x hx y hy z hxz hyz => ?_)
          exact ih x hx (hv.items x hx) (hw.items y hy) hxz hyz
      | _ => simp [major] at hmajor
  | map entries ih =>
      obtain ⟨hmajor, hargument, p, q, hp, hq, hbody⟩ := body_of_same hv hw hb hc
      cases w with
      | map others =>
          obtain ⟨ps, qs, hps, hqs, horder⟩ := pieces_of_maps hv hw hargument hp hq hbody
          obtain ⟨moved, hmoved, hperm⟩ := hps.of_moved horder
          have hrelated := related_of_results
            (T := fun x y => Reordered x.1 y.1 ∧ Reordered x.2 y.2)
            hmoved hqs fun x hx y hy z hxz hyz => by
              have hx := hperm.mem_iff.2 hx
              obtain ⟨hkey, hvalue⟩ := hv.entries x hx
              obtain ⟨hkey', hvalue'⟩ := hw.entries y hy
              exact ⟨(ih x hx).1 hkey hkey' hxz.1 hyz.1, (ih x hx).2 hvalue hvalue' hxz.2 hyz.2⟩
          obtain ⟨hkeys, hvalues⟩ := forall₂_pairs_iff.1 hrelated
          exact .map hperm hkeys hvalues
      | _ => simp [major] at hmajor

/-- **Identity.**  Two values that have canonical encodings have the same one
exactly when they are equal up to the order of map entries, and neither encoding
goes on as the other. -/
theorem canonicalBytes_eq_iff_reordered {v w : Cbor} {b c : Bytes} (hv : v.Sized) (hw : w.Sized)
    (hb : canonicalBytes v = .ok b) (hc : canonicalBytes w = .ok c) :
    (b = c ↔ Reordered v w) ∧ (b <+: c → b = c) := by
  have hb := mapError_eq_ok_iff.1 hb
  have hc := mapError_eq_ok_iff.1 hc
  refine ⟨⟨?_, fun h => h.canonical_eq hb hc⟩, ?_⟩
  · intro hsame
    subst hsame
    exact reordered_of_canonical hv hw hb hc
  · intro hprefix
    obtain ⟨rest, hrest⟩ := hprefix
    have hsplit : b ++ rest = c ++ [] := by rw [hrest, List.append_nil]
    exact (splits_of_sized hv hw hb hc hsplit).1

/-- A map with a map for a key. -/
def mapUnderKey : Cbor :=
  .map [(.map [(.unsigned 1, .null), (.unsigned 2, .null)], .text "a"), (.negative 0, .bytes [])]

/-- The same with the entries of both maps the other way round. -/
def mapUnderKeyMoved : Cbor :=
  .map [(.negative 0, .bytes []), (.map [(.unsigned 2, .null), (.unsigned 1, .null)], .text "a")]

/-- A map of two numbers to null is sized. -/
theorem sized_pair (m n : UInt64) : Sized (.map [(.unsigned m, .null), (.unsigned n, .null)]) := by
  refine .map (by simp) ?_ ?_ <;> simp [Sized.unsigned, Sized.null]

/-- Both example maps are sized. -/
theorem sized_mapUnderKey : Sized mapUnderKey ∧ Sized mapUnderKeyMoved := by
  have htext : Sized (.text "a") := .text (by decide)
  have hbytes : Sized (.bytes []) := .bytes (by decide)
  constructor
  · refine .map (by decide) ?_ ?_ <;> simp [sized_pair, htext, hbytes, Sized.negative]
  · refine .map (by decide) ?_ ?_ <;> simp [sized_pair, htext, hbytes, Sized.negative]

/-- One encoding, so the entries are the same up to their order, in the key as well. -/
theorem canonicalBytes_eq_iff_reordered_mapUnderKey :
    canonicalBytes mapUnderKey = canonicalBytes mapUnderKeyMoved ∧
      Reordered mapUnderKey mapUnderKeyMoved := by
  obtain ⟨hsized, hsized'⟩ := sized_mapUnderKey
  have hb : canonicalBytes mapUnderKey
      = .ok [0xa2, 0x20, 0x40, 0xa2, 0x01, 0xf6, 0x02, 0xf6, 0x61, 0x61] := by decide
  have hc : canonicalBytes mapUnderKeyMoved
      = .ok [0xa2, 0x20, 0x40, 0xa2, 0x01, 0xf6, 0x02, 0xf6, 0x61, 0x61] := by decide
  exact ⟨hb.trans hc.symm, (canonicalBytes_eq_iff_reordered hsized hsized' hb hc).1.1 rfl⟩

end KeyExchange.Cbor
