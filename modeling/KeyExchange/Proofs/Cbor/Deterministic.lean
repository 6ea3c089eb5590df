import Mathlib.Algebra.Group.Int.Defs
import KeyExchange.Proofs.Cbor.Order

/-!
# The deterministic form

A value has a canonical encoding unless there is a floating point number, a tag, or a map
with one key twice somewhere in it, be it inside a key.  Two keys are one when they are
equal up to the order of map entries.  The encoding is the deterministic form of the
value: every head is as short as it can be, and in every map the entries stand in strictly
ascending order of their encoded keys.

* `HeadForm`, `ShortestHead`: the ways in which a head can be written, and the shortest;
* `Deterministic`: the octets are a value in deterministic form;
* `canonical_eq_ok_iff_deterministic`: the encoding is that form and no other;
* `Occurs`, `Blames`: what there is somewhere in a value, and what a fault says of it;
* `failsOnly_canonical`, `not_blames_of_encodable`: a fault says what there is, and there is
  nothing of the kind in a value that is encoded;
* `canonicalBytes_exact`: both, for content.
-/

namespace KeyExchange.Cbor

open Outcome

/-! ## Heads -/

/-- A head: the major type and beside it the argument, or beside it a mark and behind it the
argument in one, two, four or eight octets, most significant first. -/
inductive HeadForm (major argument : Nat) : Bytes → Prop where
  | beside (few : argument < 24) :
      HeadForm major argument [UInt8.ofNat (32 * major + argument)]
  | behind {k : Nat} (hk : k < 4) (fits : argument < 256 ^ 2 ^ k) :
      HeadForm major argument (UInt8.ofNat (32 * major + (24 + k)) :: ofNatBE (2 ^ k) argument)

/-- A head that no other way of writing it makes shorter. -/
def ShortestHead (major argument : Nat) (h : Bytes) : Prop :=
  HeadForm major argument h ∧ ∀ other, HeadForm major argument other → h.length ≤ other.length

section heads

variable {major argument : Nat} {h h' : Bytes}

/-- The length of a head tells how it was written. -/
theorem HeadForm.eq_of_length (hform : HeadForm major argument h)
    (hform' : HeadForm major argument h') (hlength : h.length = h'.length) : h = h' := by
  cases hform with
  | beside _ =>
      cases hform' with
      | beside _ => rfl
      | @behind k _ _ =>
          have hpos : 0 < 2 ^ k := Nat.two_pow_pos k
          simp only [List.length_cons, List.length_nil, length_ofNatBE] at hlength
          omega
  | @behind k _ _ =>
      cases hform' with
      | beside _ =>
          have hpos : 0 < 2 ^ k := Nat.two_pow_pos k
          simp only [List.length_cons, List.length_nil, length_ofNatBE] at hlength
          omega
      | @behind k' _ _ =>
          simp only [List.length_cons, length_ofNatBE, Nat.add_right_cancel_iff] at hlength
          obtain rfl : k = k' := (Nat.pow_right_inj (by decide)).1 hlength
          rfl

/-- There is one shortest head. -/
theorem ShortestHead.unique (hshort : ShortestHead major argument h)
    (hshort' : ShortestHead major argument h') : h = h' :=
  hshort.1.eq_of_length hshort'.1
    (Nat.le_antisymm (hshort.2 h' hshort'.1) (hshort'.2 h hshort.1))

/-- A head fits the widest form. -/
theorem HeadForm.argument_lt (hform : HeadForm major argument h) : argument < 2 ^ 64 := by
  cases hform with
  | beside few => omega
  | @behind k hk fits =>
      have hwidth : (2 : Nat) ^ k ≤ 2 ^ 3 := Nat.pow_le_pow_right (by decide) (by omega)
      have hwide : 256 ^ 2 ^ k ≤ 256 ^ 2 ^ 3 := Nat.pow_le_pow_right (by decide) hwidth
      exact Nat.lt_of_lt_of_le fits hwide

/-- A head with its argument behind it is the shortest when the argument fits neither beside
the major type nor the next narrower form. -/
theorem shortestHead_behind {k : Nat} (hk : k < 4) (fits : argument < 256 ^ 2 ^ k)
    (hlarge : 24 ≤ argument) (hnarrow : ∀ j, j + 1 = k → 256 ^ 2 ^ j ≤ argument) :
    ShortestHead major argument
      (UInt8.ofNat (32 * major + (24 + k)) :: ofNatBE (2 ^ k) argument) := by
  refine ⟨.behind hk fits, fun other hother => ?_⟩
  cases hother with
  | beside few => omega
  | @behind j _ fits' =>
      have hwidth : k ≤ j := by
        by_contra hlt
        obtain ⟨i, rfl⟩ : ∃ i, k = i + 1 := ⟨k - 1, by omega⟩
        have hle : (2 : Nat) ^ j ≤ 2 ^ i := Nat.pow_le_pow_right (by decide) (by omega)
        have hless : 256 ^ 2 ^ j ≤ 256 ^ 2 ^ i := Nat.pow_le_pow_right (by decide) hle
        exact Nat.not_lt.2 (Nat.le_trans hless (hnarrow i rfl)) fits'
      have hlength : (2 : Nat) ^ k ≤ 2 ^ j := Nat.pow_le_pow_right (by decide) hwidth
      simpa using hlength

/-- **Heads are as short as they can be.** -/
theorem shortestHead_head (major : Nat) (hfits : argument < 2 ^ 64) :
    ShortestHead major argument (head major argument) := by
  unfold head
  by_cases hfew : argument < 24
  · rw [if_pos hfew]
    refine ⟨.beside hfew, fun other hother => ?_⟩
    cases hother with
    | beside _ => exact Nat.le_refl _
    | behind _ _ => simp
  · have hlarge := Nat.not_lt.1 hfew
    rw [if_neg hfew]
    by_cases hone : argument < 1 <<< 8
    · rw [if_pos hone]
      exact shortestHead_behind (k := 0) (by decide) hone hlarge nofun
    · rw [if_neg hone]
      by_cases htwo : argument < 1 <<< 16
      · rw [if_pos htwo]
        refine shortestHead_behind (k := 1) (by decide) htwo hlarge fun j hj => ?_
        cases hj
        exact Nat.not_lt.1 hone
      · rw [if_neg htwo]
        by_cases hfour : argument < 1 <<< 32
        · rw [if_pos hfour]
          refine shortestHead_behind (k := 2) (by decide) hfour hlarge fun j hj => ?_
          cases hj
          exact Nat.not_lt.1 htwo
        · rw [if_neg hfour]
          refine shortestHead_behind (k := 3) (by decide) hfits hlarge fun j hj => ?_
          cases hj
          exact Nat.not_lt.1 hfour

/-- The shortest head is the one that is written. -/
theorem ShortestHead.eq_head (hshort : ShortestHead major argument h) :
    h = head major argument :=
  hshort.unique (shortestHead_head major hshort.1.argument_lt)

end heads

/-! ## The form -/

/-- The octets are the value in deterministic form.  An array is its items one after the
other.  A map is its entries, in whatever order makes their encoded keys ascend: each key
with its own value behind it, as many of them as the head says. -/
inductive Deterministic : Cbor → Bytes → Prop where
  | unsigned (n : UInt64) {h : Bytes} (shortest : ShortestHead 0 n.toNat h) :
      Deterministic (.unsigned n) h
  | negative (n : UInt64) {h : Bytes} (shortest : ShortestHead 1 n.toNat h) :
      Deterministic (.negative n) h
  | bytes (content : Bytes) {h : Bytes} (shortest : ShortestHead 2 content.length h) :
      Deterministic (.bytes content) (h ++ content)
  | text (content : String) {h : Bytes}
      (shortest : ShortestHead 3 (Text.Utf8.ofString content).length h) :
      Deterministic (.text content) (h ++ Text.Utf8.ofString content)
  | array {items : List Cbor} {pieces : List Bytes} {h : Bytes}
      (shortest : ShortestHead 4 items.length h)
      (each : List.Forall₂ Deterministic items pieces) :
      Deterministic (.array items) (h ++ pieces.flatten)
  | map {entries moved : List (Cbor × Cbor)} {pieces : List (Bytes × Bytes)} {h : Bytes}
      (shortest : ShortestHead 5 entries.length h) (order : entries.Perm moved)
      (keys : List.Forall₂ Deterministic (moved.map Prod.fst) (pieces.map Prod.fst))
      (values : List.Forall₂ Deterministic (moved.map Prod.snd) (pieces.map Prod.snd))
      (ascending : pieces.Pairwise fun p q => p.1 < q.1) :
      Deterministic (.map entries) (h ++ pieces.flatMap fun p => p.1 ++ p.2)
  | bool (value : Bool) {h : Bytes} (shortest : ShortestHead 7 (if value then 21 else 20) h) :
      Deterministic (.bool value) h
  | null {h : Bytes} (shortest : ShortestHead 7 22 h) : Deterministic .null h

/-- Sorted entries no two of which have one key ascend strictly. -/
theorem ascending_sortByKey {α : Type} {entries : List (Bytes × α)}
    (hdistinct : hasEqualNeighbours (sortByKey entries) = false) :
    (sortByKey entries).Pairwise fun a b => a.1 < b.1 := by
  have hsorted := sorted_sortByKey entries
  have hnodup := List.pairwise_map.1 (nodup_keys_of_sorted hsorted hdistinct)
  refine (hsorted.and hnodup).imp fun hboth => ?_
  obtain ⟨hle, hne⟩ := hboth
  by_contra hnot
  exact hne (List.le_antisymm hle (List.not_lt.1 hnot))

/-- Items that are related are related otherwise as well when each of them is. -/
theorem forall₂_imp_of_mem {α β : Type} {R S : α → β → Prop} {xs : List α} {ys : List β}
    (h : List.Forall₂ R xs ys) (himp : ∀ x ∈ xs, ∀ y, R x y → S x y) : List.Forall₂ S xs ys :=
  ((List.forall₂_and_left xs ys).2 ⟨himp, h⟩).imp fun _ y hboth => hboth.1 y hboth.2

/-- **An encoding is in deterministic form.**  The induction is on the value.  Sorting the
pieces of a map moves its entries along. -/
theorem deterministic_of_canonical {v : Cbor} (hv : v.Sized) {b : Bytes}
    (h : canonical v = .ok b) : Deterministic v b := by
  induction v using valueInduction generalizing b with
  | unsigned n =>
      cases h
      exact .unsigned n (shortestHead_head 0 n.toNat_lt)
  | negative n =>
      cases h
      exact .negative n (shortestHead_head 1 n.toNat_lt)
  | bytes content =>
      cases h
      exact .bytes content (shortestHead_head 2 (argument_lt hv))
  | text content =>
      cases h
      exact .text content (shortestHead_head 3 (argument_lt hv))
  | bool value =>
      have hhead : b = head 7 (if value then 21 else 20) := by
        cases value <;> (cases h; rfl)
      rw [hhead]
      exact .bool value (shortestHead_head 7 (by split <;> decide))
  | null =>
      cases h
      exact .null (shortestHead_head 7 (by decide))
  | float _ | tag _ _ => cases h
  | array items ih =>
      obtain ⟨pieces, hpieces, rfl⟩ := canonical_array_eq_ok_iff.1 h
      rw [List.flatMap_id]
      exact .array (shortestHead_head 4 (argument_lt hv))
        (forall₂_imp_of_mem hpieces fun x hx _ hp => ih x hx (hv.items x hx) hp)
  | map entries ih =>
      obtain ⟨pieces, hpieces, hdistinct, rfl⟩ := canonical_map_eq_ok_iff.1 h
      obtain ⟨moved, hmoved, horder⟩ := hpieces.of_moved (sortByKey_perm pieces).symm
      have hforms : List.Forall₂ (fun e p => Deterministic e.1 p.1 ∧ Deterministic e.2 p.2)
          moved (sortByKey pieces) := forall₂_imp_of_mem hmoved fun e he p hp => by
        have he := horder.mem_iff.2 he
        obtain ⟨hkey, hvalue⟩ := hv.entries e he
        exact ⟨(ih e he).1 hkey hp.1, (ih e he).2 hvalue hp.2⟩
      obtain ⟨hkeys, hvalues⟩ := forall₂_pairs_iff.1 hforms
      rw [← hpieces.length_eq]
      exact .map (shortestHead_head 5 (argument_lt hv)) horder hkeys hvalues
        (ascending_sortByKey hdistinct)

/-- **The deterministic form is the encoding.**  The induction is on the value.  Ascending
entries are what sorting makes of them in any order. -/
theorem canonical_of_deterministic {v : Cbor} {b : Bytes} (h : Deterministic v b) :
    canonical v = .ok b := by
  induction v using valueInduction generalizing b with
  | unsigned n =>
      cases h with
      | unsigned _ shortest => rw [shortest.eq_head, canonical]
  | negative n =>
      cases h with
      | negative _ shortest => rw [shortest.eq_head, canonical]
  | bytes content =>
      cases h with
      | bytes _ shortest => rw [shortest.eq_head, canonical]
  | text content =>
      cases h with
      | text _ shortest => rw [shortest.eq_head, canonical]
  | bool value =>
      cases h with
      | bool _ shortest => rw [shortest.eq_head]; cases value <;> rfl
  | null =>
      cases h with
      | null shortest => rw [shortest.eq_head]; rfl
  | float _ | tag _ _ => cases h
  | array items ih =>
      cases h with
      | @array _ pieces _ shortest each =>
          refine canonical_array_eq_ok_iff.2 ⟨pieces, forall₂_imp_of_mem each ?_, ?_⟩
          · exact fun x hx _ hp => ih x hx hp
          · rw [shortest.eq_head, List.flatMap_id]
  | map entries ih =>
      cases h with
      | @map _ moved pieces _ shortest order keys values ascending =>
          have hmoved : EntryPieces moved pieces :=
            forall₂_imp_of_mem (forall₂_pairs_iff.2 ⟨keys, values⟩) fun e he p hp => by
              obtain ⟨hkey, hvalue⟩ := ih e (order.mem_iff.2 he)
              exact ⟨hkey hp.1, hvalue hp.2⟩
          obtain ⟨others, hothers, hperm⟩ := hmoved.moved order.symm
          have hdistinct : hasEqualNeighbours (sortByKey pieces) = false := by
            rw [sortByKey_of_ascending ascending]
            exact hasEqualNeighbours_of_ascending ascending
          have hsorted := sortByKey_eq_of_perm hperm hdistinct
          refine canonical_map_eq_ok_iff.2 ⟨others, hothers, hsorted ▸ hdistinct, ?_⟩
          rw [← hsorted, sortByKey_of_ascending ascending, ← hothers.length_eq, shortest.eq_head]

/-- **One form.** -/
theorem canonical_eq_ok_iff_deterministic {v : Cbor} (hv : v.Sized) {b : Bytes} :
    canonical v = .ok b ↔ Deterministic v b :=
  ⟨deterministic_of_canonical hv, canonical_of_deterministic⟩

/-! ## What there is in a value -/

/-- Somewhere in the value there is `x`: the value itself, or in an item, in a key or a value
of a map, or in the content of a tag. -/
inductive Occurs (x : Cbor) : Cbor → Prop where
  | self : Occurs x x
  | item {items : List Cbor} {y : Cbor} (member : y ∈ items) (inner : Occurs x y) :
      Occurs x (.array items)
  | key {entries : List (Cbor × Cbor)} {e : Cbor × Cbor} (member : e ∈ entries)
      (inner : Occurs x e.1) : Occurs x (.map entries)
  | value {entries : List (Cbor × Cbor)} {e : Cbor × Cbor} (member : e ∈ entries)
      (inner : Occurs x e.2) : Occurs x (.map entries)
  | content (number : UInt64) {y : Cbor} (inner : Occurs x y) : Occurs x (.tag number y)

/-- No two keys of a map are one: they differ in more than the order of map entries. -/
def KeysDiffer (entries : List (Cbor × Cbor)) : Prop :=
  (entries.map Prod.fst).Pairwise fun j k => ¬Reordered j k

/-- What a fault says there is somewhere in the value. -/
def Blames (v : Cbor) : EncodingFault → Prop
  | .float => ∃ bits, Occurs (.float bits) v
  | .tag => ∃ number content, Occurs (.tag number content) v
  | .duplicateKey => ∃ entries, Occurs (.map entries) v ∧ ¬KeysDiffer entries

/-- A fault that blames a value blames every value around it. -/
theorem Blames.mono {v w : Cbor} (hinner : ∀ x, Occurs x v → Occurs x w) {fault : EncodingFault}
    (h : v.Blames fault) : w.Blames fault := by
  cases fault with
  | float =>
      obtain ⟨bits, hoccurs⟩ := h
      exact ⟨bits, hinner _ hoccurs⟩
  | tag =>
      obtain ⟨number, content, hoccurs⟩ := h
      exact ⟨number, content, hinner _ hoccurs⟩
  | duplicateKey =>
      obtain ⟨entries, hoccurs, hkeys⟩ := h
      exact ⟨entries, hinner _ hoccurs, hkeys⟩

/-! ### Keys and their encodings -/

/-- In a list without repetitions no neighbours are equal. -/
theorem hasEqualNeighbours_of_nodup {α : Type} :
    ∀ {entries : List (Bytes × α)}, (entries.map Prod.fst).Nodup →
      hasEqualNeighbours entries = false
  | [], _ => rfl
  | [_], _ => rfl
  | a :: b :: rest, h => by
      obtain ⟨hfirst, hrest⟩ := List.nodup_cons.1 h
      have hne : a.1 ≠ b.1 := fun hsame => hfirst (hsame ▸ List.mem_cons_self)
      rw [hasEqualNeighbours, hasEqualNeighbours_of_nodup hrest, Bool.or_false]
      exact beq_false_of_ne hne

/-- Neighbours are looked at after sorting, and two equal keys are neighbours then. -/
theorem hasEqualNeighbours_sortByKey_iff {α : Type} {entries : List (Bytes × α)} :
    hasEqualNeighbours (sortByKey entries) = false ↔ (entries.map Prod.fst).Nodup := by
  have hperm : ((sortByKey entries).map Prod.fst).Perm (entries.map Prod.fst) :=
    (sortByKey_perm entries).map Prod.fst
  rw [← hperm.nodup_iff]
  exact ⟨nodup_keys_of_sorted (sorted_sortByKey entries), hasEqualNeighbours_of_nodup⟩

/-- Keys with different encodings are different keys. -/
theorem pairwise_of_nodup {xs : List Cbor} {ps : List Bytes}
    (hps : List.Forall₂ (fun x p => canonical x = .ok p) xs ps) (h : ps.Nodup) :
    xs.Pairwise fun j k => ¬Reordered j k := by
  induction hps with
  | nil => exact .nil
  | @cons x p xs ps hx hrest ih =>
      obtain ⟨hnew, hothers⟩ := List.nodup_cons.1 h
      refine List.pairwise_cons.2 ⟨fun y hy hsame => ?_, ih hothers⟩
      obtain ⟨q, hq, hyq⟩ := exists_right_of_forall₂ hrest hy
      exact hnew (hsame.canonical_eq hx hyq ▸ hq)

/-- Different keys have different encodings. -/
theorem nodup_of_pairwise {xs : List Cbor} {ps : List Bytes} (hxs : ∀ x ∈ xs, Sized x)
    (hps : List.Forall₂ (fun x p => canonical x = .ok p) xs ps)
    (h : xs.Pairwise fun j k => ¬Reordered j k) : ps.Nodup := by
  induction hps with
  | nil => exact .nil
  | @cons x p xs ps hx hrest ih =>
      obtain ⟨hdiffer, hpairs⟩ := List.pairwise_cons.1 h
      obtain ⟨hfirst, hothers⟩ := List.forall_mem_cons.1 hxs
      refine List.nodup_cons.2 ⟨fun hmem => ?_, ih hothers hpairs⟩
      obtain ⟨y, hy, hyp⟩ := exists_left_of_forall₂ hrest hmem
      exact hdiffer y hy (reordered_of_canonical hfirst (hothers y hy) hx hyp)

/-! ### Faults -/

/-- Items fail as one of them does. -/
theorem failsOnly_canonicalItems {P : EncodingFault → Prop} {items : List Cbor}
    (h : ∀ x ∈ items, FailsOnly P (canonical x)) : FailsOnly P (canonicalItems items) := by
  induction items with
  | nil => exact .ok []
  | cons item rest ih =>
      obtain ⟨hfirst, hrest⟩ := List.forall_mem_cons.1 h
      exact hfirst.bind fun _ => (ih hrest).bind fun _ => .ok _

/-- The first pass over a map: its keys are encoded, and its values are set aside. -/
theorem keyed_eq_ok_iff {entries : List (Cbor × Cbor)}
    {keyed : List (Bytes × Except EncodingFault Bytes)} :
    ((entries.map fun e => (canonical e.1, canonical e.2)).mapM fun e => do return (← e.1, e.2))
        = .ok keyed ↔
      List.Forall₂ (fun e k => canonical e.1 = .ok k.1 ∧ canonical e.2 = k.2) entries keyed := by
  rw [mapM_eq_ok_iff, List.forall₂_map_left_iff]
  refine iff_of_eq (congrArg (List.Forall₂ · entries keyed) ?_)
  funext e k
  rw [bind_eq_ok_iff, eq_iff_iff]
  constructor
  · intro hparts
    obtain ⟨b, hb, hpair⟩ := hparts
    cases hpair
    exact ⟨hb, rfl⟩
  · intro hparts
    exact ⟨k.1, hparts.1, by rw [hparts.2]; rfl⟩

/-- A map fails for a key, for two keys that are one, or for a value. -/
theorem failsOnly_map {entries : List (Cbor × Cbor)} (hsized : ∀ e ∈ entries, Sized e.1)
    (hkeys : ∀ e ∈ entries, FailsOnly (Blames (.map entries)) (canonical e.1))
    (hvalues : ∀ e ∈ entries, FailsOnly (Blames (.map entries)) (canonical e.2)) :
    FailsOnly (Blames (.map entries)) (canonical (.map entries)) := by
  rw [canonical, canonicalEntries_eq_map, assembleMap_eq]
  refine FailsOnly.bind_of_ok (FailsOnly.mapM_of_mem fun pair hpair => ?_) fun keyed hkeyed => ?_
  · obtain ⟨e, he, rfl⟩ := List.mem_map.1 hpair
    exact (hkeys e he).bind fun _ => .ok _
  · have hpieces := keyed_eq_ok_iff.1 hkeyed
    by_cases hequal : hasEqualNeighbours (sortByKey keyed) = true
    · rw [if_pos hequal]
      refine .error ⟨entries, .self, fun hdiffer => ?_⟩
      have hencoded : List.Forall₂ (fun x p => canonical x = .ok p) (entries.map Prod.fst)
          (keyed.map Prod.fst) := by
        rw [List.forall₂_map_left_iff, List.forall₂_map_right_iff]
        exact hpieces.imp fun _ _ hboth => hboth.1
      have hnodup := nodup_of_pairwise (List.forall_mem_map.2 hsized) hencoded hdiffer
      rw [hasEqualNeighbours_sortByKey_iff.2 hnodup] at hequal
      cases hequal
    · rw [if_neg hequal]
      refine (FailsOnly.mapM_of_mem fun k hk => ?_).bind fun _ => .ok _
      obtain ⟨e, he, -, hvalue⟩ :=
        exists_left_of_forall₂ hpieces ((sortByKey_perm keyed).mem_iff.1 hk)
      exact (hvalue ▸ hvalues e he).bind fun _ => .ok _

/-- **A fault says what there is.**  The induction is on the value: what is blamed in a part
of it is somewhere in the whole. -/
theorem failsOnly_canonical {v : Cbor} (hv : v.Sized) : FailsOnly v.Blames (canonical v) := by
  induction v using valueInduction with
  | unsigned _ | negative _ | bytes _ | text _ | null => exact .ok _
  | bool value => cases value <;> exact .ok _
  | float bits => exact .error ⟨bits, .self⟩
  | tag number content => exact .error ⟨number, content, .self⟩
  | array items ih =>
      refine (failsOnly_canonicalItems fun x hx => ?_).bind fun _ => .ok _
      exact fun fault hfault =>
        (ih x hx (hv.items x hx) fault hfault).mono fun _ hinner => .item hx hinner
  | map entries ih =>
      refine failsOnly_map (fun e he => (hv.entries e he).1) (fun e he => ?_) fun e he => ?_
      · exact fun fault hfault =>
          ((ih e he).1 (hv.entries e he).1 fault hfault).mono fun _ hinner => .key he hinner
      · exact fun fault hfault =>
          ((ih e he).2 (hv.entries e he).2 fault hfault).mono fun _ hinner => .value he hinner

/-- Whatever there is in an encodable value is encodable. -/
theorem Occurs.encodable {x v : Cbor} (h : Occurs x v) (hv : v.Encodable) : x.Encodable := by
  induction h with
  | self => exact hv
  | item member _ ih =>
      obtain ⟨b, hb⟩ := hv
      obtain ⟨pieces, hpieces, -⟩ := canonical_array_eq_ok_iff.1 hb
      obtain ⟨p, -, hp⟩ := exists_right_of_forall₂ hpieces member
      exact ih ⟨p, hp⟩
  | key member _ ih =>
      obtain ⟨b, hb⟩ := hv
      obtain ⟨pieces, hpieces, -⟩ := canonical_map_eq_ok_iff.1 hb
      obtain ⟨p, -, hp, -⟩ := exists_right_of_forall₂ hpieces member
      exact ih ⟨p.1, hp⟩
  | value member _ ih =>
      obtain ⟨b, hb⟩ := hv
      obtain ⟨pieces, hpieces, -⟩ := canonical_map_eq_ok_iff.1 hb
      obtain ⟨p, -, -, hp⟩ := exists_right_of_forall₂ hpieces member
      exact ih ⟨p.2, hp⟩
  | content number _ _ =>
      obtain ⟨b, hb⟩ := hv
      cases hb

/-- **Nothing that a fault could blame** is in a value that is encoded. -/
theorem not_blames_of_encodable {v : Cbor} (hv : v.Encodable) (fault : EncodingFault) :
    ¬v.Blames fault := by
  cases fault with
  | float =>
      intro ⟨bits, hoccurs⟩
      obtain ⟨b, hb⟩ := hoccurs.encodable hv
      cases hb
  | tag =>
      intro ⟨number, content, hoccurs⟩
      obtain ⟨b, hb⟩ := hoccurs.encodable hv
      cases hb
  | duplicateKey =>
      intro ⟨entries, hoccurs, htwice⟩
      obtain ⟨b, hb⟩ := hoccurs.encodable hv
      obtain ⟨pieces, hpieces, hdistinct, -⟩ := canonical_map_eq_ok_iff.1 hb
      have hkeys : List.Forall₂ (fun x p => canonical x = .ok p) (entries.map Prod.fst)
          (pieces.map Prod.fst) := by
        rw [List.forall₂_map_left_iff, List.forall₂_map_right_iff]
        exact hpieces.imp fun _ _ hboth => hboth.1
      exact htwice (pairwise_of_nodup hkeys (hasEqualNeighbours_sortByKey_iff.1 hdistinct))

/-- **What can be encoded**: all values in which there is nothing to blame. -/
theorem encodable_iff {v : Cbor} (hv : v.Sized) :
    v.Encodable ↔ ∀ fault, ¬v.Blames fault := by
  constructor
  · exact not_blames_of_encodable
  · intro hclean
    rcases hfault : canonical v with fault | b
    · exact absurd (failsOnly_canonical hv fault hfault) (hclean fault)
    · exact ⟨b, hfault⟩

/-! ## Content -/

/-- An integer is a head: of major type 0 when it is not negative, and of major type 1 with
`-1 - i` for its argument when it is. -/
theorem exists_head_of_integer {i : Int} (hlow : -2 ^ 64 ≤ i) (hhigh : i < 2 ^ 64) :
    ∃ v h, ofInt? i = some v ∧ canonicalBytes v = .ok h ∧
      ShortestHead (if i < 0 then 1 else 0) (if i < 0 then -1 - i else i).toNat h := by
  cases i with
  | ofNat n =>
      rw [Int.ofNat_eq_natCast] at hhigh
      have hfits : n < 2 ^ 64 := by omega
      have hnat : (UInt64.ofNat n).toNat = n := UInt64.toNat_ofNat_of_lt' hfits
      refine ⟨.unsigned (UInt64.ofNat n), head 0 n, if_pos hfits, ?_, ?_⟩
      · rw [canonicalBytes, canonical, hnat]
        rfl
      · exact shortestHead_head 0 hfits
  | negSucc n =>
      have hfits : n < 2 ^ 64 := by omega
      have hnat : (UInt64.ofNat n).toNat = n := UInt64.toNat_ofNat_of_lt' hfits
      have hargument : (-1 - Int.negSucc n).toNat = n := by omega
      refine ⟨.negative (UInt64.ofNat n), head 1 n, if_pos hfits, ?_, ?_⟩
      · rw [canonicalBytes, canonical, hnat]
        rfl
      · rw [if_pos (Int.negSucc_lt_zero n), if_pos (Int.negSucc_lt_zero n), hargument]
        exact shortestHead_head 1 hfits

/-- **What is encoded, and how.**  Content whose lengths fit a head is encoded exactly when
there is no floating point number and no tag anywhere in it, and no map with one key twice.
When it is not, the fault is one of encoding and says what there is.  When it is, the octets
are its deterministic form, and no other octets are.  Every integer from `-2 ^ 64` to
`2 ^ 64 - 1` is content, and its form is the shortest head. -/
theorem canonicalBytes_exact {v : Cbor} (hv : v.Sized) :
    ((∃ b, canonicalBytes v = .ok b) ↔
      (∀ bits, ¬Occurs (.float bits) v) ∧ (∀ number content, ¬Occurs (.tag number content) v) ∧
        ∀ entries, Occurs (.map entries) v → KeysDiffer entries) ∧
    (∀ fault, canonicalBytes v = .error fault →
      ∃ reason, fault = .encoding reason ∧ v.Blames reason) ∧
    (∀ b, canonicalBytes v = .ok b ↔ Deterministic v b) ∧
    ∀ i : Int, -2 ^ 64 ≤ i → i < 2 ^ 64 →
      ∃ w h, ofInt? i = some w ∧ canonicalBytes w = .ok h ∧
        ShortestHead (if i < 0 then 1 else 0) (if i < 0 then -1 - i else i).toNat h := by
  have hencoded (b : Bytes) : canonicalBytes v = .ok b ↔ canonical v = .ok b := mapError_eq_ok_iff
  refine ⟨?_, ?_, ?_, fun i => exists_head_of_integer⟩
  · simp only [hencoded]
    refine (encodable_iff hv).trans ⟨fun hclean => ⟨?_, ?_, ?_⟩, fun hparts fault => ?_⟩
    · exact fun bits hoccurs => hclean .float ⟨bits, hoccurs⟩
    · exact fun number content hoccurs => hclean .tag ⟨number, content, hoccurs⟩
    · exact fun entries hoccurs => not_not.1 fun htwice =>
        hclean .duplicateKey ⟨entries, hoccurs, htwice⟩
    · obtain ⟨hfloats, htags, hkeys⟩ := hparts
      cases fault with
      | float => exact fun ⟨bits, hoccurs⟩ => hfloats bits hoccurs
      | tag => exact fun ⟨number, content, hoccurs⟩ => htags number content hoccurs
      | duplicateKey => exact fun ⟨entries, hoccurs, htwice⟩ => htwice (hkeys entries hoccurs)
  · intro fault hfault
    unfold canonicalBytes at hfault
    rcases hreason : canonical v with reason | b
    · rw [hreason] at hfault
      cases hfault
      exact ⟨reason, rfl, failsOnly_canonical hv reason hreason⟩
    · rw [hreason] at hfault
      cases hfault
  · exact fun b => (hencoded b).trans (canonical_eq_ok_iff_deterministic hv)

/-- A map with one key twice, of which the second is written the other way round. -/
def mapWithKeyTwice : Cbor :=
  .map [(.map [(.unsigned 1, .null), (.unsigned 2, .null)], .text "a"),
    (.map [(.unsigned 2, .null), (.unsigned 1, .null)], .text "b")]

/-- All lengths in the map with a key twice fit a head. -/
theorem sized_mapWithKeyTwice : Sized mapWithKeyTwice := by
  have ha : Sized (.text "a") := .text (by decide)
  have hb : Sized (.text "b") := .text (by decide)
  refine .map (by decide) ?_ ?_ <;> simp [sized_pair, ha, hb]

/-- The map with a map for a key is encoded, in ascending order of its keys; the one with a
key twice is not. -/
theorem canonicalBytes_exact_mapUnderKey :
    Deterministic mapUnderKey [0xa2, 0x20, 0x40, 0xa2, 0x01, 0xf6, 0x02, 0xf6, 0x61, 0x61] ∧
      ¬∃ b, canonicalBytes mapWithKeyTwice = .ok b := by
  constructor
  · obtain ⟨-, -, hform, -⟩ := canonicalBytes_exact sized_mapUnderKey.1
    exact (hform _).1 (by decide)
  · obtain ⟨hencodable, -⟩ := canonicalBytes_exact sized_mapWithKeyTwice
    intro hencoded
    obtain ⟨-, -, hkeys⟩ := hencodable.1 hencoded
    have hdiffer := hkeys _ .self
    have hsame : Reordered (.map [(.unsigned 1, .null), (.unsigned 2, .null)])
        (.map [(.unsigned 2, .null), (.unsigned 1, .null)]) := by
      refine .map (.swap _ _ _) ?_ ?_
      · exact .cons (.unsigned 2) (.cons (.unsigned 1) .nil)
      · exact .cons .null (.cons .null .nil)
    exact (List.pairwise_cons.1 hdiffer).1 _ List.mem_cons_self hsame

end KeyExchange.Cbor
