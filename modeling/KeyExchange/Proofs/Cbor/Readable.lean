import Mathlib.Data.List.Forall2
import Mathlib.Data.List.Perm.Basic
import KeyExchange.Cbor.Canonical
import KeyExchange.Proofs.Octets
import KeyExchange.Proofs.Outcome
import KeyExchange.Proofs.Text.Utf8

/-!
# Canonical encodings can be told from what follows them

Every item starts with a head, and a head says how it goes on: its first octet
gives the major type and the width of the argument, and the argument gives the
number of octets or of items behind it.  So of two encodings with something
behind each, neither can end inside the other.

* `head_append_inj`, `head_split`: the same for heads alone;
* `canonicalItems_eq_ok_iff`, `canonical_map_eq_ok_iff`: what the encoding of
  an array or a map consists of;
* `canonical_split`: two encodings at the start of one string are the same
  encoding.

Lengths have to fit the eight octets of the widest head (`Sized`).
-/

namespace KeyExchange

namespace Cbor

open Outcome

/-- Induction over a value: an array from its items, a map from its keys and
values. -/
@[elab_as_elim]
theorem valueInduction {motive : Cbor → Prop}
    (unsigned : ∀ n, motive (.unsigned n)) (negative : ∀ n, motive (.negative n))
    (bytes : ∀ content, motive (.bytes content)) (text : ∀ content, motive (.text content))
    (bool : ∀ value, motive (.bool value)) (null : motive .null)
    (float : ∀ bits, motive (.float bits)) (tag : ∀ number content, motive (.tag number content))
    (array : ∀ items, (∀ x ∈ items, motive x) → motive (.array items))
    (map : ∀ entries, (∀ e ∈ entries, motive e.1 ∧ motive e.2) → motive (.map entries)) :
    ∀ v, motive v
  | .unsigned n => unsigned n
  | .negative n => negative n
  | .bytes content => bytes content
  | .text content => text content
  | .bool value => bool value
  | .null => null
  | .float bits => float bits
  | .tag number content => tag number content
  | .array items => array items fun x _ =>
      valueInduction unsigned negative bytes text bool null float tag array map x
  | .map entries => map entries fun e _ =>
      ⟨valueInduction unsigned negative bytes text bool null float tag array map e.1,
        valueInduction unsigned negative bytes text bool null float tag array map e.2⟩
termination_by v => sizeOf v
decreasing_by
  · have := List.sizeOf_lt_of_mem ‹x ∈ items›
    simp only [Cbor.array.sizeOf_spec]
    omega
  · have := List.sizeOf_lt_of_mem ‹e ∈ entries›
    have : sizeOf e = 1 + sizeOf e.1 + sizeOf e.2 := by cases e; rfl
    simp only [Cbor.map.sizeOf_spec]
    omega
  · have := List.sizeOf_lt_of_mem ‹e ∈ entries›
    have : sizeOf e = 1 + sizeOf e.1 + sizeOf e.2 := by cases e; rfl
    simp only [Cbor.map.sizeOf_spec]
    omega

/-- Every length in the value fits a head. -/
inductive Sized : Cbor → Prop where
  | unsigned (n : UInt64) : Sized (.unsigned n)
  | negative (n : UInt64) : Sized (.negative n)
  | bytes {content : Bytes} (short : content.length < 2 ^ 64) : Sized (.bytes content)
  | text {content : String} (short : (Text.Utf8.ofString content).length < 2 ^ 64) :
      Sized (.text content)
  | bool (value : Bool) : Sized (.bool value)
  | null : Sized .null
  | float (bits : UInt64) : Sized (.float bits)
  | tag (number : UInt64) (content : Cbor) : Sized (.tag number content)
  | array {items : List Cbor} (short : items.length < 2 ^ 64) (each : ∀ x ∈ items, Sized x) :
      Sized (.array items)
  | map {entries : List (Cbor × Cbor)} (short : entries.length < 2 ^ 64)
      (keys : ∀ e ∈ entries, Sized e.1) (values : ∀ e ∈ entries, Sized e.2) :
      Sized (.map entries)

/-! ## Heads -/

/-- The first octet of a head tells the major type and the five bits beside it. -/
theorem lead_inj {m m' i i' : Nat} (hm : m < 8) (hm' : m' < 8) (hi : i < 32) (hi' : i' < 32)
    (h : UInt8.ofNat (32 * m + i) = UInt8.ofNat (32 * m' + i')) : m = m' ∧ i = i' := by
  have hn := congrArg UInt8.toNat h
  rw [Text.Utf8.toNat_ofNat_of_lt (by omega), Text.Utf8.toNat_ofNat_of_lt (by omega)] at hn
  omega

/-- The width class of a head's argument: the five bits beside the major type
and the octets that follow. -/
theorem head_eq (m n : Nat) :
    ∃ info width, info < 32 ∧ head m n = UInt8.ofNat (32 * m + info) :: ofNatBE width n ∧
      ((n < 24 ∧ info = n ∧ width = 0) ∨ (24 ≤ n ∧ info = 24 ∧ width = 1 ∧ n < 256 ^ 1) ∨
       (24 ≤ n ∧ info = 25 ∧ width = 2 ∧ n < 256 ^ 2) ∨
       (24 ≤ n ∧ info = 26 ∧ width = 4 ∧ n < 256 ^ 4) ∨
       (24 ≤ n ∧ info = 27 ∧ width = 8)) := by
  unfold head
  split
  · exact ⟨n, 0, by omega, rfl, by omega⟩
  · split
    · exact ⟨24, 1, by omega, rfl, by omega⟩
    · split
      · exact ⟨25, 2, by omega, rfl, by omega⟩
      · split
        · exact ⟨26, 4, by omega, rfl, by omega⟩
        · exact ⟨27, 8, by omega, rfl, by omega⟩

/-- Two heads at the start of one string are the same, also when their arguments
do not fit. -/
theorem head_append_inj {j k n n' : Nat} {s t : Bytes} (hj : j < 8) (hk : k < 8)
    (h : head j n ++ s = head k n' ++ t) : j = k ∧ head j n = head k n' ∧ s = t := by
  obtain ⟨info, width, hinfo, heq, hclass⟩ := head_eq j n
  obtain ⟨info', width', hinfo', heq', hclass'⟩ := head_eq k n'
  rw [heq, heq', List.cons_append, List.cons_append, List.cons.injEq] at h
  obtain ⟨hmajor, hsame⟩ := lead_inj hj hk hinfo hinfo' h.1
  have hwidth : width = width' := by omega
  obtain ⟨hargument, hrest⟩ := List.append_inj h.2 (by simp [hwidth])
  refine ⟨hmajor, ?_, hrest⟩
  rw [heq, heq', hmajor, hsame, hargument]

/-- **Heads.**  A head at the start of a string is told by the string. -/
theorem head_split {j k n n' : Nat} {s t : Bytes} (hj : j < 8) (hk : k < 8)
    (hn : n < 2 ^ 64) (hn' : n' < 2 ^ 64) (h : head j n ++ s = head k n' ++ t) :
    j = k ∧ n = n' ∧ s = t := by
  obtain ⟨hmajor, hheads, hrest⟩ := head_append_inj hj hk h
  obtain ⟨info, width, hinfo, heq, hclass⟩ := head_eq j n
  obtain ⟨info', width', hinfo', heq', hclass'⟩ := head_eq k n'
  rw [heq, heq', List.cons.injEq] at hheads
  obtain ⟨-, hsame⟩ := lead_inj hj hk hinfo hinfo' hheads.1
  have hwidth : width = width' := by omega
  subst hwidth
  refine ⟨hmajor, ?_, hrest⟩
  by_cases hsmall : n < 24
  · omega
  · have hbound : n < 256 ^ width ∧ n' < 256 ^ width := by grind
    exact ofNatBE_inj hbound.1 hbound.2 hheads.2

/-! ## Items and entries -/

/-- Pieces of one string are told by the string when each of them is told by
whatever starts with it. -/
theorem flatMap_split {α : Type} {f : α → Bytes} {xs ys : List α} {s t : Bytes}
    (hlength : xs.length = ys.length)
    (hpiece : ∀ x ∈ xs, ∀ y ∈ ys, ∀ s t, f x ++ s = f y ++ t → x = y ∧ s = t)
    (h : xs.flatMap f ++ s = ys.flatMap f ++ t) : xs = ys ∧ s = t := by
  induction xs generalizing ys with
  | nil =>
      cases ys with
      | nil => exact ⟨rfl, h⟩
      | cons y ys => simp at hlength
  | cons x xs ih =>
      cases ys with
      | nil => simp at hlength
      | cons y ys =>
          simp only [List.flatMap_cons, List.append_assoc] at h
          obtain ⟨hfirst, hrest⟩ := hpiece x (by simp) y (by simp) _ _ h
          obtain ⟨htail, hend⟩ := ih (by simpa using hlength)
            (fun a ha b hb => hpiece a (by simp [ha]) b (by simp [hb])) hrest
          exact ⟨by rw [hfirst, htail], hend⟩

/-- The items of an array are encoded one after the other. -/
theorem canonicalItems_eq_ok_iff {items : List Cbor} {b : Bytes} :
    canonicalItems items = .ok b ↔
      ∃ pieces, List.Forall₂ (fun x p => canonical x = .ok p) items pieces ∧
        b = pieces.flatten := by
  induction items generalizing b with
  | nil =>
      simp only [canonicalItems, List.forall₂_nil_left_iff, Except.ok.injEq]
      constructor
      · intro hsame
        subst hsame
        exact ⟨[], rfl, rfl⟩
      · intro hparts
        obtain ⟨_, rfl, rfl⟩ := hparts
        rfl
  | cons item rest ih =>
      simp only [canonicalItems, bind_eq_ok_iff, ih, List.forall₂_cons_left_iff]
      constructor
      · intro hparts
        obtain ⟨p, hp, q, ⟨pieces, hpieces, rfl⟩, h⟩ := hparts
        cases h
        exact ⟨p :: pieces, ⟨p, pieces, hp, hpieces, rfl⟩, rfl⟩
      · intro hparts
        obtain ⟨_, ⟨p, pieces, hp, hpieces, rfl⟩, rfl⟩ := hparts
        exact ⟨p, hp, pieces.flatten, ⟨pieces, hpieces, rfl⟩, rfl⟩

/-- Sorting moves entries and nothing else. -/
theorem insertByKey_perm {α : Type} (entry : Bytes × α) (entries : List (Bytes × α)) :
    (insertByKey entry entries).Perm (entry :: entries) := by
  induction entries with
  | nil => rfl
  | cons first rest ih =>
      unfold insertByKey
      split
      · rfl
      · exact (ih.cons first).trans (.swap entry first rest)

/-- Sorting keeps the entries. -/
theorem sortByKey_perm {α : Type} (entries : List (Bytes × α)) :
    (sortByKey entries).Perm entries := by
  induction entries with
  | nil => rfl
  | cons entry rest ih => exact (insertByKey_perm entry _).trans (ih.cons entry)

/-- Sorting looks at keys only. -/
theorem sortByKey_map {α β : Type} (f : α → β) (entries : List (Bytes × α)) :
    sortByKey (entries.map (Prod.map id f)) = (sortByKey entries).map (Prod.map id f) := by
  have hinsert : ∀ (entry : Bytes × α) (entries : List (Bytes × α)),
      insertByKey (Prod.map id f entry) (entries.map (Prod.map id f))
        = (insertByKey entry entries).map (Prod.map id f) := by
    intro entry entries
    induction entries with
    | nil => rfl
    | cons first rest ih =>
        simp only [insertByKey, List.map_cons, Prod.map_fst, id_eq]
        split
        · rfl
        · rw [List.map_cons, ih]
  induction entries with
  | nil => rfl
  | cons entry rest ih => rw [List.map_cons, sortByKey, sortByKey, ih, hinsert]

/-- Whether neighbours have one key does not depend on their values. -/
theorem hasEqualNeighbours_map {α β : Type} (f : α → β) :
    ∀ entries : List (Bytes × α),
      hasEqualNeighbours (entries.map (Prod.map id f)) = hasEqualNeighbours entries
  | [] => rfl
  | [_] => rfl
  | a :: b :: rest => by
      have ih := hasEqualNeighbours_map f (b :: rest)
      simp only [List.map_cons] at ih
      simp only [hasEqualNeighbours, List.map_cons, Prod.map_fst, id_eq, ih]

/-- The encodings of the keys and values of a map. -/
def EntryPieces (entries : List (Cbor × Cbor)) (pieces : List (Bytes × Bytes)) : Prop :=
  List.Forall₂ (fun e p => canonical e.1 = .ok p.1 ∧ canonical e.2 = .ok p.2) entries pieces

/-- The entries of a map are encoded one by one. -/
theorem canonicalEntries_eq_map (entries : List (Cbor × Cbor)) :
    canonicalEntries entries = entries.map fun e => (canonical e.1, canonical e.2) := by
  induction entries with
  | nil => rfl
  | cons e rest ih => simp only [canonicalEntries, List.map_cons, ih]

/-- A map in two passes: over its keys, and over its values in the order of the
sorted keys. -/
theorem assembleMap_eq
    (entries : List (Except EncodingFault Bytes × Except EncodingFault Bytes)) :
    assembleMap entries =
      (entries.mapM fun e => do return (← e.1, e.2)) >>= fun keyed =>
        if hasEqualNeighbours (sortByKey keyed) then .error .duplicateKey
        else (sortByKey keyed).mapM (fun e => do return e.1 ++ (← e.2)) >>= fun items =>
          .ok (head 5 (sortByKey keyed).length ++ items.flatten) := by
  unfold assembleMap
  rfl

/-- Entries whose keys and values are all known are assembled in the order of
their keys. -/
theorem assembleMap_ok (pieces : List (Bytes × Bytes)) :
    assembleMap (pieces.map fun p => (.ok p.1, .ok p.2)) =
      if hasEqualNeighbours (sortByKey pieces) then .error .duplicateKey
      else .ok (head 5 pieces.length ++ (sortByKey pieces).flatMap fun p => p.1 ++ p.2) := by
  have hkeys : (pieces.map fun p => ((.ok p.1, .ok p.2) :
        Except EncodingFault Bytes × Except EncodingFault Bytes)).mapM
        (fun e => do return (← e.1, e.2))
      = .ok (pieces.map (Prod.map id Except.ok)) := by
    rw [mapM_eq_ok_iff, List.forall₂_map_left_iff, List.forall₂_map_right_iff, List.forall₂_same]
    intro p _
    rfl
  have hvalues : ((sortByKey pieces).map (Prod.map id (Except.ok (ε := EncodingFault)))).mapM
        (fun e => do return e.1 ++ (← e.2))
      = .ok ((sortByKey pieces).map fun p => p.1 ++ p.2) := by
    rw [mapM_eq_ok_iff, List.forall₂_map_left_iff, List.forall₂_map_right_iff, List.forall₂_same]
    intro p _
    rfl
  rw [assembleMap_eq, hkeys, ok_bind, sortByKey_map, hasEqualNeighbours_map, hvalues, ok_bind,
    List.length_map, (sortByKey_perm pieces).length_eq, List.flatMap_def]

/-- A map that could be assembled had all its keys and values. -/
theorem pieces_of_assembleMap {b : Bytes}
    {entries : List (Except EncodingFault Bytes × Except EncodingFault Bytes)}
    (h : assembleMap entries = .ok b) :
    ∃ pieces : List (Bytes × Bytes), entries = pieces.map fun p => (.ok p.1, .ok p.2) := by
  rw [assembleMap_eq] at h
  obtain ⟨keyed, hkeyed, hrest⟩ := bind_eq_ok_iff.1 h
  have hvalues : ∀ k ∈ keyed, ∃ v, k.2 = .ok v := by
    split at hrest
    · cases hrest
    · obtain ⟨items, hitems, -⟩ := bind_eq_ok_iff.1 hrest
      intro k hk
      obtain ⟨item, -, hitem⟩ :=
        exists_right_of_forall₂ (mapM_eq_ok_iff.1 hitems) ((sortByKey_perm keyed).mem_iff.2 hk)
      obtain ⟨v, hv, -⟩ := bind_eq_ok_iff.1 hitem
      exact ⟨v, hv⟩
  have hpairs := mapM_eq_ok_iff.1 hkeyed
  clear h hrest hkeyed
  induction hpairs with
  | nil => exact ⟨[], rfl⟩
  | @cons entry k entries keyed hentry _ ih =>
      obtain ⟨pieces, rfl⟩ := ih fun k hk => hvalues k (List.mem_cons_of_mem _ hk)
      obtain ⟨v, hv⟩ := hvalues k (by simp)
      obtain ⟨key, hkey, hpair⟩ := bind_eq_ok_iff.1 hentry
      cases hpair
      exact ⟨(key, v) :: pieces, by rw [List.map_cons, ← hkey, ← hv]⟩

/-- Keys and values in both forms: encoded one by one, or as pieces. -/
theorem entryPieces_iff {entries : List (Cbor × Cbor)} {pieces : List (Bytes × Bytes)} :
    EntryPieces entries pieces ↔
      (entries.map fun e => (canonical e.1, canonical e.2))
        = pieces.map fun p => (.ok p.1, .ok p.2) := by
  rw [← List.forall₂_eq_eq_eq, List.forall₂_map_left_iff, List.forall₂_map_right_iff]
  simp only [EntryPieces, Prod.mk.injEq]

/-- **Maps.**  The encoding of a map is its head and its entries in the order of
their keys, no two of which are equal. -/
theorem canonical_map_eq_ok_iff {entries : List (Cbor × Cbor)} {b : Bytes} :
    canonical (.map entries) = .ok b ↔
      ∃ pieces, EntryPieces entries pieces ∧ hasEqualNeighbours (sortByKey pieces) = false ∧
        b = head 5 pieces.length ++ (sortByKey pieces).flatMap fun p => p.1 ++ p.2 := by
  rw [canonical, canonicalEntries_eq_map]
  constructor
  · intro h
    obtain ⟨pieces, hpieces⟩ := pieces_of_assembleMap h
    rw [hpieces, assembleMap_ok] at h
    split at h
    · cases h
    · cases h
      exact ⟨pieces, entryPieces_iff.2 hpieces, by simp_all, rfl⟩
  · intro hparts
    obtain ⟨pieces, hpieces, hdistinct, rfl⟩ := hparts
    rw [entryPieces_iff.1 hpieces, assembleMap_ok, if_neg (by simp [hdistinct])]

/-! ## Whole values -/

/-- The major type of a value. -/
def major : Cbor → Nat
  | .unsigned _ => 0
  | .negative _ => 1
  | .bytes _ => 2
  | .text _ => 3
  | .array _ => 4
  | .map _ => 5
  | .tag _ _ => 6
  | .bool _ | .null | .float _ => 7

/-- The number in the head of a value. -/
def argument : Cbor → Nat
  | .unsigned n | .negative n => n.toNat
  | .bytes content => content.length
  | .text content => (Text.Utf8.ofString content).length
  | .array items => items.length
  | .map entries => entries.length
  | .tag number _ => number.toNat
  | .bool false => 20
  | .bool true => 21
  | .null => 22
  | .float _ => 27

/-- The major type has three bits. -/
theorem major_lt (v : Cbor) : v.major < 8 := by
  cases v <;> simp [major]

/-- The argument of a sized value fits a head. -/
theorem argument_lt {v : Cbor} (h : v.Sized) : v.argument < 2 ^ 64 := by
  cases h with
  | unsigned n => exact n.toNat_lt
  | negative n => exact n.toNat_lt
  | bytes short => exact short
  | text short => exact short
  | array short => exact short
  | map short => exact short
  | tag number => exact number.toNat_lt
  | bool value => cases value <;> simp [argument]
  | null => simp [argument]
  | float bits => simp [argument]

/-- What stands behind the head of a value: `Body v body`. -/
inductive Body : Cbor → Bytes → Prop where
  | unsigned (n : UInt64) : Body (.unsigned n) []
  | negative (n : UInt64) : Body (.negative n) []
  | bytes (content : Bytes) : Body (.bytes content) content
  | text (content : String) : Body (.text content) (Text.Utf8.ofString content)
  | bool (value : Bool) : Body (.bool value) []
  | null : Body .null []
  | array {items : List Cbor} {pieces : List Bytes}
      (each : List.Forall₂ (fun x p => canonical x = .ok p) items pieces) :
      Body (.array items) (pieces.flatMap id)
  | map {entries : List (Cbor × Cbor)} {pieces : List (Bytes × Bytes)}
      (each : EntryPieces entries pieces) :
      Body (.map entries) ((sortByKey pieces).flatMap fun p => p.1 ++ p.2)

/-- An encoding is a head and a body. -/
theorem body_of_canonical {v : Cbor} {b : Bytes} (h : canonical v = .ok b) :
    ∃ body, Body v body ∧ b = head v.major v.argument ++ body := by
  cases v with
  | unsigned n =>
      cases h
      exact ⟨_, .unsigned n, by simp [major, argument]⟩
  | negative n =>
      cases h
      exact ⟨_, .negative n, by simp [major, argument]⟩
  | bytes content =>
      cases h
      exact ⟨_, .bytes content, rfl⟩
  | text content =>
      cases h
      exact ⟨_, .text content, rfl⟩
  | bool value =>
      refine ⟨_, .bool value, ?_⟩
      cases value <;> (cases h; rfl)
  | null =>
      cases h
      exact ⟨_, .null, rfl⟩
  | float bits => cases h
  | tag number content => cases h
  | array items =>
      rw [canonical] at h
      obtain ⟨flat, hflat, h⟩ := bind_eq_ok_iff.1 h
      obtain ⟨pieces, hpieces, rfl⟩ := canonicalItems_eq_ok_iff.1 hflat
      cases h
      exact ⟨_, .array hpieces, by rw [List.flatMap_id]; rfl⟩
  | map entries =>
      obtain ⟨pieces, hpieces, -, rfl⟩ := canonical_map_eq_ok_iff.1 h
      exact ⟨_, .map hpieces, by rw [← hpieces.length_eq]; rfl⟩

/-- The encoding of the value is told by any string that starts with it. -/
def Splits (v : Cbor) : Prop :=
  ∀ ⦃w : Cbor⦄ ⦃b c s t : Bytes⦄, w.Sized → canonical v = .ok b → canonical w = .ok c →
    b ++ s = c ++ t → b = c ∧ s = t

/-- Items that are told one by one are told together. -/
theorem items_split {xs ys : List Cbor} {ps qs : List Bytes} {s t : Bytes}
    (hxs : ∀ x ∈ xs, Splits x) (hys : ∀ y ∈ ys, Sized y) (hlength : xs.length = ys.length)
    (hps : List.Forall₂ (fun x p => canonical x = .ok p) xs ps)
    (hqs : List.Forall₂ (fun y q => canonical y = .ok q) ys qs)
    (h : ps.flatMap id ++ s = qs.flatMap id ++ t) : ps = qs ∧ s = t := by
  refine flatMap_split (by rw [← hps.length_eq, ← hqs.length_eq, hlength]) ?_ h
  intro p hp q hq s t hpq
  obtain ⟨x, hx, hxp⟩ := exists_left_of_forall₂ hps hp
  obtain ⟨y, hy, hyq⟩ := exists_left_of_forall₂ hqs hq
  exact hxs x hx (hys y hy) hxp hyq hpq

/-- Entries whose keys and values are told one by one are told together. -/
theorem entries_split {xs ys : List (Cbor × Cbor)} {ps qs : List (Bytes × Bytes)} {s t : Bytes}
    (hxs : ∀ x ∈ xs, Splits x.1 ∧ Splits x.2) (hkeys : ∀ y ∈ ys, Sized y.1)
    (hvalues : ∀ y ∈ ys, Sized y.2) (hlength : xs.length = ys.length)
    (hps : EntryPieces xs ps) (hqs : EntryPieces ys qs)
    (h : ((sortByKey ps).flatMap fun p => p.1 ++ p.2) ++ s
      = ((sortByKey qs).flatMap fun p => p.1 ++ p.2) ++ t) :
    sortByKey ps = sortByKey qs ∧ s = t := by
  have hcount : (sortByKey ps).length = (sortByKey qs).length := by
    rw [(sortByKey_perm ps).length_eq, (sortByKey_perm qs).length_eq, ← hps.length_eq,
      ← hqs.length_eq, hlength]
  refine flatMap_split hcount ?_ h
  intro p hp q hq s t hpq
  obtain ⟨x, hx, hxkey, hxvalue⟩ := exists_left_of_forall₂ hps ((sortByKey_perm ps).mem_iff.1 hp)
  obtain ⟨y, hy, hykey, hyvalue⟩ := exists_left_of_forall₂ hqs ((sortByKey_perm qs).mem_iff.1 hq)
  rw [List.append_assoc, List.append_assoc] at hpq
  obtain ⟨hkey, hrest⟩ := (hxs x hx).1 (hkeys y hy) hxkey hykey hpq
  obtain ⟨hvalue, hend⟩ := (hxs x hx).2 (hvalues y hy) hxvalue hyvalue hrest
  exact ⟨Prod.ext hkey hvalue, hend⟩

/-- Two encodings at the start of one string have the same head, and it is left
to tell their bodies. -/
theorem splits_of_body {v : Cbor} (hv : v.Sized)
    (h : ∀ ⦃w : Cbor⦄ ⦃p q s t : Bytes⦄, w.Sized → v.major = w.major →
      v.argument = w.argument → Body v p → Body w q → p ++ s = q ++ t → p = q ∧ s = t) :
    Splits v := by
  intro w b c s t hw hb hc heq
  obtain ⟨p, hp, rfl⟩ := body_of_canonical hb
  obtain ⟨q, hq, rfl⟩ := body_of_canonical hc
  rw [List.append_assoc, List.append_assoc] at heq
  obtain ⟨hmajor, hargument, hrest⟩ :=
    head_split v.major_lt w.major_lt (argument_lt hv) (argument_lt hw) heq
  obtain ⟨hbody, hend⟩ := h hw hmajor hargument hp hq hrest
  exact ⟨by rw [hmajor, hargument, hbody], hend⟩

/-- **Unique reading.**  Of two encodings at the start of one string, neither is
longer than the other.  The induction is on the first value; its items, keys and
values are told before it is. -/
theorem splits_of_sized {v : Cbor} (hv : v.Sized) : Splits v := by
  induction v using valueInduction with
  | unsigned n =>
      refine splits_of_body hv fun w p q s t _ hmajor _ hp hq h => ?_
      cases hp
      cases hq <;> first | exact ⟨rfl, h⟩ | simp [major] at hmajor
  | negative n =>
      refine splits_of_body hv fun w p q s t _ hmajor _ hp hq h => ?_
      cases hp
      cases hq <;> first | exact ⟨rfl, h⟩ | simp [major] at hmajor
  | bytes content =>
      refine splits_of_body hv fun w p q s t _ hmajor hargument hp hq h => ?_
      cases hp
      cases hq <;> first | exact List.append_inj h hargument | simp [major] at hmajor
  | text content =>
      refine splits_of_body hv fun w p q s t _ hmajor hargument hp hq h => ?_
      cases hp
      cases hq <;> first | exact List.append_inj h hargument | simp [major] at hmajor
  | bool value =>
      refine splits_of_body hv fun w p q s t _ hmajor _ hp hq h => ?_
      cases hp
      cases hq <;> first | exact ⟨rfl, h⟩ | simp [major] at hmajor
  | null =>
      refine splits_of_body hv fun w p q s t _ hmajor _ hp hq h => ?_
      cases hp
      cases hq <;> first | exact ⟨rfl, h⟩ | simp [major] at hmajor
  | float bits => exact fun w b c s t _ hb => by cases hb
  | tag number content => exact fun w b c s t _ hb => by cases hb
  | array items ih =>
      refine splits_of_body hv fun w p q s t hw hmajor hargument hp hq h => ?_
      cases hv with
      | array _ each =>
          cases hp with
          | array hps =>
              cases hq with
              | array hqs =>
                  cases hw with
                  | array _ each' =>
                      obtain ⟨hpieces, hend⟩ := items_split (fun x hx => ih x hx (each x hx))
                        each' hargument hps hqs h
                      exact ⟨by rw [hpieces], hend⟩
              | _ => simp [major] at hmajor
  | map entries ih =>
      refine splits_of_body hv fun w p q s t hw hmajor hargument hp hq h => ?_
      cases hv with
      | map _ keys values =>
          cases hp with
          | map hps =>
              cases hq with
              | map hqs =>
                  cases hw with
                  | map _ keys' values' =>
                      obtain ⟨hpieces, hend⟩ := entries_split
                        (fun x hx => ⟨(ih x hx).1 (keys x hx), (ih x hx).2 (values x hx)⟩)
                        keys' values' hargument hps hqs h
                      exact ⟨by rw [hpieces], hend⟩
              | _ => simp [major] at hmajor

end Cbor

end KeyExchange
