import KeyExchange.Proofs.Artifact.RoundTrip
import KeyExchange.Proofs.Json.Reformat

/-!
# How filters are read

The members of a filter are set aside before the member is met that tells what they
mean.  What comes of that can be said without any order: one member tells the kind,
and the members of that kind are read from the others.

* `settable_iff_fit`: what can be set aside;
* `setAside_eq_ok_iff`: what is set aside, and which kind is met;
* `filterOfMembers_eq_ok_iff`, `filterOfItems_eq_ok_iff`: what reading a filter gives.
-/

namespace KeyExchange.Artifact

open Json Outcome

/-! ## Setting aside -/

/-- Items can be set aside when each of them can. -/
theorem settableItems_iff {room : Nat} {items : List Json} :
    settableItems room items = true ↔ ∀ x ∈ items, settable room x = true := by
  induction items with
  | nil => simp [settableItems]
  | cons x items ih => simp [settableItems, ih]

/-- Members can be set aside when all names spell texts and each value can be set aside. -/
theorem settableMembers_iff {room : Nat} {members : List (Bytes × Json)} :
    settableMembers room members = true ↔
      Named members ∧ ∀ m ∈ members, settable room m.2 = true := by
  induction members with
  | nil => simp [settableMembers, Named]
  | cons m members ih =>
      obtain ⟨name, value⟩ := m
      rw [settableMembers, Bool.and_eq_true, Bool.and_eq_true, ih]
      simp [Named]
      tauto

/-- What can be set aside is what is complete, spells texts and is not nested too
deeply. -/
theorem settable_iff_fit {room : Nat} {value : Json} :
    settable room value = true ↔ Fit room value := by
  constructor
  · intro h
    induction value using treeInduction generalizing room with
    | null => exact .null
    | bool value => exact .bool value
    | number x => exact .number (by simpa [settable] using h)
    | string raw => exact .string (by simpa [settable] using h)
    | array items closed ih =>
        simp only [settable, Bool.and_eq_true, decide_eq_true_eq] at h
        obtain ⟨⟨hroom, hitems⟩, rfl⟩ := h
        obtain ⟨room, rfl⟩ := Nat.exists_eq_add_one.2 hroom
        exact .array fun x hx => ih x hx (settableItems_iff.1 hitems x hx)
    | object members closed ih =>
        simp only [settable, Bool.and_eq_true, decide_eq_true_eq] at h
        obtain ⟨⟨hroom, hmembers⟩, rfl⟩ := h
        obtain ⟨room, rfl⟩ := Nat.exists_eq_add_one.2 hroom
        obtain ⟨hnamed, heach⟩ := settableMembers_iff.1 hmembers
        exact .object hnamed fun m hm => ih m hm (heach m hm)
    | broken => simp [settable] at h
  · intro h
    induction h with
    | null => rfl
    | bool value => rfl
    | number h => simpa [settable] using h
    | string h => simpa [settable] using h
    | array each ih => simp [settable, settableItems_iff.2 ih]
    | object names each ih => simp [settable, settableMembers_iff.2 ⟨names, ih⟩]

/-- The members other than the one that tells the kind. -/
def otherMembers (members : List (Bytes × Json)) : List (Bytes × Json) :=
  members.filter fun m => Literal.decode? m.1 ≠ some kindMember

/-- The member that tells the kind. -/
def kindField : Json.Field FilterKind :=
  .required kindMember ⟨FilterKind.read, fun kind => ofString kind.name⟩

/-- A member whose name spells a text does not count for whether all names do. -/
theorem named_cons_iff {raw : Bytes} {name : String} (h : Literal.decode? raw = some name)
    (value : Json) (members : List (Bytes × Json)) :
    Named ((raw, value) :: members) ↔ Named members := by
  simp [Named, h]

section setAside

variable {room : Nat} {seen kind : Option FilterKind} {raw : Bytes} {value : Json}
  {members others : List (Bytes × Json)}

/-- A name that spells no text ends the reading. -/
theorem setAside_ne_ok (h : Literal.decode? raw = none) :
    setAside room seen ((raw, value) :: members) ≠ .ok (kind, others) := by
  have hmalformed : textOf raw = .error .malformed := by rw [textOf, h]
  rw [setAside.eq_def]
  simp only [hmalformed]
  exact error_ne_ok _ _

/-- The first member that names the kind is read, and a second one is refused. -/
theorem setAside_kind (h : Literal.decode? raw = some kindMember) :
    setAside room seen ((raw, value) :: members) = .ok (kind, others) ↔
      seen = none ∧ ∃ k, FilterKind.read value = .ok k ∧
        setAside room (some k) members = .ok (kind, others) := by
  rw [setAside.eq_def]
  simp only [textOf_eq_ok_iff.2 h, ok_bind, if_true]
  cases seen with
  | some k => exact iff_of_false (error_ne_ok _ _) fun h => Option.some_ne_none _ h.1
  | none =>
      simp only [bind_eq_ok_iff, true_and]

/-- Any other member is set aside, if it can be, in front of the rest. -/
theorem setAside_other {name : String} (h : Literal.decode? raw = some name)
    (hname : name ≠ kindMember) :
    setAside room seen ((raw, value) :: members) = .ok (kind, others) ↔
      settable room value = true ∧ ∃ others', others = (raw, value) :: others' ∧
        setAside room seen members = .ok (kind, others') := by
  rw [setAside.eq_def]
  simp only [textOf_eq_ok_iff.2 h, ok_bind, if_neg hname]
  by_cases hvalue : settable room value = true
  · rw [if_pos hvalue, bind_eq_ok_iff]
    constructor
    · intro hparts
      obtain ⟨⟨kind', others'⟩, hrest, h⟩ := hparts
      cases h
      exact ⟨hvalue, others', rfl, hrest⟩
    · intro hparts
      obtain ⟨-, others', rfl, hrest⟩ := hparts
      exact ⟨_, hrest, rfl⟩
  · rw [if_neg hvalue]
    exact iff_of_false (error_ne_ok _ _) fun h => hvalue h.1

/-- What is set aside, and what kind is met meanwhile. -/
theorem setAside_eq_ok_iff :
    setAside room seen members = .ok (kind, others) ↔
      Named members ∧ others = otherMembers members ∧
        (∀ m ∈ others, settable room m.2 = true) ∧
        kindField.Fills (valuesNamed kindMember members) seen kind := by
  -- A kind that is met counts as seen from there on, so the induction is for any.
  induction members generalizing seen others with
  | nil =>
      rw [setAside.eq_def]
      simp only [Except.ok.injEq, Prod.mk.injEq]
      constructor
      · intro hparts
        obtain ⟨rfl, rfl⟩ := hparts
        exact ⟨List.forall_mem_nil _, rfl, List.forall_mem_nil _, rfl⟩
      · intro hparts
        obtain ⟨-, rfl, -, hkind⟩ := hparts
        exact ⟨hkind.symm, rfl⟩
  | cons m members ih =>
      obtain ⟨raw, value⟩ := m
      rcases hraw : Literal.decode? raw with _ | name
      · refine iff_of_false (setAside_ne_ok hraw) fun h => ?_
        have hname := h.1 (raw, value) List.mem_cons_self
        simp [hraw] at hname
      · rw [named_cons_iff hraw]
        by_cases hkind : name = kindMember
        · subst hkind
          have hothers : otherMembers ((raw, value) :: members) = otherMembers members :=
            List.filter_cons_of_neg (by simp [hraw])
          rw [setAside_kind hraw, hothers, valuesNamed_cons_of_eq hraw, Field.Fills]
          simp only [ih]
          constructor
          · intro hparts
            obtain ⟨hseen, k, hk, hnamed, hset, hall, hfills⟩ := hparts
            exact ⟨hnamed, hset, hall, hseen, k, hk, hfills⟩
          · intro hparts
            obtain ⟨hnamed, hset, hall, hseen, k, hk, hfills⟩ := hparts
            exact ⟨hseen, k, hk, hnamed, hset, hall, hfills⟩
        · have hother : Literal.decode? raw ≠ some kindMember := by
            rw [hraw]
            exact fun hsame => hkind (Option.some.inj hsame)
          have hothers : otherMembers ((raw, value) :: members)
              = (raw, value) :: otherMembers members :=
            List.filter_cons_of_pos (by simp [hother])
          rw [setAside_other hraw hkind, hothers, valuesNamed_cons_of_ne hother]
          simp only [ih]
          constructor
          · intro hparts
            obtain ⟨hvalue, others', rfl, hnamed, rfl, hall, hfills⟩ := hparts
            exact ⟨hnamed, rfl, List.forall_mem_cons.2 ⟨hvalue, hall⟩, hfills⟩
          · intro hparts
            obtain ⟨hnamed, rfl, hall, hfills⟩ := hparts
            obtain ⟨hvalue, hall⟩ := List.forall_mem_cons.1 hall
            exact ⟨hvalue, _, rfl, hnamed, rfl, hall, hfills⟩

/-- The kind that was met is the only one. -/
theorem fills_kind_iff {values : List Json} {kind : FilterKind} :
    kindField.Fills values none (some kind) ↔ kindField.Reads values kind := by
  rw [← Field.reads_iff]
  constructor
  · exact fun h => ⟨some kind, h, rfl⟩
  · intro hparts
    obtain ⟨slot, hfills, hslot⟩ := hparts
    cases slot with
    | none => cases hslot
    | some k =>
        cases hslot
        exact hfills

/-- **Filters without an order.**  A filter object is read when it is complete, its
names spell texts, one member tells its kind, the others can be set aside, and the
members of that kind are read from them. -/
theorem filterOfMembers_eq_ok_iff {closed : Bool} {filter : UsageFilter} :
    filterOfMembers room members closed = .ok filter ↔
      closed = true ∧ Named members ∧ (∀ m ∈ otherMembers members, settable room m.2 = true) ∧
        ∃ kind, kindField.Reads (valuesNamed kindMember members) kind ∧
          kind.readFields (fun fs => fs.ofMembers (otherMembers members) true) = .ok filter := by
  rw [filterOfMembers, bind_eq_ok_iff]
  constructor
  · intro hparts
    obtain ⟨⟨kind, others⟩, haside, h⟩ := hparts
    obtain ⟨hnamed, rfl, hall, hfills⟩ := setAside_eq_ok_iff.1 haside
    cases closed with
    | false => cases h
    | true =>
        cases kind with
        | none => cases h
        | some kind => exact ⟨rfl, hnamed, hall, kind, fills_kind_iff.1 hfills, h⟩
  · intro hparts
    obtain ⟨rfl, hnamed, hall, kind, hkind, h⟩ := hparts
    exact ⟨(some kind, otherMembers members),
      setAside_eq_ok_iff.2 ⟨hnamed, rfl, hall, fills_kind_iff.2 hkind⟩, h⟩

end setAside

/-- Members of other names are not lost when the kind is taken out. -/
theorem valuesNamed_otherMembers {name : String} (h : name ≠ kindMember)
    (members : List (Bytes × Json)) :
    valuesNamed name (otherMembers members) = valuesNamed name members := by
  rw [valuesNamed, valuesNamed, otherMembers, List.filter_filter]
  congr 1
  apply List.filter_congr
  intro m _
  by_cases hname : Literal.decode? m.1 = some name
  · simp [hname, h]
  · simp [hname]

/-! ## Arrays -/

/-- The record of all items of an array. -/
def readItems (items : List Json) {γ : Type} (fs : Fields γ) : Except Fault γ := do
  let (record, left) ← fs.ofItems items true
  if left.isEmpty then return record else throw .invalidLength

/-- Items are read as the fields of a kind when none is left over. -/
theorem readItems_eq_ok_iff {items : List Json} {γ : Type} {fs : Fields γ} {c : γ} :
    readItems items fs = .ok c ↔ fs.ofItems items true = .ok (c, []) := by
  rw [readItems, bind_eq_ok_iff]
  constructor
  · intro hparts
    obtain ⟨⟨c', left⟩, hread, h⟩ := hparts
    dsimp only at h
    by_cases hleft : left.isEmpty
    · rw [if_pos hleft] at h
      cases h
      rw [hread, List.isEmpty_iff.1 hleft]
    · rw [if_neg hleft] at h
      cases h
  · exact fun hread => ⟨_, hread, rfl⟩

/-- A filter array is read when it is complete, its first item tells the kind, the
others can be set aside, and they are the members of that kind. -/
theorem filterOfItems_eq_ok_iff {items : List Json} {closed : Bool} {filter : UsageFilter} :
    filterOfItems room items closed = .ok filter ↔
      closed = true ∧ ∃ first rest, items = first :: rest ∧
        (∀ x ∈ rest, settable room x = true) ∧ ∃ kind, FilterKind.read first = .ok kind ∧
          kind.readFields (readItems rest) = .ok filter := by
  cases items with
  | nil =>
      refine iff_of_false ?_ fun h => ?_
      · cases closed with
        | true => exact error_ne_ok _ _
        | false => exact error_ne_ok _ _
      · obtain ⟨-, first, rest, h, -⟩ := h
        cases h
  | cons first rest =>
      rw [filterOfItems, bind_eq_ok_iff]
      constructor
      · intro hparts
        obtain ⟨kind, hkind, h⟩ := hparts
        by_cases hrest : (settableItems room rest && closed) = true
        · rw [if_pos hrest] at h
          obtain ⟨hset, hclosed⟩ := Bool.and_eq_true_iff.1 hrest
          exact ⟨hclosed, first, rest, rfl, settableItems_iff.1 hset, kind, hkind, h⟩
        · rw [if_neg hrest] at h
          cases h
      · intro hparts
        obtain ⟨rfl, first', rest', hsame, hset, kind, hkind, h⟩ := hparts
        cases hsame
        have hrest : (settableItems room rest && true) = true := by
          rw [settableItems_iff.2 hset]
          rfl
        exact ⟨kind, hkind, by rw [if_pos hrest]; exact h⟩

/-! ## Kinds -/

namespace FilterKind

/-- A kind is found by its own name only. -/
theorem name_of_ofName {name : String} {kind : FilterKind} (h : ofName name = .ok kind) :
    name = kind.name := by
  unfold ofName at h
  rcases ite_eq_iff.1 h with ⟨hname, h⟩ | ⟨-, h⟩
  · cases h
    exact hname
  rcases ite_eq_iff.1 h with ⟨hname, h⟩ | ⟨-, h⟩
  · cases h
    exact hname
  rcases ite_eq_iff.1 h with ⟨hname, h⟩ | ⟨-, h⟩
  · cases h
    exact hname
  rcases ite_eq_iff.1 h with ⟨hname, h⟩ | ⟨-, h⟩
  · cases h
    exact hname
  cases h

/-- A kind is read from a string that spells its name. -/
theorem of_read {value : Json} {kind : FilterKind} (h : FilterKind.read value = .ok kind) :
    ∃ raw, value = .string raw ∧ Literal.decode? raw = some kind.name := by
  obtain ⟨text, htext, hkind⟩ := bind_eq_ok_iff.1 h
  cases value with
  | string raw =>
      rw [← name_of_ofName hkind]
      exact ⟨raw, rfl, textOf_eq_ok_iff.1 htext⟩
  | _ => cases htext

end FilterKind

end KeyExchange.Artifact
