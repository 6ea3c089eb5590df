import KeyExchange.Proofs.Json.Shape

/-!
# Records without an order

Reading an object goes over its members one after the other and fills slots.  What
comes of it can be said without any order: every name spells a text, and each field
is the value of the only member with its name, or its default when there is none.

* `valuesNamed`: the values of the members with a name;
* `Field.Reads`, `Fields.Reads`: what is read from these values;
* `collect_cons_eq_ok_iff`: the first field fills its slot apart from the others;
* `ofMembers_eq_ok_iff`: what reading an object gives.
-/

namespace KeyExchange.Json

open Outcome

/-- The values of the members with a name, in their order. -/
def valuesNamed (name : String) (members : List (Bytes × Json)) : List Json :=
  (members.filter fun m => Literal.decode? m.1 = some name).map Prod.snd

/-- All names spell texts. -/
def Named (members : List (Bytes × Json)) : Prop :=
  ∀ m ∈ members, (Literal.decode? m.1).isSome = true

/-- A name is read as the text it spells. -/
theorem textOf_eq_ok_iff {raw : Bytes} {text : String} :
    textOf raw = .ok text ↔ Literal.decode? raw = some text := by
  unfold textOf
  rcases Literal.decode? raw with _ | text'
  · simp
  · simp

/-- A member of the name counts, with its value in front. -/
theorem valuesNamed_cons_of_eq {raw : Bytes} {name : String} (h : Literal.decode? raw = some name)
    (value : Json) (members : List (Bytes × Json)) :
    valuesNamed name ((raw, value) :: members) = value :: valuesNamed name members := by
  rw [valuesNamed, List.filter_cons_of_pos (by simp [h])]
  rfl

/-- A member of another name does not count. -/
theorem valuesNamed_cons_of_ne {raw : Bytes} {name : String} (h : Literal.decode? raw ≠ some name)
    (value : Json) (members : List (Bytes × Json)) :
    valuesNamed name ((raw, value) :: members) = valuesNamed name members := by
  rw [valuesNamed, List.filter_cons_of_neg (by simp [h])]
  rfl

/-- A member as it is written is a value of its own name only. -/
@[simp] theorem valuesNamed_member (name name' : String) (value : Json)
    (members : List (Bytes × Json)) :
    valuesNamed name (member name' value :: members)
      = if name' = name then value :: valuesNamed name members else valuesNamed name members := by
  have hname : Literal.decode? (Literal.encode name') = some name' := Literal.decode?_encode name'
  by_cases h : name' = name
  · rw [if_pos h, member, valuesNamed_cons_of_eq (h ▸ hname)]
  · rw [if_neg h, member, valuesNamed_cons_of_ne (by simp [hname, h])]

@[simp] theorem valuesNamed_nil (name : String) : valuesNamed name [] = [] := rfl

@[simp] theorem named_nil : Named [] := List.forall_mem_nil _

/-- A name as it is written spells a text. -/
@[simp] theorem named_member (name : String) (value : Json) (members : List (Bytes × Json)) :
    Named (member name value :: members) ↔ Named members := by
  simp [Named, member, Literal.decode?_encode]

namespace Field

variable {α : Type}

/-- The slot of the field after these values, one after the other; a second one is
never taken. -/
def Fills (field : Field α) : List Json → Option α → Option α → Prop
  | [], slot, slot' => slot' = slot
  | value :: values, slot, slot' =>
      slot = none ∧ ∃ a, field.shape.read value = .ok a ∧ field.Fills values (some a) slot'

/-- The field is the only value, or the default when there is none. -/
def Reads (field : Field α) (values : List Json) (a : α) : Prop :=
  match values with
  | [] => field.default? = some a
  | [value] => field.shape.read value = .ok a
  | _ :: _ :: _ => False

/-- What a slot holds in the end. -/
theorem reads_iff {field : Field α} {values : List Json} {a : α} :
    (∃ slot, field.Fills values none slot ∧ (slot <|> field.default?) = some a) ↔
      field.Reads values a := by
  match values with
  | [] => simp [Fills, Reads]
  | [value] => simp [Fills, Reads]
  | _ :: _ :: _ => simp [Fills, Reads]

end Field

namespace Fields

/-- Every field is what is read from the values of the members with its name. -/
def Reads : {γ : Type} → Fields γ → List (Bytes × Json) → γ → Prop
  | _, .nil, _, _ => True
  | _, .cons field rest, members, c =>
      field.Reads (valuesNamed field.name members) c.1 ∧ rest.Reads members c.2

/-- A member of another name is passed over. -/
theorem accept_eq_none {γ : Type} {fs : Fields γ} {name : String} (h : name ∉ fs.names)
    (value : Json) (slots : fs.Slots) : fs.accept name value slots = none := by
  induction fs with
  | nil => rfl
  | cons field rest ih =>
      rw [names, List.mem_cons, not_or] at h
      obtain ⟨hname, hrest⟩ := h
      obtain ⟨slot, slots⟩ := slots
      change (Fields.cons field rest).accept name value (slotted field rest slot slots) = none
      rw [accept_other hname, ih hrest]
      rfl

/-- One member of a name that spells a text. -/
theorem collect_of_decode? {γ : Type} (fs : Fields γ) {raw : Bytes} {name : String}
    (h : Literal.decode? raw = some name) (value : Json) (members : List (Bytes × Json))
    (slots : fs.Slots) :
    fs.collect ((raw, value) :: members) slots
      = match fs.accept name value slots with
        | some outcome => outcome >>= fs.collect members
        | none => fs.collect members slots := by
  rw [collect, textOf_eq_ok_iff.2 h]
  rfl

/-- A name that spells no text makes reading fail. -/
theorem collect_ne_ok {γ : Type} (fs : Fields γ) {raw : Bytes} (h : Literal.decode? raw = none)
    (value : Json) (members : List (Bytes × Json)) (slots slots' : fs.Slots) :
    fs.collect ((raw, value) :: members) slots ≠ .ok slots' := by
  have herror : textOf raw = .error .malformed := by rw [textOf, h]
  rw [collect, herror]
  exact error_ne_ok _ _

section

variable {α β : Type} {field : Field α} {rest : Fields β} {slots slots' : rest.Slots}

/-- Slots are told one by one. -/
theorem slotted_inj {slot slot' : Option α} :
    slotted field rest slot slots = slotted field rest slot' slots' ↔
      slot = slot' ∧ slots = slots' := Prod.mk.injEq _ _ _ _ ▸ Iff.rfl

/-- A slot is filled once. -/
theorem accept_taken (a : α) (value : Json) :
    (Fields.cons field rest).accept field.name value (slotted field rest (some a) slots)
      = some (.error (.duplicateField field.name)) := if_pos rfl

/-- A value that is not read does not fill a slot. -/
theorem accept_fault {value : Json} {fault : Fault}
    (hread : field.shape.read value = .error fault) :
    (Fields.cons field rest).accept field.name value (slotted field rest none slots)
      = some (.error fault) := by
  refine (if_pos rfl).trans ?_
  change some ((field.shape.read value).map fun a => slotted field rest (some a) slots) = _
  rw [hread]
  rfl

/-- **The first field apart.**  Its slot is filled from the members with its name,
and the other slots as if the first field were not there. -/
theorem collect_cons_eq_ok_iff (fresh : field.name ∉ rest.names) {members : List (Bytes × Json)}
    {slot slot' : Option α} :
    (Fields.cons field rest).collect members (slotted field rest slot slots)
        = .ok (slotted field rest slot' slots') ↔
      field.Fills (valuesNamed field.name members) slot slot' ∧
        rest.collect members slots = .ok slots' := by
  induction members generalizing slot slots with
  | nil =>
      rw [collect, collect, Except.ok.injEq, Except.ok.injEq, slotted_inj]
      exact and_congr_left fun _ => eq_comm
  | cons m members ih =>
      obtain ⟨raw, value⟩ := m
      rcases hraw : Literal.decode? raw with _ | name
      · constructor
        · exact fun h => absurd h (collect_ne_ok _ hraw _ _ _ _)
        · exact fun h => absurd h.2 (collect_ne_ok _ hraw _ _ _ _)
      · rw [collect_of_decode? _ hraw, collect_of_decode? _ hraw]
        by_cases hname : name = field.name
        · subst hname
          rw [valuesNamed_cons_of_eq hraw, accept_eq_none fresh]
          cases slot with
          | some a =>
              rw [accept_taken]
              simp [Field.Fills]
          | none =>
              rcases hread : field.shape.read value with fault | a
              · rw [accept_fault hread]
                simp [Field.Fills, hread]
              · rw [accept_first hread]
                simp [Field.Fills, hread, ih]
        · have hother : Literal.decode? raw ≠ some field.name := by
            rw [hraw]
            exact fun hsame => hname (Option.some.inj hsame)
          rw [valuesNamed_cons_of_ne hother, accept_other hname]
          rcases rest.accept name value slots with _ | fault | slots₁
          · exact ih
          · exact iff_of_false (error_ne_ok _ _) fun h => error_ne_ok _ _ h.2
          · exact ih

/-- The record is finished field by field. -/
theorem finish_slotted_eq_ok_iff {slot : Option α} {c : α × β} :
    (Fields.cons field rest).finish (slotted field rest slot slots) = .ok c ↔
      (slot <|> field.default?) = some c.1 ∧ rest.finish slots = .ok c.2 := by
  obtain ⟨a, b⟩ := c
  rcases hslot : (slot <|> field.default?) with _ | a'
  · have hmissing : (Fields.cons field rest).finish (slotted field rest slot slots)
        = .error (.missingField field.name) := by
      rw [finish, slotted]
      simp only [hslot]
    rw [hmissing]
    simp
  · rw [finish_slotted hslot]
    rcases rest.finish slots with fault | b'
    · exact iff_of_false (error_ne_ok _ _) fun h => error_ne_ok _ _ h.2
    · simp

end

/-- Without fields, collecting looks at the names only. -/
theorem collect_nil_iff {members : List (Bytes × Json)} :
    Fields.nil.collect members Fields.nil.empty = .ok Fields.nil.empty ↔ Named members := by
  induction members with
  | nil => exact iff_of_true rfl (List.forall_mem_nil _)
  | cons m members ih =>
      obtain ⟨raw, value⟩ := m
      rcases hraw : Literal.decode? raw with _ | name
      · refine iff_of_false (collect_ne_ok _ hraw _ _ _ _) fun h => ?_
        have hname := h (raw, value) List.mem_cons_self
        simp [hraw] at hname
      · rw [collect_of_decode? _ hraw]
        refine Iff.trans ih ⟨fun h => ?_, fun h m hm => h m (List.mem_cons_of_mem _ hm)⟩
        intro m hm
        rcases List.mem_cons.1 hm with rfl | hm
        · simp [hraw]
        · exact h m hm

/-- What collecting and finishing give together, said without an order. -/
theorem finish_collect_iff {γ : Type} {fs : Fields γ} (h : fs.names.Nodup)
    {members : List (Bytes × Json)} {c : γ} :
    (∃ slots, fs.collect members fs.empty = .ok slots ∧ fs.finish slots = .ok c) ↔
      Named members ∧ fs.Reads members c := by
  induction fs with
  | nil =>
      constructor
      · intro hparts
        obtain ⟨slots, hcollect, -⟩ := hparts
        exact ⟨collect_nil_iff.1 hcollect, trivial⟩
      · intro hparts
        exact ⟨Fields.nil.empty, collect_nil_iff.2 hparts.1, rfl⟩
  | cons field rest ih =>
      obtain ⟨fresh, hrest⟩ := List.nodup_cons.1 h
      rw [Reads, ← Field.reads_iff, and_left_comm, ← ih hrest]
      constructor
      · intro hparts
        obtain ⟨⟨slot, slots⟩, hcollect, hfinish⟩ := hparts
        obtain ⟨hfills, hothers⟩ := (collect_cons_eq_ok_iff fresh).1 hcollect
        obtain ⟨hslot, hfinish⟩ := finish_slotted_eq_ok_iff.1 hfinish
        exact ⟨⟨slot, hfills, hslot⟩, slots, hothers, hfinish⟩
      · intro hparts
        obtain ⟨⟨slot, hfills, hslot⟩, slots, hothers, hfinish⟩ := hparts
        exact ⟨slotted field rest slot slots, (collect_cons_eq_ok_iff fresh).2 ⟨hfills, hothers⟩,
          finish_slotted_eq_ok_iff.2 ⟨hslot, hfinish⟩⟩

/-- **Reading an object.**  It gives a record when the object is complete, its names
spell texts and every field can be read, in whatever order the members stand. -/
theorem ofMembers_eq_ok_iff {γ : Type} {fs : Fields γ} (h : fs.names.Nodup)
    {members : List (Bytes × Json)} {closed : Bool} {c : γ} :
    fs.ofMembers members closed = .ok c ↔
      closed = true ∧ Named members ∧ fs.Reads members c := by
  rw [← finish_collect_iff h, ofMembers, bind_eq_ok_iff]
  cases closed with
  | true => simp
  | false => simp

end Fields

end KeyExchange.Json
