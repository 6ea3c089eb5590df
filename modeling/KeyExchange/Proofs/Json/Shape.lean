import KeyExchange.Json.Shape
import KeyExchange.Proofs.Json.Printer
import KeyExchange.Proofs.Outcome

/-!
# Shapes that read what they write

A shape is faithful on some values when it writes them as whole trees and
reads them back from these.  Faithful shapes are made of faithful shapes: of
lists, optional values and records, in which every member finds its own slot.

* `Shape.Faithful`: the shape reads what it writes;
* `Faithful.list`, `Faithful.optional`, `Faithful.imap`, `Faithful.record`: how
  faithful shapes are made;
* `Faithful.readText_writeText`: a value comes back from its text.
-/

namespace KeyExchange.Json

open Outcome

/-- A name is read as it was written. -/
@[simp] theorem textOf_encode (text : String) : textOf (Literal.encode text) = .ok text := by
  rw [textOf, Literal.decode?_encode]

/-- The shape writes these values as whole trees and reads them back. -/
structure Shape.Faithful {α : Type} (s : Shape α) (good : α → Prop) : Prop where
  written : ∀ a, good a → Written (s.write a)
  read_write : ∀ a, good a → s.read (s.write a) = .ok a

namespace Shape.Faithful

variable {α β : Type} {s : Shape α} {good : α → Prop}

/-- Texts come back. -/
theorem text : Shape.text.Faithful fun _ => True where
  written a _ := .string a
  read_write a _ := textOf_encode a

/-- Numbers below the limit come back. -/
theorem natural {limit : Nat} (hlimit : limit ≤ 2 ^ 64) :
    (Shape.natural limit).Faithful (· < limit) where
  written n _ := .number n
  read_write n hn := by
    have hkind : (Number.ofNat n).kind = .natural n := Number.kind_ofNat (by omega)
    simp only [Shape.natural, ofNat, hkind, if_pos hn]

/-- A shape is faithful on fewer values, too. -/
theorem mono {good' : α → Prop} (h : s.Faithful good) (himp : ∀ a, good' a → good a) :
    s.Faithful good' where
  written a ha := h.written a (himp a ha)
  read_write a ha := h.read_write a (himp a ha)

/-- Values come back that can be made again from their parts. -/
theorem imap (h : s.Faithful good) (make : α → β) (parts : β → α)
    (hmake : ∀ b, make (parts b) = b) : (s.imap make parts).Faithful fun b => good (parts b) where
  written b hb := h.written (parts b) hb
  read_write b hb := by
    change (s.read (s.write (parts b))).map make = .ok b
    rw [h.read_write (parts b) hb, map_ok, hmake]

/-- Lists come back when their items do. -/
theorem list (h : s.Faithful good) : s.list.Faithful fun as => ∀ a ∈ as, good a where
  written as has := by
    refine .array fun x hx => ?_
    obtain ⟨a, ha, rfl⟩ := List.mem_map.1 hx
    exact h.written a (has a ha)
  read_write as has := by
    have hread : (as.map s.write).mapM s.read = .ok as := by
      rw [mapM_eq_ok_iff, List.forall₂_map_left_iff, List.forall₂_same]
      exact fun a ha => h.read_write a (has a ha)
    change ((as.map s.write).mapM s.read >>= fun values =>
      if true then pure values else throw .malformed) = .ok as
    rw [hread]
    rfl

/-- A shape that writes no null can also be left out. -/
theorem optional (h : s.Faithful good) (hnull : ∀ a, s.write a ≠ .null) :
    s.optional.Faithful fun o => ∀ a ∈ o, good a where
  written o ho := by
    cases o with
    | none => exact .null
    | some a => exact h.written a (ho a rfl)
  read_write o ho := by
    cases o with
    | none => rfl
    | some a =>
        have hread := h.read_write a (ho a rfl)
        have hvalue := hnull a
        change s.optional.read (s.write a) = _
        cases hwrite : s.write a with
        | null => exact absurd hwrite hvalue
        | _ =>
            rw [hwrite] at hread
            change (s.read _).map some = _
            rw [hread, map_ok]

/-- **Reading back.**  A value comes back from its text. -/
theorem readText_writeText (h : s.Faithful good) (layout : Layout) {a : α} (ha : good a) :
    s.readText (s.writeText layout a) = .ok a := by
  rw [Shape.readText, Shape.writeText, readText_render (h.written a ha)]
  simp only [h.read_write a ha, ok_bind]
  rfl

end Shape.Faithful

/-- What is read from a text is read from the tree that it spells. -/
theorem Shape.readText_eq_ok_iff {α : Type} {s : Shape α} {text : Bytes} {a : α} :
    s.readText text = .ok a ↔ ∃ tree, Spells text tree ∧ s.read tree = .ok a := by
  rw [Shape.readText]
  rcases hread : Json.readText text with ⟨tree, ended⟩
  simp only [bind_eq_ok_iff]
  constructor
  · intro hparts
    obtain ⟨b, hb, h⟩ := hparts
    cases ended with
    | false => cases h
    | true =>
        cases h
        exact ⟨tree, readText_eq_iff.1 hread, hb⟩
  · intro hparts
    obtain ⟨tree', hspells, hb⟩ := hparts
    have hsame := hread.symm.trans (readText_eq_iff.2 hspells)
    cases hsame
    exact ⟨a, hb, rfl⟩

/-! ## Records -/

namespace Field

/-- The member comes back, also when it is left out. -/
structure Faithful {α : Type} (f : Field α) (good : α → Prop) : Prop where
  shape : f.shape.Faithful good
  omitted : ∀ a, f.omits a = true → f.default? = some a

variable {α : Type} {s : Shape α} {good : α → Prop}

/-- A required field comes back when its value does. -/
theorem faithful_required (name : String) (h : s.Faithful good) :
    (required name s).Faithful good where
  shape := h
  omitted := by simp [required]

/-- So does a field with a default. -/
theorem faithful_defaulted (name : String) (h : s.Faithful good) (value : α) :
    (defaulted name s value).Faithful good where
  shape := h
  omitted := by simp [defaulted]

/-- So does a list that may be left out. -/
theorem faithful_listOrNone (name : String) (h : s.Faithful good) :
    (listOrNone name s).Faithful fun as => ∀ a ∈ as, good a where
  shape := h.list
  omitted as has := by
    have hnil : as = [] := List.isEmpty_iff.1 has
    rw [hnil]
    rfl

/-- So does a value that may be left out, unless it is written as null. -/
theorem faithful_valueOrNone (name : String) (h : s.Faithful good)
    (hnull : ∀ a, s.write a ≠ .null) : (valueOrNone name s).Faithful fun o => ∀ a ∈ o, good a where
  shape := h.optional hnull
  omitted o ho := by
    have hnone : o = none := Option.isNone_iff_eq_none.1 ho
    rw [hnone]
    rfl

end Field

namespace Fields

/-- The names of the members. -/
def names : {γ : Type} → Fields γ → List String
  | _, .nil => []
  | _, .cons field rest => field.name :: rest.names

/-- Every member comes back, and no two have the same name. -/
inductive Faithful : {γ : Type} → Fields γ → (γ → Prop) → Prop
  | nil : Faithful .nil fun _ => True
  | cons {α β : Type} {field : Field α} {rest : Fields β} {good : α → Prop} {good' : β → Prop}
      (first : field.Faithful good) (others : rest.Faithful good')
      (fresh : field.name ∉ rest.names) :
      Faithful (.cons field rest) fun c => good c.1 ∧ good' c.2

/-- The members that are written have names of the record. -/
theorem exists_name_of_mem_write {γ : Type} {fs : Fields γ} {c : γ} {m : Bytes × Json}
    (h : m ∈ fs.write c) : ∃ name ∈ fs.names, m.1 = Literal.encode name := by
  induction fs with
  | nil => cases h
  | cons field rest ih =>
      obtain ⟨a, b⟩ := c
      rw [write] at h
      split at h
      · obtain ⟨name, hname, heq⟩ := ih h
        exact ⟨name, List.mem_cons_of_mem _ hname, heq⟩
      · rcases List.mem_cons.1 h with rfl | h
        · exact ⟨field.name, List.mem_cons_self, rfl⟩
        · obtain ⟨name, hname, heq⟩ := ih h
          exact ⟨name, List.mem_cons_of_mem _ hname, heq⟩

/-- A faithful record writes whole trees. -/
theorem Faithful.written {γ : Type} {fs : Fields γ} {good : γ → Prop} (h : fs.Faithful good)
    {c : γ} (hc : good c) : ∀ m ∈ fs.write c, Written m.2 := by
  induction h with
  | nil => simp [write]
  | @cons α β field rest good good' first others fresh ih =>
      obtain ⟨a, b⟩ := c
      intro m hm
      rw [write] at hm
      split at hm
      · exact ih hc.2 m hm
      · rcases List.mem_cons.1 hm with rfl | hm
        · exact first.shape.written a hc.1
        · exact ih hc.2 m hm

/-- The slot of the first field and the slots of the others. -/
def slotted {α β : Type} (field : Field α) (rest : Fields β) (slot : Option α)
    (slots : rest.Slots) : (Fields.cons field rest).Slots := (slot, slots)

section slotted

variable {α β : Type} {field : Field α} {rest : Fields β} {slots : rest.Slots}

/-- The first value of a field fills its slot. -/
theorem accept_first {a : α} {value : Json} (hread : field.shape.read value = .ok a) :
    (Fields.cons field rest).accept field.name value (slotted field rest none slots)
      = some (.ok (slotted field rest (some a) slots)) := by
  refine (if_pos rfl).trans ?_
  change some ((field.shape.read value).map fun a => slotted field rest (some a) slots) = _
  rw [hread, map_ok]

/-- A member of another name leaves the slot of the first field as it is. -/
theorem accept_other {name : String} (hname : name ≠ field.name) (slot : Option α)
    (value : Json) :
    (Fields.cons field rest).accept name value (slotted field rest slot slots)
      = (rest.accept name value slots).map fun r => r.map (slotted field rest slot) :=
  if_neg hname

/-- The first field is what its slot holds, or its default. -/
theorem finish_slotted {a : α} {slot : Option α} (hslot : (slot <|> field.default?) = some a) :
    (Fields.cons field rest).finish (slotted field rest slot slots)
      = (rest.finish slots).map fun b => (a, b) := by
  obtain ⟨name, shape, default?, omits⟩ := field
  cases slot with
  | some b =>
      obtain rfl : b = a := Option.some.inj hslot
      rfl
  | none =>
      have hdefault : default? = some a := hslot
      subst hdefault
      rfl

end slotted

/-- One member of a name that spells a text. -/
theorem collect_member {γ : Type} (fs : Fields γ) (name : String) (value : Json)
    (members : List (Bytes × Json)) (slots : fs.Slots) :
    fs.collect ((Literal.encode name, value) :: members) slots
      = match fs.accept name value slots with
        | some outcome => outcome >>= fs.collect members
        | none => fs.collect members slots := by
  rw [collect, textOf_encode]
  rfl

/-- Members of other names pass the first field by. -/
theorem collect_slotted {α β : Type} {field : Field α} {rest : Fields β}
    {members : List (Bytes × Json)}
    (h : ∀ m ∈ members, ∃ name, m.1 = Literal.encode name ∧ name ≠ field.name)
    (slot : Option α) (slots : rest.Slots) :
    (Fields.cons field rest).collect members (slotted field rest slot slots)
      = (rest.collect members slots).map (slotted field rest slot) := by
  induction members generalizing slots with
  | nil => rfl
  | cons m members ih =>
      obtain ⟨raw, value⟩ := m
      obtain ⟨name, hraw, hname⟩ := h (raw, value) (by simp)
      have hraw : raw = Literal.encode name := hraw
      have hrest := ih fun m hm => h m (List.mem_cons_of_mem _ hm)
      rw [hraw, collect_member, collect_member, accept_other hname]
      cases rest.accept name value slots with
      | none => exact hrest slots
      | some outcome =>
          cases outcome with
          | error fault => rfl
          | ok others => exact hrest others

/-- **Records.**  The members that were written fill the slots they were written
from, and the record is made of them again. -/
theorem Faithful.finish_collect {γ : Type} {fs : Fields γ} {good : γ → Prop}
    (h : fs.Faithful good) {c : γ} (hc : good c) :
    ∃ slots, fs.collect (fs.write c) fs.empty = .ok slots ∧ fs.finish slots = .ok c := by
  induction h with
  | nil => exact ⟨(), rfl, rfl⟩
  | @cons α β field rest good good' first others fresh ih =>
      obtain ⟨a, b⟩ := c
      obtain ⟨ha, hb⟩ := hc
      obtain ⟨slots, hslots, hfinish⟩ := ih hb
      have hpass (slot : Option α) :
          (Fields.cons field rest).collect (rest.write b) (slotted field rest slot rest.empty)
            = .ok (slotted field rest slot slots) := by
        rw [collect_slotted, hslots, map_ok]
        intro m hm
        obtain ⟨name, hname, heq⟩ := exists_name_of_mem_write hm
        exact ⟨name, heq, fun hsame => fresh (hsame ▸ hname)⟩
      rw [write]
      change ∃ slots, (Fields.cons field rest).collect _ (slotted field rest none rest.empty)
        = .ok slots ∧ _
      by_cases homits : field.omits a = true
      · have hdefault : ((none : Option α) <|> field.default?) = some a := first.omitted a homits
        rw [if_pos homits]
        refine ⟨_, hpass none, ?_⟩
        rw [finish_slotted hdefault, hfinish, map_ok]
      · rw [if_neg homits, member, collect_member, accept_first (first.shape.read_write a ha)]
        refine ⟨_, hpass (some a), ?_⟩
        rw [finish_slotted (a := a) rfl, hfinish, map_ok]

/-- The members that were written are read as the record. -/
theorem Faithful.ofMembers_write {γ : Type} {fs : Fields γ} {good : γ → Prop}
    (h : fs.Faithful good) {c : γ} (hc : good c) : fs.ofMembers (fs.write c) true = .ok c := by
  obtain ⟨slots, hslots, hfinish⟩ := h.finish_collect hc
  rw [ofMembers, hslots, ok_bind, if_pos rfl, hfinish]

/-- A record of faithful members is faithful. -/
theorem Faithful.record {γ : Type} {fs : Fields γ} {good : γ → Prop} (h : fs.Faithful good) :
    (Shape.record fs).Faithful good where
  written c hc := by
    refine .object (fun m hm => ?_) (h.written hc)
    obtain ⟨name, -, heq⟩ := exists_name_of_mem_write hm
    exact ⟨name, heq⟩
  read_write _ hc := h.ofMembers_write hc

end Fields

end KeyExchange.Json
