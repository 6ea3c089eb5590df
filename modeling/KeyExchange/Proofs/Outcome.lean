import Mathlib.Algebra.Group.Nat.Defs
import Mathlib.Data.List.Forall2
import Mathlib.Data.Option.Basic

/-!
# Computations that may fail

When a composed computation succeeds, its parts did.  These are the steps by
which the proofs of this library take a computation apart.

* `bind_eq_ok_iff`: a sequence of two steps;
* `mapM_eq_ok_iff`: one step for each item of a list;
* `forall₂_trans`: what such steps relate, related once more;
* `exists_bind_eq_ok_iff`, `exists_mapM_eq_ok_iff`: whether there is a result, whatever it is;
* `FailsOnly`: with which faults a computation can end, by the same steps.
-/

namespace KeyExchange.Outcome

variable {ε ε' α β : Type}

/-- Behind a success the rest goes on with its value. -/
@[simp] theorem ok_bind (a : α) (f : α → Except ε β) : (Except.ok a >>= f) = f a := rfl

/-- Nothing is done behind a fault. -/
@[simp] theorem error_bind (e : ε) (f : α → Except ε β) :
    (Except.error e >>= f) = .error e := rfl

/-- The value of a success is mapped. -/
@[simp] theorem map_ok (f : α → β) (a : α) : (Except.ok a : Except ε α).map f = .ok (f a) := rfl

/-- A success has no fault to map. -/
@[simp] theorem mapError_ok (f : ε → ε') (a : α) :
    (Except.ok a : Except ε α).mapError f = .ok a := rfl

/-- The fault of a failure is mapped. -/
@[simp] theorem mapError_error (f : ε → ε') (e : ε) :
    (Except.error e : Except ε α).mapError f = .error (f e) := rfl

/-- A failure is not a success. -/
theorem error_ne_ok (e : ε) (a : α) : (Except.error e : Except ε α) ≠ .ok a := by
  intro h
  cases h

/-- A sequence succeeds when its first step does and the rest does from there. -/
theorem bind_eq_ok_iff {x : Except ε α} {f : α → Except ε β} {b : β} :
    (x >>= f) = .ok b ↔ ∃ a, x = .ok a ∧ f a = .ok b := by
  cases x with
  | error e => simp
  | ok a => simp

/-- A mapped computation succeeds when the computation does. -/
theorem map_eq_ok_iff {x : Except ε α} {f : α → β} {b : β} :
    x.map f = .ok b ↔ ∃ a, x = .ok a ∧ f a = b := by
  cases x with
  | error e => exact iff_of_false (error_ne_ok _ _) fun ⟨_, h, _⟩ => error_ne_ok _ _ h
  | ok a => simp

/-- Telling faults differently leaves every success as it is. -/
theorem mapError_eq_ok_iff {x : Except ε α} {f : ε → ε'} {a : α} :
    x.mapError f = .ok a ↔ x = .ok a := by
  cases x with
  | error e => simp
  | ok b => simp

/-- A check that holds lets the computation go on. -/
theorem guard_of_true {p : Prop} [Decidable p] (h : p) : (guard p : Option Unit) = some () :=
  if_pos h

/-- A computation goes on behind a check only when the check holds. -/
theorem of_guard {p : Prop} [Decidable p] {u : Unit} (h : (guard p : Option Unit) = some u) :
    p := by
  by_contra hnot
  have hnone : (guard p : Option Unit) = none := if_neg hnot
  rw [hnone] at h
  cases h

/-- A step for each item succeeds when every item's step does. -/
theorem mapM_eq_ok_iff {f : α → Except ε β} {xs : List α} {ys : List β} :
    xs.mapM f = .ok ys ↔ List.Forall₂ (fun x y => f x = .ok y) xs ys := by
  induction xs generalizing ys with
  | nil =>
      rw [List.mapM_nil, List.forall₂_nil_left_iff]
      constructor
      · intro h
        cases h
        rfl
      · intro hsame
        subst hsame
        rfl
  | cons x xs ih =>
      rw [List.mapM_cons, List.forall₂_cons_left_iff]
      simp only [bind_eq_ok_iff, ih]
      constructor
      · intro hparts
        obtain ⟨y, hy, ys', hys, h⟩ := hparts
        cases h
        exact ⟨y, ys', hy, hys, rfl⟩
      · intro hparts
        obtain ⟨y, ys', hy, hys, rfl⟩ := hparts
        exact ⟨y, hy, ys', hys, rfl⟩

/-- An item may be replaced by one for which the step does the same. -/
theorem mapM_replace {f : α → Except ε β} {x y : α} (h : ∀ b, f x = .ok b → f y = .ok b)
    {before after : List α} {bs : List β} (hx : (before ++ x :: after).mapM f = .ok bs) :
    (before ++ y :: after).mapM f = .ok bs := by
  rw [mapM_eq_ok_iff] at hx ⊢
  induction before generalizing bs with
  | nil =>
      cases hx with
      | cons hfirst hrest => exact .cons (h _ hfirst) hrest
  | cons z before ih =>
      cases hx with
      | cons hfirst hrest => exact .cons hfirst (ih hrest)

/-- Steps of which none fails come out, for all items together. -/
theorem exists_mapM_eq_ok {f : α → Except ε β} {xs : List α} (h : ∀ x ∈ xs, ∃ y, f x = .ok y) :
    ∃ ys, xs.mapM f = .ok ys := by
  induction xs with
  | nil => exact ⟨[], rfl⟩
  | cons x xs ih =>
      obtain ⟨⟨y, hy⟩, hothers⟩ := List.forall_mem_cons.1 h
      obtain ⟨ys, hys⟩ := ih hothers
      exact ⟨y :: ys, by rw [List.mapM_cons, hy, hys]; rfl⟩

/-- A step for each item fails when some item's step does. -/
theorem exists_mapM_eq_error_iff {f : α → Except ε β} {xs : List α} :
    (∃ fault, xs.mapM f = .error fault) ↔ ∃ x ∈ xs, ∃ fault, f x = .error fault := by
  induction xs with
  | nil => exact iff_of_false (fun ⟨_, h⟩ => nomatch h) fun ⟨_, hx, _⟩ => nomatch hx
  | cons x xs ih =>
      rw [List.mapM_cons, List.exists_mem_cons_iff, ← ih]
      rcases hx : f x with fault | y
      · exact iff_of_true ⟨fault, rfl⟩ (.inl ⟨fault, rfl⟩)
      · rcases hxs : xs.mapM f with fault | ys
        · exact iff_of_true ⟨fault, rfl⟩ (.inr ⟨fault, rfl⟩)
        · refine iff_of_false (fun ⟨_, h⟩ => nomatch h) ?_
          rintro (⟨_, h⟩ | ⟨_, h⟩)
          · cases h
          · cases h

/-- Behind items whose steps come out, an item whose step fails ends them all. -/
theorem mapM_eq_error {f : α → Except ε β} {before after : List α} {x : α} {fault : ε}
    (hbefore : ∀ y ∈ before, ∃ b, f y = .ok b) (hx : f x = .error fault) :
    (before ++ x :: after).mapM f = .error fault := by
  induction before with
  | nil =>
      rw [List.nil_append, List.mapM_cons, hx]
      rfl
  | cons y before ih =>
      obtain ⟨⟨b, hb⟩, hothers⟩ := List.forall_mem_cons.1 hbefore
      rw [List.cons_append, List.mapM_cons, hb, ok_bind, ih hothers]
      rfl

/-- In lists related item by item, every item on the left has a partner. -/
theorem exists_right_of_forall₂ {R : α → β → Prop} {xs : List α} {ys : List β} {x : α}
    (h : List.Forall₂ R xs ys) (hx : x ∈ xs) : ∃ y ∈ ys, R x y := by
  induction h with
  | nil => simp at hx
  | @cons a b as bs hab _ ih =>
      rcases List.mem_cons.1 hx with rfl | hx
      · exact ⟨b, by simp, hab⟩
      · obtain ⟨y, hy, hxy⟩ := ih hx
        exact ⟨y, List.mem_cons_of_mem _ hy, hxy⟩

/-- In lists related item by item, every item on the right has a partner. -/
theorem exists_left_of_forall₂ {R : α → β → Prop} {xs : List α} {ys : List β} {y : β}
    (h : List.Forall₂ R xs ys) (hy : y ∈ ys) : ∃ x ∈ xs, R x y :=
  exists_right_of_forall₂ h.flip hy

/-- Lists related item by item to one list between them are related to each other. -/
theorem forall₂_trans {γ : Type} {R : α → β → Prop} {S : β → γ → Prop} {xs : List α}
    {ys : List β} {zs : List γ} (hxy : List.Forall₂ R xs ys) (hyz : List.Forall₂ S ys zs) :
    List.Forall₂ (fun x z => ∃ y, R x y ∧ S y z) xs zs := by
  induction hxy generalizing zs with
  | nil =>
      cases hyz
      exact .nil
  | @cons x y xs ys hfirst _ ih =>
      cases hyz with
      | @cons _ z _ zs hsecond hrest => exact .cons ⟨y, hfirst, hsecond⟩ (ih hrest)

/-! ## Whether there is a result -/

/-- A plain value is a result. -/
theorem exists_pure_eq_ok (a : α) : ∃ b, (pure a : Except ε α) = .ok b := ⟨a, rfl⟩

/-- A sequence has a result when its first step has one from which the rest has one. -/
theorem exists_bind_eq_ok_iff {x : Except ε α} {f : α → Except ε β} :
    (∃ b, (x >>= f) = .ok b) ↔ ∃ a, x = .ok a ∧ ∃ b, f a = .ok b := by
  simp only [bind_eq_ok_iff]
  exact ⟨fun ⟨b, a, ha, hb⟩ => ⟨a, ha, b, hb⟩, fun ⟨a, ha, b, hb⟩ => ⟨b, a, ha, hb⟩⟩

/-- There are results for a list when there is one for each item. -/
theorem exists_mapM_eq_ok_iff {f : α → Except ε β} {xs : List α} :
    (∃ ys, xs.mapM f = .ok ys) ↔ ∀ x ∈ xs, ∃ y, f x = .ok y := by
  constructor
  · rintro ⟨ys, hys⟩ x hx
    obtain ⟨y, -, hy⟩ := exists_right_of_forall₂ (mapM_eq_ok_iff.1 hys) hx
    exact ⟨y, hy⟩
  · exact exists_mapM_eq_ok

/-- There is a result for an optional item when there is one for the item, if any. -/
theorem exists_optionMapM_eq_ok_iff {f : α → Except ε β} {o : Option α} :
    (∃ y, o.mapM f = .ok y) ↔ ∀ x ∈ o.toList, ∃ y, f x = .ok y := by
  cases o with
  | none => exact iff_of_true ⟨none, rfl⟩ (List.forall_mem_nil _)
  | some x =>
      rw [Option.toList_some, List.forall_mem_singleton]
      change (∃ y, (some <$> f x) = .ok y) ↔ _
      cases f x with
      | error fault => exact iff_of_false (fun ⟨_, h⟩ => nomatch h) fun ⟨_, h⟩ => nomatch h
      | ok y => exact iff_of_true ⟨some y, rfl⟩ ⟨y, rfl⟩

/-! ## Faults -/

/-- Every fault with which the computation can end has the property. -/
def FailsOnly (P : ε → Prop) (x : Except ε α) : Prop := ∀ fault, x = .error fault → P fault

namespace FailsOnly

variable {P : ε → Prop}

/-- A success does not fail at all. -/
theorem ok (a : α) : FailsOnly P (.ok a) := nofun

/-- A fault is the only one a failure ends with. -/
theorem error {fault : ε} (h : P fault) : FailsOnly P (.error fault : Except ε α) := by
  intro fault' hfault
  cases hfault
  exact h

/-- A sequence fails as its first step does, or as the rest does with what came of it. -/
theorem bind_of_ok {x : Except ε α} {f : α → Except ε β} (hx : FailsOnly P x)
    (hf : ∀ a, x = .ok a → FailsOnly P (f a)) : FailsOnly P (x >>= f) := by
  cases x with
  | error fault => exact .error (hx fault rfl)
  | ok a => exact hf a rfl

/-- A sequence fails as its first step does, or as the rest does from there. -/
theorem bind {x : Except ε α} {f : α → Except ε β} (hx : FailsOnly P x)
    (hf : ∀ a, FailsOnly P (f a)) : FailsOnly P (x >>= f) :=
  hx.bind_of_ok fun a _ => hf a

/-- A step for each item fails as the step for one of them does. -/
theorem mapM_of_mem {f : α → Except ε β} {xs : List α} (h : ∀ x ∈ xs, FailsOnly P (f x)) :
    FailsOnly P (xs.mapM f) := by
  induction xs with
  | nil =>
      rw [List.mapM_nil]
      exact .ok []
  | cons x xs ih =>
      obtain ⟨hfirst, hrest⟩ := List.forall_mem_cons.1 h
      rw [List.mapM_cons]
      exact hfirst.bind fun y => (ih hrest).bind fun ys => .ok (y :: ys)

/-- A step for each item fails as one of these steps does. -/
theorem mapM {f : α → Except ε β} (h : ∀ a, FailsOnly P (f a)) (xs : List α) :
    FailsOnly P (xs.mapM f) :=
  mapM_of_mem fun x _ => h x

end FailsOnly

end KeyExchange.Outcome
