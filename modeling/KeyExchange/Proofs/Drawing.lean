import Mathlib.Data.List.Forall2
import KeyExchange.Entropy

/-!
# Computations that draw

What is proved of a saved document rarely depends on the octets that were
drawn for it, only on the fact that some were.  `Drawing.Gives x a` says that
`x` can come out as `a`, whatever the source gave; the lemmas take it apart
along the steps of `x`.

* `Gives.bind`: a sequence of two steps;
* `Gives.mapM`: one step for each item of a list.

Two computations are `Alike` when no source tells them apart by what they draw and
whether they fail, and what they come out as is related.  The lemmas go along the
same steps.

Where it matters which octets were drawn, `Draws x e n a` says that `x` comes out as
`a` from the source `e` and draws `n` octets of it, and `Fails x e fault` that it fails.
`Local x` says that no octet counts but those that are drawn.
-/

namespace KeyExchange

namespace Entropy

/-- The source after `n` more octets were drawn. -/
def skip (e : Entropy) (n : Nat) : Entropy := { e with position := e.position + n }

/-- Passing over octets twice passes over their sum. -/
theorem skip_skip (e : Entropy) (m n : Nat) : (e.skip m).skip n = e.skip (m + n) :=
  congrArg (Entropy.mk e.byteAt) (Nat.add_assoc _ _ _)

/-- The two sources stand at one place and hand out the same `n` octets next. -/
structure SameNext (n : Nat) (e e' : Entropy) : Prop where
  position : e'.position = e.position
  octets : ∀ i < n, e'.byteAt (e.position + i) = e.byteAt (e.position + i)

namespace SameNext

variable {m n : Nat} {e e' : Entropy}

/-- Sources that agree on the next octets agree on fewer of them. -/
theorem mono (h : SameNext n e e') (hle : m ≤ n) : SameNext m e e' :=
  ⟨h.position, fun i hi => h.octets i (Nat.lt_of_lt_of_le hi hle)⟩

/-- What is handed out later is the same too. -/
theorem skip (h : SameNext (m + n) e e') : SameNext n (e.skip m) (e'.skip m) where
  position := congrArg (· + m) h.position
  octets i hi := by
    have hlater := h.octets (m + i) (Nat.add_lt_add_left hi m)
    rw [← Nat.add_assoc] at hlater
    exact hlater

/-- Sources that agree on the next octets hand out the same next piece. -/
theorem slice (h : SameNext n e e') : e'.slice e'.position n = e.slice e.position n := by
  apply Octets.ext
  apply List.map_congr_left
  intro i hi
  rw [h.position]
  exact h.octets i (List.mem_range.1 hi)

end SameNext

end Entropy

namespace Drawing

variable {ε ε' α β : Type}

/-- The computation comes out as `a` on some source. -/
def Gives (x : Drawing ε α) (a : α) : Prop := ∃ before after, x before = (.ok a, after)

/-- The first component is what the computation comes out as. -/
theorem gives_of_fst {x : Drawing ε α} {a : α} {e : Entropy} (h : (x e).1 = .ok a) : Gives x a :=
  ⟨e, (x e).2, Prod.ext h rfl⟩

/-! ## The steps -/

/-- The second step of a sequence starts where the first has stopped. -/
theorem bind_apply (x : Drawing ε α) (f : α → Drawing ε β) (e : Entropy) :
    (x >>= f) e = ExceptT.bindCont f (x e).1 (x e).2 := rfl

/-- Telling faults differently changes neither what comes out nor what is drawn. -/
theorem adapt_apply (g : ε' → ε) (x : Drawing ε' α) (e : Entropy) :
    ExceptT.adapt g x e = ((x e).1.mapError g, (x e).2) := rfl

/-- In a sequence that comes out, the first step came out, and the rest from there. -/
theorem Gives.bind {x : Drawing ε α} {f : α → Drawing ε β} {b : β} (h : Gives (x >>= f) b) :
    ∃ a, Gives x a ∧ Gives (f a) b := by
  obtain ⟨before, after, h⟩ := h
  rw [bind_apply] at h
  rcases hx : x before with ⟨outcome, between⟩
  rw [hx] at h
  cases outcome with
  | error fault => cases h
  | ok a => exact ⟨a, ⟨before, between, hx⟩, ⟨between, after, h⟩⟩

/-- A plain value comes out as itself. -/
theorem Gives.pure {a b : α} (h : Gives (pure a : Drawing ε α) b) : a = b := by
  obtain ⟨_, _, h⟩ := h
  cases h
  rfl

/-- A fault does not come out as a value. -/
theorem not_gives_throw {fault : ε} {a : α} : ¬Gives (throw fault : Drawing ε α) a := by
  intro ⟨_, _, h⟩
  cases h

/-- What draws nothing comes out one way. -/
theorem Gives.liftExcept {x : Except ε α} {a : α} (h : Gives (liftExcept x) a) : x = .ok a := by
  obtain ⟨_, _, h⟩ := h
  exact congrArg Prod.fst h

/-- Faults that are told differently make no difference to what comes out. -/
theorem Gives.adapt {g : ε' → ε} {x : Drawing ε' α} {a : α} (h : Gives (ExceptT.adapt g x) a) :
    Gives x a := by
  obtain ⟨before, after, h⟩ := h
  rw [adapt_apply] at h
  rcases hx : x before with ⟨outcome, between⟩
  rw [hx] at h
  cases outcome with
  | error fault => cases h
  | ok b =>
      cases h
      exact ⟨before, between, hx⟩

/-- Steps for a list come out item by item. -/
theorem Gives.mapM {f : α → Drawing ε β} {xs : List α} {ys : List β} (h : Gives (xs.mapM f) ys) :
    List.Forall₂ (fun x y => Gives (f x) y) xs ys := by
  induction xs generalizing ys with
  | nil =>
      rw [List.mapM_nil] at h
      rw [← h.pure]
      exact .nil
  | cons x xs ih =>
      rw [List.mapM_cons] at h
      obtain ⟨y, hy, h⟩ := h.bind
      obtain ⟨rest, hrest, h⟩ := h.bind
      rw [← h.pure]
      exact .cons hy (ih hrest)

/-! ## Two computations -/

/-- Two outcomes are the same fault, or results that are related. -/
inductive Agree (R : α → β → Prop) : Except ε α → Except ε β → Prop
  | ok {a : α} {b : β} (related : R a b) : Agree R (.ok a) (.ok b)
  | error (fault : ε) : Agree R (.error fault) (.error fault)

/-- On every source the two draw the same and their outcomes agree. -/
def Alike (R : α → β → Prop) (x : Drawing ε α) (y : Drawing ε β) : Prop :=
  ∀ e, (x e).2 = (y e).2 ∧ Agree R (x e).1 (y e).1

section Alike

variable {γ δ : Type} {R : α → β → Prop} {S : γ → δ → Prop} {x : Drawing ε α} {y : Drawing ε β}

/-- No source tells a computation from itself. -/
theorem alike_self (x : Drawing ε α) : Alike Eq x x := by
  intro e
  refine ⟨rfl, ?_⟩
  cases (x e).1 with
  | error fault => exact .error fault
  | ok a => exact .ok rfl

/-- Related values are alike as computations. -/
theorem alike_pure {a : α} {b : β} (h : R a b) :
    Alike R (pure a : Drawing ε α) (pure b) := fun _ => ⟨rfl, .ok h⟩

/-- Outcomes that agree are alike as computations. -/
theorem alike_liftExcept {a : Except ε α} {b : Except ε β} (h : Agree R a b) :
    Alike R (liftExcept a) (liftExcept b) := fun _ => ⟨rfl, h⟩

/-- In a sequence the second steps start from one source, and from results that are
related. -/
theorem Alike.bind {f : α → Drawing ε γ} {g : β → Drawing ε δ} (h : Alike R x y)
    (hrest : ∀ a b, R a b → Alike S (f a) (g b)) : Alike S (x >>= f) (y >>= g) := by
  intro e
  obtain ⟨hdrawn, hagree⟩ := h e
  rw [bind_apply, bind_apply, hdrawn]
  generalize (x e).1 = a at hagree
  generalize (y e).1 = b at hagree
  cases hagree with
  | error fault => exact ⟨rfl, .error fault⟩
  | ok related => exact hrest _ _ related (y e).2

/-- What is related also came out. -/
theorem Alike.gives (h : Alike R x y) :
    Alike (fun a b => R a b ∧ Gives x a ∧ Gives y b) x y := by
  intro e
  obtain ⟨hdrawn, hagree⟩ := h e
  refine ⟨hdrawn, ?_⟩
  rcases hx : (x e).1 with fault | a
  · rcases hy : (y e).1 with fault' | b
    · rw [hx, hy] at hagree
      cases hagree
      exact .error fault
    · rw [hx, hy] at hagree
      cases hagree
  · rcases hy : (y e).1 with fault' | b
    · rw [hx, hy] at hagree
      cases hagree
    · rw [hx, hy] at hagree
      cases hagree with
      | ok related => exact .ok ⟨related, gives_of_fst hx, gives_of_fst hy⟩

/-- Faults that are told differently stay alike. -/
theorem Alike.adapt {x : Drawing ε' α} {y : Drawing ε' β} (h : Alike R x y) (g : ε' → ε) :
    Alike R (ExceptT.adapt g x) (ExceptT.adapt g y) := by
  intro e
  obtain ⟨hdrawn, hagree⟩ := h e
  rw [adapt_apply, adapt_apply]
  refine ⟨hdrawn, ?_⟩
  dsimp only
  generalize (x e).1 = a at hagree
  generalize (y e).1 = b at hagree
  cases hagree with
  | error fault => exact .error (g fault)
  | ok related => exact .ok related

/-- Steps for two lists whose items are related stay alike item by item. -/
theorem alike_mapM {f : α → Drawing ε γ} {g : β → Drawing ε δ} {xs : List α} {ys : List β}
    (h : List.Forall₂ R xs ys) (hstep : ∀ x y, R x y → Alike S (f x) (g y)) :
    Alike (List.Forall₂ S) (xs.mapM f) (ys.mapM g) := by
  induction h with
  | nil =>
      rw [List.mapM_nil, List.mapM_nil]
      exact alike_pure .nil
  | @cons x y xs ys hitem _ ih =>
      rw [List.mapM_cons, List.mapM_cons]
      exact (hstep x y hitem).bind fun _ _ hfirst =>
        ih.bind fun _ _ hothers => alike_pure (.cons hfirst hothers)

end Alike

/-! ## What is drawn -/

/-- From the source on the computation comes out as `a`, and `n` octets are drawn. -/
def Draws (x : Drawing ε α) (e : Entropy) (n : Nat) (a : α) : Prop := x e = (.ok a, e.skip n)

/-- From the source on the computation fails. -/
def Fails (x : Drawing ε α) (e : Entropy) (fault : ε) : Prop := (x e).1 = .error fault

section Draws

variable {x : Drawing ε α} {f : α → Drawing ε β} {e : Entropy} {a : α} {b : β} {n k : Nat}
  {fault : ε}

/-- A plain value draws nothing. -/
theorem draws_pure (a : α) (e : Entropy) : Draws (pure a : Drawing ε α) e 0 a := rfl

/-- An outcome that is a value draws nothing. -/
theorem draws_liftExcept {outcome : Except ε α} (h : outcome = .ok a) (e : Entropy) :
    Draws (liftExcept outcome) e 0 a := by
  rw [h]
  rfl

/-- What is drawn from some source can come out. -/
theorem Draws.gives (h : Draws x e n a) : Gives x a := ⟨e, e.skip n, h⟩

/-- A computation that comes out does not fail on the same source. -/
theorem Draws.not_fails (h : Draws x e n a) : ¬Fails x e fault := by
  intro hfails
  rw [Fails, h] at hfails
  cases hfails

/-- The second step starts where the first one left the source. -/
theorem Draws.bind (hx : Draws x e n a) (hf : Draws (f a) (e.skip n) k b) :
    Draws (x >>= f) e (n + k) b := by
  rw [Draws, bind_apply, hx, ← e.skip_skip]
  exact hf

/-- The second step draws nothing. -/
theorem Draws.bind_free (hx : Draws x e n a) (hf : Draws (f a) (e.skip n) 0 b) :
    Draws (x >>= f) e n b := hx.bind hf

/-- The first step draws nothing. -/
theorem Draws.free_bind (hx : Draws x e 0 a) (hf : Draws (f a) e n b) :
    Draws (x >>= f) e n b := by
  rw [← Nat.zero_add n]
  exact hx.bind hf

/-- A sequence fails where its second step fails, on what the first has left. -/
theorem Draws.bind_fails (hx : Draws x e n a) (hf : Fails (f a) (e.skip n) fault) :
    Fails (x >>= f) e fault := by
  rw [Fails, bind_apply, hx]
  exact hf

/-- A sequence fails where its first step fails. -/
theorem Fails.bind (hx : Fails x e fault) (f : α → Drawing ε β) : Fails (x >>= f) e fault := by
  rw [Fails, bind_apply, hx]
  rfl

/-- Telling faults differently changes nothing of what is drawn. -/
theorem Draws.adapt {x : Drawing ε' α} (h : Draws x e n a) (g : ε' → ε) :
    Draws (ExceptT.adapt g x) e n a := by
  rw [Draws, adapt_apply, h]
  rfl

/-- A fault is told differently where it occurs. -/
theorem Fails.adapt {x : Drawing ε' α} {fault : ε'} (h : Fails x e fault) (g : ε' → ε) :
    Fails (ExceptT.adapt g x) e (g fault) := by
  rw [Fails, adapt_apply, h]
  rfl

/-- Where the step for an item starts when each draws `n` octets. -/
theorem skip_mul_succ (e : Entropy) (n i : Nat) :
    (e.skip n).skip (n * i) = e.skip (n * (i + 1)) := by
  rw [e.skip_skip, Nat.mul_succ, Nat.add_comm]

/-- **Steps of one length.**  When the step for every item draws `n` octets, from where
the steps before it left the source, so many are drawn for each item. -/
theorem draws_mapM {f : α → Drawing ε β} {xs : List α} {R : Nat → α → β → Prop}
    (h : ∀ i x, xs[i]? = some x → ∃ y, Draws (f x) (e.skip (n * i)) n y ∧ R i x y) :
    ∃ ys, Draws (xs.mapM f) e (n * xs.length) ys ∧ ys.length = xs.length ∧
      ∀ i x, xs[i]? = some x → ∃ y, ys[i]? = some y ∧ R i x y := by
  -- The first item moves the source and the places of the others, so both are general.
  induction xs generalizing e R with
  | nil => exact ⟨[], draws_pure [] e, rfl, fun i x hx => nomatch hx⟩
  | cons x xs ih =>
      obtain ⟨y, hy, hfirst⟩ := h 0 x rfl
      have hothers (i : Nat) (x' : α) (hx' : xs[i]? = some x') :
          ∃ y', Draws (f x') ((e.skip n).skip (n * i)) n y' ∧ R (i + 1) x' y' := by
        rw [skip_mul_succ]
        exact h (i + 1) x' hx'
      obtain ⟨ys, hys, hlength, hrest⟩ := ih hothers
      refine ⟨y :: ys, ?_, congrArg (· + 1) hlength, fun i x' hx' => ?_⟩
      · have hlater : Draws (xs.mapM f >>= fun ys => pure (y :: ys)) (e.skip n)
            (n * xs.length) (y :: ys) := hys.bind_free (draws_pure _ _)
        rw [List.mapM_cons, List.length_cons, Nat.mul_succ, Nat.add_comm]
        exact hy.bind hlater
      · cases i with
        | zero =>
            cases hx'
            exact ⟨y, rfl, hfirst⟩
        | succ i => exact hrest i x' hx'

/-- **Steps of one length, of which one fails.** -/
theorem fails_mapM {f : α → Drawing ε β} {xs : List α}
    (h : ∀ i x, xs[i]? = some x →
      (∃ y, Draws (f x) (e.skip (n * i)) n y) ∨ Fails (f x) (e.skip (n * i)) fault)
    (hfails : ∃ i x, xs[i]? = some x ∧ Fails (f x) (e.skip (n * i)) fault) :
    Fails (xs.mapM f) e fault := by
  induction xs generalizing e with
  | nil =>
      obtain ⟨i, x, hx, -⟩ := hfails
      cases hx
  | cons x xs ih =>
      rw [List.mapM_cons]
      rcases h 0 x rfl with ⟨y, hy⟩ | hfirst
      · have hothers : Fails (xs.mapM f) (e.skip n) fault := by
          apply ih
          · intro i x' hx'
            rw [skip_mul_succ]
            exact h (i + 1) x' hx'
          · obtain ⟨i, x', hx', hlater⟩ := hfails
            cases i with
            | zero =>
                cases hx'
                exact absurd hlater hy.not_fails
            | succ i =>
                rw [← skip_mul_succ] at hlater
                exact ⟨i, x', hx', hlater⟩
        exact hy.bind_fails (hothers.bind _)
      · exact hfirst.bind _

end Draws

/-! ## Only what is drawn counts -/

/-- On every source some octets are drawn, and on any other source that hands out the
same ones the computation comes out the same and draws as many. -/
def Local (x : Drawing ε α) : Prop :=
  ∀ e, ∃ n, (x e).2 = e.skip n ∧ ∀ e', e.SameNext n e' → x e' = ((x e).1, e'.skip n)

/-- An outcome is local, as it draws nothing. -/
theorem local_liftExcept (outcome : Except ε α) : Local (liftExcept outcome) :=
  fun _ => ⟨0, rfl, fun _ _ => rfl⟩

/-- A plain value is local. -/
theorem local_pure (a : α) : Local (pure a : Drawing ε α) := local_liftExcept (.ok a)

/-- A fault is local. -/
theorem local_throw (fault : ε) : Local (throw fault : Drawing ε α) :=
  local_liftExcept (.error fault)

/-- Drawing some octets is local. -/
theorem local_draw (n : Nat) : Local (draw n : Drawing ε (Octets n)) := by
  intro e
  refine ⟨n, rfl, fun e' h => ?_⟩
  rw [draw, h.slice]
  rfl

/-- The second step starts where the first one left either source. -/
theorem Local.bind {x : Drawing ε α} {f : α → Drawing ε β} (hx : Local x)
    (hf : ∀ a, Local (f a)) : Local (x >>= f) := by
  intro e
  obtain ⟨n, hleft, hsame⟩ := hx e
  rcases houtcome : (x e).1 with fault | a
  · rw [bind_apply, houtcome]
    refine ⟨n, hleft, fun e' h => ?_⟩
    rw [bind_apply, hsame e' h, houtcome]
    rfl
  · obtain ⟨m, hend, hlater⟩ := hf a (e.skip n)
    rw [bind_apply, houtcome, hleft]
    refine ⟨n + m, hend.trans (e.skip_skip n m), fun e' h => ?_⟩
    rw [bind_apply, hsame e' (h.mono (Nat.le_add_right n m)), houtcome, ← e'.skip_skip]
    exact hlater (e'.skip n) h.skip

/-- A computation stays local when faults are told differently. -/
theorem Local.adapt {x : Drawing ε' α} (h : Local x) (g : ε' → ε) : Local (ExceptT.adapt g x) := by
  intro e
  obtain ⟨n, hleft, hsame⟩ := h e
  rw [adapt_apply]
  refine ⟨n, hleft, fun e' he' => ?_⟩
  rw [adapt_apply, hsame e' he']

/-- Local steps for the items of a list are local together. -/
theorem local_mapM {f : α → Drawing ε β} (h : ∀ a, Local (f a)) (xs : List α) :
    Local (xs.mapM f) := by
  induction xs with
  | nil =>
      rw [List.mapM_nil]
      exact local_pure []
  | cons x xs ih =>
      rw [List.mapM_cons]
      exact (h x).bind fun y => ih.bind fun ys => local_pure (y :: ys)

end Drawing

end KeyExchange
