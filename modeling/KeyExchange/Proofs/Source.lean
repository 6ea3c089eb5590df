import Mathlib.Data.List.Basic
import KeyExchange.Document.Transfer
import KeyExchange.Proofs.Outcome

/-!
# What a source gives

A source gives its data from the front, in pieces of any sizes.  However these sizes and
the interruptions fall, what is read is the beginning of the data, up to the limit, and
the rest stays in the source.

* `Willing`: a source whose calls give something as long as there is something;
* `Gave`: the source after some octets were given;
* `Willing.read`: what one call comes to;
* `Willing.readCalls`: what any number of calls read and leave, `Willing.readUpTo`: and as
  many as are needed;
* `Yields`: a source that gives all of its data, `Yields.readUpTo`: and what is read of it.
-/

namespace KeyExchange.Source

open Outcome

/-- No call that is answered gives nothing while there is something. -/
structure Willing (s : Source) : Prop where
  chunk : s.chunk ≠ some 0
  turns : .piece 0 ∉ s.turns

/-- How many calls may be used up by interruptions and turns. -/
def idleCalls (s : Source) : Nat := s.interrupts + s.turns.length

/-- The source `s` has given `p` octets and is now `s'`. -/
structure Gave (s : Source) (p : Nat) (s' : Source) : Prop where
  data : s'.data = s.data.drop p
  failAfter : s'.failAfter = s.failAfter.map (· - p)
  willing : s'.Willing
  idleCalls : s'.idleCalls ≤ s.idleCalls

/-- The source fails before `limit` octets were read or the end of its data was met. -/
def FailsBefore (s : Source) (limit : Nat) : Prop :=
  ∃ k ∈ s.failAfter, k < limit ∧ k ≤ s.data.length

/-! ## One call -/

/-- What a call for at most `n` octets may come to. -/
inductive Answers (s : Source) (n : Nat) : Reply × Source → Prop
  | interrupted {s' : Source} (gave : s.Gave 0 s') (less : s'.idleCalls < s.idleCalls) :
      Answers s n (.interrupted, s')
  | failed {s' : Source} (now : s.failAfter = some 0) (same : s'.data = s.data) :
      Answers s n (.failed, s')
  | gave {s' : Source} {p : Nat} (gave : s.Gave p s') (asked : p ≤ n) (there : p ≤ s.data.length)
      (before : ∀ k ∈ s.failAfter, k ≠ 0 ∧ p ≤ k) (something : p = 0 → s.data = []) :
      Answers s n (.gave (s.data.take p), s')

variable {s : Source} {n : Nat}

/-- An answer gives octets from the front, and at least one if there is one. -/
theorem Willing.give (h : s.Willing) {most : Option Nat} (hmost : most ≠ some 0) (hn : n ≠ 0) :
    s.Answers n (s.give most n) := by
  unfold Source.give
  by_cases hzero : s.failAfter = some 0
  · rw [if_pos hzero]
    exact .failed hzero rfl
  · rw [if_neg hzero]
    have hsome := within_ne_zero hmost (within_ne_zero hzero hn)
    have hfew := within_le most (within s.failAfter n)
    have hasked := within_le s.failAfter n
    have hbefore := fun k (hk : k ∈ s.failAfter) => within_le_of_mem hk n
    generalize within most (within s.failAfter n) = count at hsome hfew
    -- No more is given than there is.
    dsimp only
    rw [List.take_eq_take_min, List.drop_eq_drop_min]
    have hlength : (s.data.take (min count s.data.length)).length = min count s.data.length := by
      rw [List.length_take, Nat.min_eq_left (Nat.min_le_right _ _)]
    have hle : min count s.data.length ≤ count := Nat.min_le_left _ _
    refine .gave ⟨rfl, ?_, ⟨h.chunk, h.turns⟩, Nat.le_refl _⟩ (by omega)
      (Nat.min_le_right _ _) ?_ ?_
    · exact congrArg (fun p => s.failAfter.map (· - p)) hlength
    · intro k hk
      have hk' := hbefore k hk
      refine ⟨?_, by omega⟩
      rintro rfl
      exact hzero hk
    · intro hnone
      exact List.length_eq_zero_iff.1 (by omega)

/-- A source that is as it was, but for the calls to come. -/
theorem Gave.none {s' : Source} (hdata : s'.data = s.data) (hfail : s'.failAfter = s.failAfter)
    (hwilling : s'.Willing) (hidle : s'.idleCalls ≤ s.idleCalls) : s.Gave 0 s' where
  data := hdata
  failAfter := by
    rw [hfail]
    exact Option.map_id_fun.symm ▸ rfl
  willing := hwilling
  idleCalls := hidle

/-- What a call comes to without the turn that it used up. -/
theorem Answers.of_turn {s₁ : Source} {answer : Reply × Source} (h : s₁.Answers n answer)
    (hdata : s₁.data = s.data) (hfail : s₁.failAfter = s.failAfter)
    (hidle : s₁.idleCalls ≤ s.idleCalls) : s.Answers n answer := by
  have hgave {p : Nat} {s' : Source} (hs : s₁.Gave p s') : s.Gave p s' :=
    ⟨hdata ▸ hs.data, hfail ▸ hs.failAfter, hs.willing, Nat.le_trans hs.idleCalls hidle⟩
  cases h with
  | interrupted gave less => exact .interrupted (hgave gave) (Nat.lt_of_lt_of_le less hidle)
  | failed now same => exact .failed (hfail ▸ now) (hdata ▸ same)
  | gave gave asked there before something =>
      rw [hdata] at there something ⊢
      rw [hfail] at before
      exact .gave (hgave gave) asked there before something

/-- **One call.**  It is interrupted or fails, or it gives octets from the front. -/
theorem Willing.read (h : s.Willing) (hn : n ≠ 0) : s.Answers n (s.read n) := by
  obtain ⟨data, chunk, failAfter, interrupts, turns⟩ := s
  obtain ⟨hchunk, hturns⟩ := h
  cases interrupts with
  | succ k =>
      refine .interrupted (.none rfl rfl ⟨hchunk, hturns⟩ ?_) ?_
      all_goals simp only [idleCalls]; omega
  | zero =>
      cases turns with
      | nil => exact Willing.give ⟨hchunk, hturns⟩ hchunk hn
      | cons turn turns =>
          have hrest : Willing ⟨data, chunk, failAfter, 0, turns⟩ :=
            ⟨hchunk, fun hmem => hturns (List.mem_cons_of_mem _ hmem)⟩
          cases turn with
          | interrupted =>
              refine .interrupted (.none rfl rfl hrest ?_) ?_
              all_goals simp only [idleCalls, List.length_cons]; omega
          | piece most =>
              have hmost : some most ≠ some 0 := by
                rintro hzero
                cases hzero
                exact hturns List.mem_cons_self
              refine (hrest.give hmost hn).of_turn rfl rfl ?_
              simp only [idleCalls, List.length_cons]
              omega

/-! ## Any number of calls -/

/-- What reading up to a limit comes to: the beginning of the data, unless a call failed
before, and the source keeps all that was not read. -/
structure Reads (s : Source) (limit : Nat) (result : Except IoCause Bytes × Source) : Prop where
  failed : s.FailsBefore limit → result.1 = .error .readFailed
  read : ¬s.FailsBefore limit → result.1 = .ok (s.data.take limit)
  left : result.2.data = s.data.drop (within s.failAfter limit)

/-- After some octets were given, the source fails where it would have failed. -/
theorem Gave.failsBefore_iff {s' : Source} {p limit : Nat} (h : s.Gave p s') (hlimit : p ≤ limit)
    (hdata : p ≤ s.data.length) (hfail : ∀ k ∈ s.failAfter, p ≤ k) :
    s'.FailsBefore (limit - p) ↔ s.FailsBefore limit := by
  unfold FailsBefore
  rw [h.failAfter, h.data, List.length_drop]
  constructor
  · rintro ⟨k', hk', hless, hle⟩
    obtain ⟨k, hk, rfl⟩ := Option.mem_map.1 hk'
    have := hfail k hk
    exact ⟨k, hk, by omega, by omega⟩
  · rintro ⟨k, hk, hless, hle⟩
    have := hfail k hk
    exact ⟨k - p, Option.mem_map_of_mem _ hk, by omega, by omega⟩

/-- **One call more.**  The octets that it gave stand in front of those that are read
later. -/
theorem Gave.reads {s' : Source} {p limit : Nat} (h : s.Gave p s') (hlimit : p ≤ limit)
    (hdata : p ≤ s.data.length) (hfail : ∀ k ∈ s.failAfter, p ≤ k)
    {result : Except IoCause Bytes × Source} (hrest : s'.Reads (limit - p) result) :
    s.Reads limit (result.1.map (s.data.take p ++ ·), result.2) := by
  have hsame := h.failsBefore_iff hlimit hdata hfail
  have hlimits : p + within s'.failAfter (limit - p) = within s.failAfter limit := by
    rw [h.failAfter]
    cases hfails : s.failAfter with
    | none => exact Nat.add_sub_of_le hlimit
    | some k =>
        have hle := hfail k hfails
        change p + min (limit - p) (k - p) = min limit k
        omega
  constructor
  · intro hfails
    rw [hrest.failed (hsame.2 hfails)]
    rfl
  · intro hfails
    rw [hrest.read (mt hsame.1 hfails), h.data, map_ok, ← List.take_add, Nat.add_sub_of_le hlimit]
  · rw [hrest.left, h.data, List.drop_drop, hlimits]

/-- A call that gave nothing makes no difference. -/
theorem Gave.reads_none {s' : Source} {limit : Nat} (h : s.Gave 0 s')
    {result : Except IoCause Bytes × Source} (hrest : s'.Reads limit result) :
    s.Reads limit result := by
  have hreads :=
    h.reads (Nat.zero_le limit) (Nat.zero_le _) (fun _ _ => Nat.zero_le _) hrest
  obtain ⟨outcome, last⟩ := result
  cases outcome <;> exact hreads

/-- At the end of its data the source gives nothing, unless it fails there. -/
theorem Gave.reads_end {s' : Source} {p limit : Nat} (h : s.Gave p s') (hdata : s.data = [])
    (hfail : ∀ k ∈ s.failAfter, k ≠ 0) : s.Reads limit (.ok [], s') := by
  have hnever : ¬s.FailsBefore limit := by
    rintro ⟨k, hk, -, hle⟩
    rw [hdata] at hle
    exact hfail k hk (Nat.le_zero.1 hle)
  refine ⟨fun hfails => absurd hfails hnever, fun _ => ?_, ?_⟩
  · rw [hdata, List.take_nil]
  · rw [h.data, hdata, List.drop_nil, List.drop_nil]

/-- **Any number of calls.**  Every call gives an octet or uses up an interruption or a
turn, so with enough fuel the data is the measure. -/
theorem Willing.readCalls {fuel limit : Nat} (h : s.Willing)
    (hfuel : s.idleCalls + s.data.length < fuel) :
    s.Reads limit (Source.readCalls fuel limit s) := by
  induction fuel generalizing s limit with
  | zero => exact absurd hfuel (Nat.not_lt_zero _)
  | succ fuel ih =>
      rw [Source.readCalls]
      by_cases hlimit : limit = 0
      · rw [if_pos hlimit, hlimit]
        have hnever : ¬s.FailsBefore 0 := fun ⟨k, _, hless, _⟩ => Nat.not_lt_zero k hless
        have hnothing : within s.failAfter 0 = 0 := Nat.le_zero.1 (within_le _ _)
        refine ⟨fun hfails => absurd hfails hnever, fun _ => rfl, ?_⟩
        rw [hnothing]
        rfl
      · rw [if_neg hlimit]
        have hanswer := h.read hlimit
        generalize s.read limit = answer at hanswer
        cases hanswer with
        | @interrupted s' gave less =>
            have hfewer : s'.idleCalls + s'.data.length < fuel := by
              rw [gave.data, List.drop_zero]
              omega
            have hrest : s'.Reads limit (Source.readCalls fuel limit s') := ih gave.willing hfewer
            exact gave.reads_none hrest
        | failed now same =>
            have hfails : s.FailsBefore limit :=
              ⟨0, now, Nat.pos_of_ne_zero hlimit, Nat.zero_le _⟩
            refine ⟨fun _ => rfl, fun hnot => absurd hfails hnot, ?_⟩
            rw [now]
            change _ = s.data.drop (min limit 0)
            rw [Nat.min_zero, List.drop_zero]
            exact same
        | @gave s' p gave asked there before something =>
            have hbefore : ∀ k ∈ s.failAfter, p ≤ k := fun k hk => (before k hk).2
            have hlength : (s.data.take p).length = p := List.length_take_of_le there
            dsimp only
            by_cases hnone : s.data = []
            · rw [hnone, List.take_nil, List.isEmpty_nil, if_pos rfl]
              exact gave.reads_end hnone fun k hk => (before k hk).1
            · have hpiece : ¬(s.data.take p).isEmpty = true := by
                rw [List.isEmpty_iff_length_eq_zero, hlength]
                exact mt something hnone
              have hless : s'.idleCalls + s'.data.length < fuel := by
                have hp : p ≠ 0 := mt something hnone
                have := gave.idleCalls
                rw [gave.data, List.length_drop]
                omega
              rw [if_neg hpiece, hlength]
              exact gave.reads asked there hbefore (ih gave.willing hless)

/-- **As many calls as are needed.** -/
theorem Willing.readUpTo (h : s.Willing) (limit : Nat) : s.Reads limit (s.readUpTo limit) :=
  h.readCalls (Nat.lt_succ_self _)

/-! ## Sources that do not fail -/

/-- The source gives these octets, in pieces of any sizes and with any interruptions. -/
structure Yields (s : Source) (b : Bytes) : Prop where
  data : s.data = b
  willing : s.Willing
  reliable : s.failAfter = none

/-- Such a source does not fail before any limit. -/
theorem Yields.not_failsBefore {b : Bytes} (h : s.Yields b) (limit : Nat) :
    ¬s.FailsBefore limit := by
  rintro ⟨k, hk, -⟩
  rw [h.reliable] at hk
  cases hk

/-- **What is read** of such a source, and what it keeps. -/
theorem Yields.readUpTo {b : Bytes} (h : s.Yields b) (limit : Nat) :
    (s.readUpTo limit).1 = .ok (b.take limit) ∧ (s.readUpTo limit).2.data = b.drop limit := by
  have hreads := h.willing.readUpTo limit
  have hleft := hreads.left
  rw [h.reliable] at hleft
  rw [hreads.read (h.not_failsBefore limit), ← h.data]
  exact ⟨rfl, hleft⟩

end KeyExchange.Source
