import Mathlib.Data.List.Basic
import KeyExchange.Document.Transfer

/-!
# What a sink takes

A sink takes what it is given from the front, in pieces of any sizes, and may refuse any
call.  When all of it was asked for and the sink stopped before, the last call failed.

* `Took`: the sink after some octets were taken;
* `Answers`, `write_answers`: what one call comes to;
* `writeCalls_cases`: so what any number of calls leaves of the data;
* `Willing`: a sink that takes so many octets, `Willing.writeCalls`: and does;
* `Level`: two sinks that have taken as much, `Level.writeAll`: and go on alike.
-/

namespace KeyExchange

namespace Sink

variable {s s' : Sink} {data data' : Bytes}

/-- How many calls may be used up by interruptions and turns. -/
def idleCalls (s : Sink) : Nat := s.interrupts + s.turns.length

/-! ## Calls -/

/-- The sink `s` has taken these octets and is now `s'`. -/
structure Took (s : Sink) (piece : Bytes) (s' : Sink) : Prop where
  taken : s'.taken = s.taken ++ piece
  flushFails : s'.flushFails = s.flushFails
  idleCalls : s'.idleCalls ≤ s.idleCalls

/-- What a call may come to. -/
inductive Answers (s : Sink) (data : Bytes) : Reply × Sink → Prop
  | interrupted {s' : Sink} (took : s.Took [] s') (less : s'.idleCalls < s.idleCalls) :
      Answers s data (.interrupted, s')
  | failed {s' : Sink} {cause : IoCause} (took : s.Took [] s') :
      Answers s data (.failed cause, s')
  | took {s' : Sink} {count : Nat} (took : s.Took (data.take count) s') :
      Answers s data (.took count, s')

/-- A sink that is as it was, but for the calls to come. -/
theorem Took.none (htaken : s'.taken = s.taken) (hflush : s'.flushFails = s.flushFails)
    (hidle : s'.idleCalls ≤ s.idleCalls) : s.Took [] s' :=
  ⟨htaken.trans (List.append_nil _).symm, hflush, hidle⟩

/-- What a call comes to without the turn that it used up. -/
theorem Answers.of_turn {s₁ : Sink} {answer : Reply × Sink} (h : s₁.Answers data answer)
    (htaken : s₁.taken = s.taken) (hflush : s₁.flushFails = s.flushFails)
    (hidle : s₁.idleCalls ≤ s.idleCalls) : s.Answers data answer := by
  have htook {piece : Bytes} {s' : Sink} (ht : s₁.Took piece s') : s.Took piece s' :=
    ⟨htaken ▸ ht.taken, hflush ▸ ht.flushFails, Nat.le_trans ht.idleCalls hidle⟩
  cases h with
  | interrupted took less => exact .interrupted (htook took) (Nat.lt_of_lt_of_le less hidle)
  | failed took => exact .failed (htook took)
  | took took => exact .took (htook took)

/-- A full sink refuses or takes nothing, and any other takes data from the front. -/
theorem take_answers (s : Sink) (most : Option Nat) (data : Bytes) :
    s.Answers data (s.take most data) := by
  unfold take
  by_cases hfull : s.isFull = true
  · rw [if_pos hfull]
    have hsame : s.Took [] s := .none rfl rfl (Nat.le_refl _)
    cases s.takesNothing with
    | true => exact .took hsame
    | false => exact .failed hsame
  · rw [if_neg hfull]
    exact .took ⟨rfl, rfl, Nat.le_refl _⟩

/-- **One call.**  It is interrupted, it is refused, or it takes data from the front. -/
theorem write_answers (s : Sink) (data : Bytes) : s.Answers data (s.write data) := by
  obtain ⟨chunk, room, takesNothing, flushFails, interrupts, turns, taken⟩ := s
  cases interrupts with
  | succ n =>
      refine .interrupted (.none rfl rfl ?_) ?_
      all_goals simp only [idleCalls]; omega
  | zero =>
      cases turns with
      | nil => exact take_answers _ chunk data
      | cons turn turns =>
          cases turn with
          | interrupted =>
              refine .interrupted (.none rfl rfl ?_) ?_
              all_goals simp only [idleCalls, List.length_cons]; omega
          | failed cause =>
              refine .failed (.none rfl rfl ?_)
              simp only [idleCalls, List.length_cons]
              omega
          | takes most =>
              refine (take_answers _ (some most) data).of_turn rfl rfl ?_
              simp only [idleCalls, List.length_cons]
              omega

/-- A sink that has taken octets after others has taken them all. -/
theorem Took.append {piece piece' : Bytes} {s'' : Sink} (h : s.Took piece s')
    (h' : s'.Took piece' s'') : s.Took (piece ++ piece') s'' where
  taken := by rw [h'.taken, h.taken, List.append_assoc]
  flushFails := h'.flushFails.trans h.flushFails
  idleCalls := Nat.le_trans h'.idleCalls h.idleCalls

/-- What writing comes to: a first part of the data was taken, and all of it exactly when
no call failed. -/
def Writes (s : Sink) (data : Bytes) (result : Except IoCause Unit × Sink) : Prop :=
  ∃ written rest, data = written ++ rest ∧ s.Took written result.2 ∧
    (result.1 = .ok () ↔ rest = [])

/-- **Any number of calls.**  Every call takes an octet or uses up an interruption or a
turn, so with enough fuel the data is the measure. -/
theorem writeCalls_cases {fuel : Nat} (hfuel : s.idleCalls + data.length < fuel) :
    s.Writes data (writeCalls fuel s data) := by
  induction fuel generalizing s data with
  | zero => exact absurd hfuel (Nat.not_lt_zero _)
  | succ fuel ih =>
      rw [writeCalls]
      by_cases hdone : data.isEmpty = true
      · rw [if_pos hdone, List.isEmpty_iff.1 hdone]
        exact ⟨[], [], rfl, .none rfl rfl (Nat.le_refl _), iff_of_true rfl rfl⟩
      · rw [if_neg hdone]
        have hsome : data ≠ [] := fun hnone => hdone (List.isEmpty_iff.2 hnone)
        have hanswer := s.write_answers data
        generalize s.write data = answer at hanswer
        cases hanswer with
        | @interrupted s' took less =>
            have hfewer : s'.idleCalls + data.length < fuel := by omega
            obtain ⟨written, rest, hsplit, htook, hok⟩ := ih hfewer
            exact ⟨written, rest, hsplit, took.append htook, hok⟩
        | failed took => exact ⟨[], data, rfl, took, iff_of_false nofun hsome⟩
        | @took s' count took =>
            cases count with
            | zero => exact ⟨[], data, rfl, took, iff_of_false nofun hsome⟩
            | succ count =>
                have hlength := List.length_pos_iff.2 hsome
                have hfewer : s'.idleCalls + (data.drop (count + 1)).length < fuel := by
                  have := took.idleCalls
                  rw [List.length_drop]
                  omega
                obtain ⟨written, rest, hsplit, htook, hok⟩ := ih hfewer
                refine ⟨data.take (count + 1) ++ written, rest, ?_, took.append htook, hok⟩
                rw [List.append_assoc, ← hsplit, List.take_append_drop]

/-- **All of the data.** -/
theorem writeAll_cases (s : Sink) (data : Bytes) : s.Writes data (s.writeAll data) :=
  writeCalls_cases (Nat.lt_succ_self _)

/-! ## Sinks that take everything -/

/-- The sink takes `n` more octets, however it is given them. -/
structure Willing (s : Sink) (n : Nat) : Prop where
  chunk : s.chunk ≠ some 0
  room : ∀ room, s.room = some room → s.taken.length + n ≤ room
  turns : ∀ turn ∈ s.turns, turn ≠ .takes 0 ∧ ∀ cause, turn ≠ .failed cause

/-- An answer of such a sink takes something. -/
theorem Willing.take (h : s.Willing data.length) {most : Option Nat} (hmost : most ≠ some 0)
    (hdata : data ≠ []) :
    ∃ count, s.take most data
      = (.took (count + 1), { s with taken := s.taken ++ data.take (count + 1) }) := by
  have hlength : data.length ≠ 0 := mt List.length_eq_zero_iff.1 hdata
  have hroom := h.room
  have hwhole : within (s.room.map (· - s.taken.length)) data.length = data.length := by
    rcases hlimit : s.room with _ | room
    · rfl
    · have hle := hroom room hlimit
      change min data.length (room - s.taken.length) = data.length
      omega
  have hfull : ¬s.isFull = true := by
    rw [isFull]
    rcases hlimit : s.room with _ | room
    · exact Bool.false_ne_true
    · have hle := hroom room hlimit
      change ¬decide (room ≤ s.taken.length) = true
      rw [decide_eq_true_iff]
      omega
  obtain ⟨count, hcount⟩ := Nat.exists_eq_succ_of_ne_zero (within_ne_zero hmost hlength)
  refine ⟨count, ?_⟩
  unfold Sink.take capacity
  rw [if_neg hfull, hwhole, hcount]

/-- What a call to such a sink may come to. -/
inductive Accepts (s : Sink) (data : Bytes) : Reply × Sink → Prop
  | interrupted {s' : Sink} (willing : s'.Willing data.length) :
      Accepts s data (.interrupted, s')
  | took {s' : Sink} {count : Nat} (willing : s'.Willing (data.drop (count + 1)).length) :
      Accepts s data (.took (count + 1), s')

/-- **One call** to such a sink takes something, unless it is interrupted. -/
theorem Willing.write (h : s.Willing data.length) (hdata : data ≠ []) :
    s.Accepts data (s.write data) := by
  have hanswer {s₁ : Sink} (h₁ : s₁.Willing data.length) {most : Option Nat}
      (hmost : most ≠ some 0) : s.Accepts data (s₁.take most data) := by
    obtain ⟨count, hcount⟩ := h₁.take hmost hdata
    rw [hcount]
    refine .took ⟨h₁.chunk, fun room hroom => ?_, h₁.turns⟩
    have hle := h₁.room room hroom
    rw [List.length_append, List.length_take, List.length_drop]
    omega
  obtain ⟨chunk, room, takesNothing, flushFails, interrupts, turns, taken⟩ := s
  obtain ⟨hchunk, hroom, hturns⟩ := h
  cases interrupts with
  | succ n => exact .interrupted ⟨hchunk, hroom, hturns⟩
  | zero =>
      cases turns with
      | nil => exact hanswer ⟨hchunk, hroom, hturns⟩ hchunk
      | cons turn turns =>
          obtain ⟨⟨hsome, hanswered⟩, hothers⟩ := List.forall_mem_cons.1 hturns
          have hrest : Willing ⟨chunk, room, takesNothing, flushFails, 0, turns, taken⟩
              data.length := ⟨hchunk, hroom, hothers⟩
          cases turn with
          | interrupted => exact .interrupted hrest
          | failed cause => exact absurd rfl (hanswered cause)
          | takes most =>
              have hmost : some most ≠ some 0 :=
                fun hzero => hsome (congrArg Turn.takes (Option.some.inj hzero))
              exact hanswer hrest hmost

/-- **Any number of calls** to such a sink do not fail. -/
theorem Willing.writeCalls (fuel : Nat) (h : s.Willing data.length) :
    (writeCalls fuel s data).1 = .ok () := by
  induction fuel generalizing s data with
  | zero => rfl
  | succ fuel ih =>
      rw [Sink.writeCalls]
      by_cases hdone : data.isEmpty = true
      · rw [if_pos hdone]
      · rw [if_neg hdone]
        have haccepts := h.write fun hnone => hdone (List.isEmpty_iff.2 hnone)
        generalize s.write data = answer at haccepts
        cases haccepts with
        | interrupted willing => exact ih willing
        | took willing => exact ih willing

/-- **All of the data** is taken by such a sink. -/
theorem Willing.writeAll (h : s.Willing data.length) : (s.writeAll data).1 = .ok () :=
  h.writeCalls _

/-! ## Two sinks -/

/-- The two sinks have taken as many octets and go on in the same way. -/
structure Level (s s' : Sink) : Prop where
  chunk : s.chunk = s'.chunk
  room : s.room = s'.room
  takesNothing : s.takesNothing = s'.takesNothing
  flushFails : s.flushFails = s'.flushFails
  interrupts : s.interrupts = s'.interrupts
  turns : s.turns = s'.turns
  taken : s.taken.length = s'.taken.length

/-- A sink is level with itself. -/
theorem Level.refl (s : Sink) : s.Level s := ⟨rfl, rfl, rfl, rfl, rfl, rfl, rfl⟩

/-- How much a sink takes does not depend on what it is given. -/
theorem Level.take (h : s.Level s') (hdata : data.length = data'.length) (most : Option Nat) :
    (s.take most data).1 = (s'.take most data').1 ∧
      (s.take most data).2.Level (s'.take most data').2 := by
  obtain ⟨chunk, room, takesNothing, flushFails, interrupts, turns, taken⟩ := s
  obtain ⟨_, _, _, _, _, _, taken'⟩ := s'
  obtain ⟨rfl, rfl, rfl, rfl, rfl, rfl, htaken⟩ := h
  dsimp only at htaken
  unfold Sink.take isFull capacity
  dsimp only
  rw [htaken, hdata]
  by_cases hfull : room.any (· ≤ taken'.length) = true
  · rw [if_pos hfull, if_pos hfull]
    exact ⟨rfl, rfl, rfl, rfl, rfl, rfl, rfl, htaken⟩
  · rw [if_neg hfull, if_neg hfull]
    refine ⟨rfl, rfl, rfl, rfl, rfl, rfl, rfl, ?_⟩
    rw [List.length_append, List.length_append, List.length_take, List.length_take, htaken, hdata]

/-- **One call.**  It is answered alike by both. -/
theorem Level.write (h : s.Level s') (hdata : data.length = data'.length) :
    (s.write data).1 = (s'.write data').1 ∧ (s.write data).2.Level (s'.write data').2 := by
  obtain ⟨chunk, room, takesNothing, flushFails, interrupts, turns, taken⟩ := s
  obtain ⟨_, _, _, _, _, _, taken'⟩ := s'
  obtain ⟨rfl, rfl, rfl, rfl, rfl, rfl, htaken⟩ := h
  cases interrupts with
  | succ n => exact ⟨rfl, rfl, rfl, rfl, rfl, rfl, rfl, htaken⟩
  | zero =>
      have hlevel (turns : List Turn) :
          Level ⟨chunk, room, takesNothing, flushFails, 0, turns, taken⟩
            ⟨chunk, room, takesNothing, flushFails, 0, turns, taken'⟩ :=
        ⟨rfl, rfl, rfl, rfl, rfl, rfl, htaken⟩
      cases turns with
      | nil => exact (hlevel []).take hdata chunk
      | cons turn turns =>
          cases turn with
          | interrupted | failed cause => exact ⟨rfl, hlevel turns⟩
          | takes most => exact (hlevel turns).take hdata (some most)

/-- **Any number of calls.**  Both sinks end alike, and level. -/
theorem Level.writeCalls (fuel : Nat) (h : s.Level s') (hdata : data.length = data'.length) :
    (Sink.writeCalls fuel s data).1 = (Sink.writeCalls fuel s' data').1 ∧
      (Sink.writeCalls fuel s data).2.Level (Sink.writeCalls fuel s' data').2 := by
  induction fuel generalizing s s' data data' with
  | zero => exact ⟨rfl, h⟩
  | succ fuel ih =>
      have hempty : data.isEmpty = data'.isEmpty := by
        rw [Bool.eq_iff_iff, List.isEmpty_iff_length_eq_zero, List.isEmpty_iff_length_eq_zero,
          hdata]
      rw [Sink.writeCalls, Sink.writeCalls, hempty]
      by_cases hdone : data'.isEmpty = true
      · rw [if_pos hdone, if_pos hdone]
        exact ⟨rfl, h⟩
      · rw [if_neg hdone, if_neg hdone]
        obtain ⟨hreply, hlevel⟩ := h.write hdata
        generalize s.write data = first at hreply hlevel
        generalize s'.write data' = second at hreply hlevel
        obtain ⟨reply, s⟩ := first
        obtain ⟨_, s'⟩ := second
        cases hreply
        cases reply with
        | interrupted => exact ih hlevel hdata
        | failed cause => exact ⟨rfl, hlevel⟩
        | took count =>
            cases count with
            | zero => exact ⟨rfl, hlevel⟩
            | succ count =>
                apply ih hlevel
                rw [List.length_drop, List.length_drop, hdata]

/-- **All of the data.**  What was given to level sinks leaves them level. -/
theorem Level.writeAll (h : s.Level s') (hdata : data.length = data'.length) :
    (s.writeAll data).1 = (s'.writeAll data').1 ∧
      (s.writeAll data).2.Level (s'.writeAll data').2 := by
  unfold Sink.writeAll
  rw [h.interrupts, h.turns, hdata]
  exact h.writeCalls _ hdata

end Sink

end KeyExchange
