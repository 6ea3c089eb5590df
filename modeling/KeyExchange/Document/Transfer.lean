import KeyExchange.Document.Load
import KeyExchange.Document.Save

/-!
# Sinks and sources

An artifact is handed to a sink and taken from a source piece by piece.  A sink
may take less than it is given, a source may give less than it is asked for, and
both may be interrupted or fail.

* Writing goes on until everything was taken.  An interrupted call is repeated;
  a call that takes nothing is a failure.
* Reading goes on until the source gives nothing more or as much as was asked
  for was read.  An interrupted call is repeated.
-/

namespace KeyExchange

/-! ## Limits -/

/-- The number `n`, or the limit when that is less. -/
def within (limit : Option Nat) (n : Nat) : Nat := (limit.map (min n)).getD n

/-- A limit that is not zero lets something through. -/
theorem within_ne_zero {limit : Option Nat} {n : Nat} (hlimit : limit ≠ some 0) (hn : n ≠ 0) :
    within limit n ≠ 0 := by
  cases limit with
  | none => exact hn
  | some m =>
      have hm : m ≠ 0 := fun hzero => hlimit (congrArg some hzero)
      change min n m ≠ 0
      omega

/-- No limit makes a number larger. -/
theorem within_le (limit : Option Nat) (n : Nat) : within limit n ≤ n := by
  cases limit with
  | none => exact Nat.le_refl n
  | some m => exact Nat.min_le_left n m

/-- A limit is kept. -/
theorem within_le_of_mem {limit : Option Nat} {m : Nat} (h : m ∈ limit) (n : Nat) :
    within limit n ≤ m := by
  obtain rfl : limit = some m := h
  exact Nat.min_le_right n m

/-! ## Sinks -/

/-- How a sink answers a call. -/
inductive Sink.Turn where
  | interrupted
  | failed (cause : IoCause)
  /-- It takes at most this many octets. -/
  | takes (most : Nat)
deriving DecidableEq

/-- A sink and what it has taken. -/
structure Sink where
  /-- Takes at most this many octets in a call, if there is a limit. -/
  chunk : Option Nat := none
  /-- Takes at most this many octets in all, if there is a limit. -/
  room : Option Nat := none
  /-- When it is full it takes nothing instead of failing. -/
  takesNothing : Bool := false
  flushFails : Bool := false
  /-- This many calls to come are interrupted. -/
  interrupts : Nat := 0
  /-- How the calls after those are answered, one by one.  Only when these are over, all
  calls are alike. -/
  turns : List Sink.Turn := []
  taken : Bytes := []

namespace Sink

/-- What comes of one call. -/
inductive Reply where
  | took (count : Nat)
  | interrupted
  | failed (cause : IoCause)

/-- The sink has taken all that it can. -/
def isFull (s : Sink) : Bool := s.room.any (· ≤ s.taken.length)

/-- How many octets the sink takes of `n` in a call that takes at most `most`, if there is
such a limit. -/
def capacity (s : Sink) (most : Option Nat) (n : Nat) : Nat :=
  within most (within (s.room.map (· - s.taken.length)) n)

/-- An answer that takes at most `most` octets, if there is a limit. -/
def take (s : Sink) (most : Option Nat) (data : Bytes) : Reply × Sink :=
  if s.isFull then
    (if s.takesNothing then .took 0 else .failed .diskFull, s)
  else
    let count := s.capacity most data.length
    (.took count, { s with taken := s.taken ++ data.take count })

/-- One call. -/
def write (s : Sink) (data : Bytes) : Reply × Sink :=
  match s.interrupts, s.turns with
  | n + 1, _ => (.interrupted, { s with interrupts := n })
  | 0, .interrupted :: turns => (.interrupted, { s with turns })
  | 0, .failed cause :: turns => (.failed cause, { s with turns })
  | 0, .takes most :: turns => { s with turns }.take (some most) data
  | 0, [] => s.take s.chunk data

/-- All of the data, in at most `fuel` calls. -/
def writeCalls : (fuel : Nat) → Sink → Bytes → Except IoCause Unit × Sink
  | 0, s, _ => (.ok (), s)
  | fuel + 1, s, data =>
      if data.isEmpty then (.ok (), s)
      else
        match s.write data with
        | (.interrupted, s) => writeCalls fuel s data
        | (.failed cause, s) => (.error cause, s)
        | (.took 0, s) => (.error .nothingWritten, s)
        | (.took count, s) => writeCalls fuel s (data.drop count)

/-- All of the data.  Every call takes an octet, or uses up an interruption or a turn. -/
def writeAll (s : Sink) (data : Bytes) : Except IoCause Unit × Sink :=
  writeCalls (s.interrupts + s.turns.length + data.length + 1) s data

/-- What comes of asking the sink to pass on all that it has taken. -/
def flush (s : Sink) : Except IoCause Unit :=
  if s.flushFails then .error .flushFailed else .ok ()

end Sink

/-! ## Sources -/

/-- How a source answers a call. -/
inductive Source.Turn where
  | interrupted
  /-- It gives at most this many octets. -/
  | piece (most : Nat)
deriving DecidableEq

/-- A source and what it has not given yet. -/
structure Source where
  /-- What is still to come. -/
  data : Bytes
  /-- Gives at most this many octets in a call, if there is a limit. -/
  chunk : Option Nat := none
  /-- Fails when asked again after this many more octets, if at all. -/
  failAfter : Option Nat := none
  /-- This many calls to come are interrupted. -/
  interrupts : Nat := 0
  /-- How the calls after those are answered, one by one.  Only when these are over, all
  calls are alike. -/
  turns : List Source.Turn := []

namespace Source

/-- What comes of one call. -/
inductive Reply where
  | gave (piece : Bytes)
  | interrupted
  | failed

/-- An answer of at most `most` octets, if there is a limit, to a call for at most `n`. -/
def give (s : Source) (most : Option Nat) (n : Nat) : Reply × Source :=
  if s.failAfter = some 0 then (.failed, s)
  else
    let count := within most (within s.failAfter n)
    let piece := s.data.take count
    (.gave piece,
      { s with data := s.data.drop count, failAfter := s.failAfter.map (· - piece.length) })

/-- One call for at most `n` octets. -/
def read (s : Source) (n : Nat) : Reply × Source :=
  match s.interrupts, s.turns with
  | k + 1, _ => (.interrupted, { s with interrupts := k })
  | 0, .interrupted :: turns => (.interrupted, { s with turns })
  | 0, .piece most :: turns => { s with turns }.give (some most) n
  | 0, [] => s.give s.chunk n

/-- At most `limit` octets, in at most `fuel` calls, and what they leave of the source.
When the limit is reached the source is not asked again. -/
def readCalls : (fuel limit : Nat) → Source → Except IoCause Bytes × Source
  | 0, _, s => (.ok [], s)
  | fuel + 1, limit, s =>
      if limit = 0 then (.ok [], s)
      else
        match s.read limit with
        | (.interrupted, s) => readCalls fuel limit s
        | (.failed, s) => (.error .readFailed, s)
        | (.gave piece, s) =>
            if piece.isEmpty then (.ok [], s)
            else
              let (outcome, s) := readCalls fuel (limit - piece.length) s
              (outcome.map (piece ++ ·), s)

/-- At most `limit` octets.  Every call but the last gives an octet, or uses up an
interruption or a turn. -/
def readUpTo (s : Source) (limit : Nat) : Except IoCause Bytes × Source :=
  readCalls (s.interrupts + s.turns.length + s.data.length + 1) limit s

end Source

/-! ## Documents -/

namespace Document

/-- The largest number of octets that a source is asked for. -/
def readLimit (settings : Settings) : Nat := min (settings.maxArtifactLength + 1) (1 <<< 64 - 1)

/-- The document of the artifact that a source gives.  One octet more than an
artifact may have is enough to see that it is too long. -/
def loadFrom (settings : Settings) (credentials : List Credential) (source : Source) :
    Except DocumentFault Document := do
  let artifact ← (source.readUpTo (readLimit settings)).1.mapError .io
  load settings credentials artifact

/-- The artifact written to a sink.  It is made in full before the sink is
asked to take anything. -/
def saveTo (d : Document) (settings : Settings) (sink : Sink) (entropy : Entropy) :
    Except DocumentFault Unit × Sink × Entropy :=
  match d.toArtifact settings.layout entropy with
  | (.error fault, entropy) => (.error fault, sink, entropy)
  | (.ok artifact, entropy) =>
      match sink.writeAll artifact with
      | (.error cause, sink) => (.error (.io cause), sink, entropy)
      | (.ok (), sink) => (sink.flush.mapError .io, sink, entropy)

end Document

end KeyExchange
