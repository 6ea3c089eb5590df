import KeyExchange.KeyId

/-!
# Usage rules

A usage rule says in which circumstances a content key may be used.  It names
the key and has any number of filters, all of which must be satisfied; a rule
without filters always applies.

What is asked about is a media track: video or audio, its size, its bitrate
if known, and its labels.  Bounds are inclusive and may be absent.
-/

namespace KeyExchange

/-- An interval of numbers; an absent end is no restriction. -/
structure Bounds where
  least : Option UInt64
  most : Option UInt64
deriving DecidableEq

namespace Bounds

/-- No restriction at all. -/
def unrestricted : Bounds := ⟨none, none⟩

/-- `n` lies between the ends. -/
def contains (b : Bounds) (n : UInt64) : Bool :=
  b.least.all (fun least => least ≤ n) && b.most.all (fun most => n ≤ most)

end Bounds

/-- The kind of a track and its size. -/
inductive Track where
  | video (pixels : UInt64)
  | audio (channels : UInt64)
deriving DecidableEq

/-- A media track that a key is sought for. -/
structure TrackContext where
  track : Track
  bitrate : Option UInt64
  labels : List String
deriving DecidableEq

/-- One condition of a rule. -/
inductive UsageFilter where
  | video (pixels : Bounds)
  | audio (channels : Bounds)
  | bitrate (bitsPerSecond : Bounds)
  | label (wanted : String)
deriving DecidableEq

/-- The track satisfies the condition.  A track whose bitrate is not known
satisfies no bitrate condition. -/
def UsageFilter.matches (context : TrackContext) : UsageFilter → Bool
  | .video bounds =>
      match context.track with
      | .video pixels => bounds.contains pixels
      | .audio _ => false
  | .audio bounds =>
      match context.track with
      | .audio channels => bounds.contains channels
      | .video _ => false
  | .bitrate bounds => context.bitrate.any bounds.contains
  | .label wanted => context.labels.contains wanted

/-- A rule for the key with an id.  The key may be missing from the document
that holds the rule. -/
structure UsageRule where
  keyId : KeyId
  filters : List UsageFilter
deriving DecidableEq

/-- The track satisfies every condition of the rule. -/
def UsageRule.matches (r : UsageRule) (context : TrackContext) : Bool :=
  r.filters.all (UsageFilter.matches context)

end KeyExchange
