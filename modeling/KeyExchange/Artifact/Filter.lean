import KeyExchange.Json.Shape
import KeyExchange.UsageRule

/-!
# Usage filters in an artifact

A filter is an object whose member `type` says which kind it is and thereby
which other members it has.  Since `type` may stand anywhere in the object, the
other members are first set aside and read when the kind is known.  What is
set aside is looked at in full, whether it will be needed or not: its
strings and numbers have to be in order, and it must not be nested too deeply.

A filter may also be an array; then its kind is the first item.
-/

namespace KeyExchange.Artifact

open Json

mutual

/-- The value can be set aside: it is complete, all its strings and names
spell texts, no number is too large, and at most `room` arrays and objects are
nested in it. -/
def settable (room : Nat) : Json → Bool
  | .null => true
  | .bool _ => true
  | .number x => x.kind ≠ .tooLarge
  | .string raw => (Literal.decode? raw).isSome
  | .array items closed => 0 < room && settableItems (room - 1) items && closed
  | .object members closed => 0 < room && settableMembers (room - 1) members && closed
  | .broken => false

def settableItems (room : Nat) : List Json → Bool
  | [] => true
  | item :: rest => settable room item && settableItems room rest

def settableMembers (room : Nat) : List (Bytes × Json) → Bool
  | [] => true
  | (name, value) :: rest =>
      (Literal.decode? name).isSome && settable room value && settableMembers room rest

end

/-- A bound of sixty-four bits. -/
def boundShape : Shape UInt64 := (Shape.natural (1 <<< 64)).imap UInt64.ofNat UInt64.toNat

/-- The members of two bounds. -/
def boundsFields (least most : String) : Fields (Option UInt64 × Option UInt64 × Unit) :=
  .cons (.valueOrNone least boundShape) <| .cons (.valueOrNone most boundShape) .nil

/-- The member of a label. -/
def labelFields : Fields (String × Unit) := .cons (.required "label" .text) .nil

/-- The kinds of filters. -/
inductive FilterKind where
  | video
  | audio
  | bitrate
  | label
deriving DecidableEq

namespace FilterKind

/-- The name of a kind. -/
def name : FilterKind → String
  | .video => "video"
  | .audio => "audio"
  | .bitrate => "bitrate"
  | .label => "label"

/-- The kind with a name. -/
def ofName (name : String) : Except Fault FilterKind :=
  if name = "video" then .ok .video
  else if name = "audio" then .ok .audio
  else if name = "bitrate" then .ok .bitrate
  else if name = "label" then .ok .label
  else .error (.unknownVariant name)

/-- The kind that a value names. -/
def read (value : Json) : Except Fault FilterKind := do ofName (← Shape.text.read value)

/-- The members of the bounds of a video, audio or bitrate filter. -/
def videoFields : Fields (Option UInt64 × Option UInt64 × Unit) :=
  boundsFields "min_pixels" "max_pixels"

def audioFields : Fields (Option UInt64 × Option UInt64 × Unit) :=
  boundsFields "min_channels" "max_channels"

def bitrateFields : Fields (Option UInt64 × Option UInt64 × Unit) :=
  boundsFields "min_bps" "max_bps"

/-- Two bounds, as they were read. -/
def toBounds (b : Option UInt64 × Option UInt64 × Unit) : Bounds := ⟨b.1, b.2.1⟩

/-- Two bounds, as they are written. -/
def ofBounds (b : Bounds) : Option UInt64 × Option UInt64 × Unit := (b.least, b.most, ())

/-- The filter of a kind, with some way to read its members. -/
def readFields (read : {γ : Type} → Fields γ → Except Fault γ) :
    FilterKind → Except Fault UsageFilter
  | .video => (read videoFields).map fun b => .video (toBounds b)
  | .audio => (read audioFields).map fun b => .audio (toBounds b)
  | .bitrate => (read bitrateFields).map fun b => .bitrate (toBounds b)
  | .label => (read labelFields).map fun l => .label l.1

end FilterKind

/-- The name of the member that tells the kind. -/
def kindMember : String := "type"

/-- The kind of a filter object and its other members, which are set aside.
`seen` is the kind, if it has been met already. -/
def setAside (room : Nat) (seen : Option FilterKind) :
    List (Bytes × Json) → Except Fault (Option FilterKind × List (Bytes × Json))
  | [] => .ok (seen, [])
  | (raw, value) :: rest => do
      let name ← textOf raw
      if name = kindMember then
        match seen with
        | some _ => throw (.duplicateField kindMember)
        | none => setAside room (some (← FilterKind.read value)) rest
      else if settable room value then
        let (kind, others) ← setAside room seen rest
        return (kind, (raw, value) :: others)
      else throw .malformed

/-- A filter that is spelled as an object. -/
def filterOfMembers (room : Nat) (members : List (Bytes × Json)) (closed : Bool) :
    Except Fault UsageFilter := do
  let (kind, others) ← setAside room none members
  if closed then
    match kind with
    | some kind => kind.readFields fun fs => fs.ofMembers others true
    | none => throw (.missingField kindMember)
  else throw .malformed

/-- A filter that is spelled as an array. -/
def filterOfItems (room : Nat) (items : List Json) (closed : Bool) :
    Except Fault UsageFilter :=
  match items with
  | [] => if closed then throw (.missingField kindMember) else throw .malformed
  | first :: rest => do
      let kind ← FilterKind.read first
      if settableItems room rest && closed then
        kind.readFields fun fs => do
          let (record, left) ← fs.ofItems rest true
          if left.isEmpty then return record else throw .invalidLength
      else throw .malformed

/-- The members of a filter. -/
def filterMembers : UsageFilter → List (Bytes × Json)
  | .video b => member kindMember (ofString FilterKind.video.name)
      :: FilterKind.videoFields.write (FilterKind.ofBounds b)
  | .audio b => member kindMember (ofString FilterKind.audio.name)
      :: FilterKind.audioFields.write (FilterKind.ofBounds b)
  | .bitrate b => member kindMember (ofString FilterKind.bitrate.name)
      :: FilterKind.bitrateFields.write (FilterKind.ofBounds b)
  | .label l => member kindMember (ofString FilterKind.label.name)
      :: labelFields.write (l, ())

/-- How many arrays and objects may be nested in each other in all where they
are set aside. -/
def nestingLimit : Nat := 127

/-- A filter that stands in `depth` arrays and objects. -/
def filterShape (depth : Nat) : Shape UsageFilter where
  read
    | .object members closed => filterOfMembers (nestingLimit - (depth + 1)) members closed
    | .array items closed => filterOfItems (nestingLimit - (depth + 1)) items closed
    | other => .error other.mismatch
  write filter := .object (filterMembers filter) true

end KeyExchange.Artifact
