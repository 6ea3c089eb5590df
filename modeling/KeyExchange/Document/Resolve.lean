import KeyExchange.Document.Basic

/-!
# Which key a track needs

A key is meant for a track when one of its rules applies.  A key without rules
is meant for no track, and a rule for a missing key counts for nothing.  There
must be exactly one such key.
-/

namespace KeyExchange.Document

/-- The keys with a rule that applies to the track. -/
def matchingKeys (d : Document) (context : TrackContext) : List ContentKey :=
  d.contentKeys.filter fun key => (d.rulesFor key.id).any fun r => r.matches context

/-- The one key that is meant for the track. -/
def resolve (d : Document) (context : TrackContext) : Except DocumentFault ContentKey :=
  match d.matchingKeys context with
  | [] => .error .noMatchingKey
  | [key] => .ok key
  | several => .error (.ambiguousKey several.length)

end KeyExchange.Document
