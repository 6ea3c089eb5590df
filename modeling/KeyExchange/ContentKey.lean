import KeyExchange.Keys
import KeyExchange.KeyId

/-!
# Content keys

A content key has an id and, as far as it is known, a value of sixteen
octets.  That the value is not known is an ordinary state: a party may hold a
document without being entitled to its keys.

Content keys are the same key when their ids are the same, whatever is known
of their values.
-/

namespace KeyExchange

/-- The value of a content key. -/
structure KeyValue where
  octets : Octets 16
deriving DecidableEq

namespace KeyValue

/-- A value from octets of unknown number. -/
def ofBytes (octets : Bytes) : Except BasicFault KeyValue :=
  return ⟨← exactly 16 "content key value" octets⟩

/-- A value is never shown. -/
def describe (_ : KeyValue) : String := "ContentKeyValue(..)"

def generate {ε : Type} : Drawing ε KeyValue := return ⟨← draw 16⟩

end KeyValue

/-- A content key. -/
structure ContentKey where
  id : KeyId
  value : Option KeyValue
deriving DecidableEq

namespace ContentKey

/-- The two are one key: they have one id. -/
def same (a b : ContentKey) : Bool := a.id == b.id

def hasValue (k : ContentKey) : Bool := k.value.isSome

/-- A content key is shown without its value. -/
def describe (k : ContentKey) : String :=
  let value :=
    match k.value with
    | some v => "Some(" ++ v.describe ++ ")"
    | none => "None"
  "ContentKey \x7b id: " ++ k.id.describe ++ ", value: " ++ value ++ " \x7d"

/-- A fresh content key: a random id and a random value. -/
def generate {ε : Type} : Drawing ε ContentKey := do
  let id ← KeyId.generate
  let value ← KeyValue.generate
  return ⟨id, some value⟩

/-- `k` put into a set of keys, and whether it was new to it. -/
def insertInto (k : ContentKey) (set : List ContentKey) : Bool × List ContentKey :=
  if set.any k.same then (false, set) else (true, set ++ [k])

end ContentKey

end KeyExchange
