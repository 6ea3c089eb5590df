import KeyExchange.Cbor
import KeyExchange.Text.Utf8

/-!
# The canonical encoding

Content is signed and hashed in one encoding only: every head in its shortest
form, lengths always written, and the entries of a map in the order of their
encoded keys, compared octet by octet.

Three things have no canonical encoding: floating point numbers, tags, and
maps in which a key occurs twice.  Of several faults the first one met is
reported.  A map is met in this order: its keys as they stand, then the
comparison of keys, then its values in the order of the sorted keys.
-/

namespace KeyExchange.Cbor

/-- Why a value has no canonical encoding. -/
inductive EncodingFault where
  | float
  | tag
  | duplicateKey
deriving DecidableEq

/-- The wording of a fault. -/
def EncodingFault.message : EncodingFault → String
  | .float => "floats not supported in canonical encoding"
  | .tag => "unsupported CBOR value type"
  | .duplicateKey => "duplicate map key"

/-- The head of an item: its major type and a number, in as few octets as
possible. -/
def head (major n : Nat) : Bytes :=
  let lead (info : Nat) : UInt8 := UInt8.ofNat (32 * major + info)
  if n < 24 then [lead n]
  else if n < 1 <<< 8 then lead 24 :: ofNatBE 1 n
  else if n < 1 <<< 16 then lead 25 :: ofNatBE 2 n
  else if n < 1 <<< 32 then lead 26 :: ofNatBE 4 n
  else lead 27 :: ofNatBE 8 n

/-- `entry` put into its place among entries that are sorted by key, behind
those with the same key. -/
def insertByKey {α : Type} (entry : Bytes × α) : List (Bytes × α) → List (Bytes × α)
  | [] => [entry]
  | first :: rest =>
      if entry.1 < first.1 then entry :: first :: rest
      else first :: insertByKey entry rest

/-- Entries in ascending order of their keys. -/
def sortByKey {α : Type} : List (Bytes × α) → List (Bytes × α)
  | [] => []
  | entry :: rest => insertByKey entry (sortByKey rest)

/-- Two neighbours have the same key. -/
def hasEqualNeighbours {α : Type} : List (Bytes × α) → Bool
  | a :: b :: rest => a.1 == b.1 || hasEqualNeighbours (b :: rest)
  | _ => false

/-- The encoding of a map from what became of its keys and values. -/
def assembleMap
    (entries : List (Except EncodingFault Bytes × Except EncodingFault Bytes)) :
    Except EncodingFault Bytes := do
  let keyed ← entries.mapM fun entry => do return (← entry.1, entry.2)
  let sorted := sortByKey keyed
  if hasEqualNeighbours sorted then throw .duplicateKey
  let items ← sorted.mapM fun entry => do return entry.1 ++ (← entry.2)
  return head 5 sorted.length ++ items.flatten

mutual

/-- The canonical encoding of a value. -/
def canonical : Cbor → Except EncodingFault Bytes
  | .unsigned n => .ok (head 0 n.toNat)
  | .negative n => .ok (head 1 n.toNat)
  | .bytes content => .ok (head 2 content.length ++ content)
  | .text content =>
      let octets := Text.Utf8.ofString content
      .ok (head 3 octets.length ++ octets)
  | .array items => do return head 4 items.length ++ (← canonicalItems items)
  | .map entries => assembleMap (canonicalEntries entries)
  | .bool false => .ok [0xf4]
  | .bool true => .ok [0xf5]
  | .null => .ok [0xf6]
  | .float _ => .error .float
  | .tag _ _ => .error .tag

/-- The encodings of the items of an array, one after the other. -/
def canonicalItems : List Cbor → Except EncodingFault Bytes
  | [] => .ok []
  | item :: rest => do return (← canonical item) ++ (← canonicalItems rest)

/-- What becomes of the keys and values of a map. -/
def canonicalEntries :
    List (Cbor × Cbor) → List (Except EncodingFault Bytes × Except EncodingFault Bytes)
  | [] => []
  | (key, value) :: rest => (canonical key, canonical value) :: canonicalEntries rest

end

end KeyExchange.Cbor
