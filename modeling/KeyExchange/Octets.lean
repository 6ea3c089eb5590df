/-!
# Octet strings

Everything that is hashed, signed, sealed or written is a string of octets.
Strings of any length are lists (`Bytes`); a string whose length is part of
its meaning (a key, a nonce, a signature) is an `Octets n`.

This file holds both, and the two ways in which a number is spelled with
octets:

* `littleEndian`, `ofNatLE`: least significant octet first;
* `ofNatBE`: most significant octet first.
-/

namespace KeyExchange

/-- A string of octets of any length. -/
abbrev Bytes := List UInt8

/-- A string of exactly `n` octets. -/
@[ext]
structure Octets (n : Nat) where
  toList : Bytes
  length_toList : toList.length = n
deriving DecidableEq

namespace Octets

/-- The octets of `s`, when there are exactly `n` of them. -/
def ofList? (n : Nat) (s : Bytes) : Option (Octets n) :=
  if h : s.length = n then some ⟨s, h⟩ else none

/-- The first `n` octets of `s`, with zeros in the place of missing ones. -/
def ofListPadded (n : Nat) (s : Bytes) : Octets n :=
  ⟨(s ++ List.replicate n 0).take n, by simp⟩

/-- The octet `b`, `n` times. -/
def replicate (n : Nat) (b : UInt8) : Octets n :=
  ⟨List.replicate n b, List.length_replicate⟩

/-- A string is taken as `n` octets exactly when it has `n` of them. -/
theorem ofList?_eq_some_iff {n : Nat} {s : Bytes} {o : Octets n} :
    ofList? n s = some o ↔ o.toList = s := by
  unfold ofList?
  constructor
  · intro h
    split at h
    · cases h; rfl
    · cases h
  · rintro rfl
    simp [o.length_toList]

/-- The octets of a fixed-length string are accepted at that length. -/
@[simp] theorem ofList?_toList {n : Nat} (o : Octets n) : ofList? n o.toList = some o :=
  ofList?_eq_some_iff.2 rfl

end Octets

/-- The number spelled by `s`, least significant octet first. -/
def littleEndian : Bytes → Nat
  | [] => 0
  | b :: rest => b.toNat + 256 * littleEndian rest

/-- `value`, reduced modulo `256 ^ count`, as `count` octets with the least
significant one first. -/
def ofNatLE : (count value : Nat) → Bytes
  | 0, _ => []
  | count + 1, value => UInt8.ofNat value :: ofNatLE count (value / 256)

/-- `value`, reduced modulo `256 ^ count`, as `count` octets with the most
significant one first. -/
def ofNatBE (count value : Nat) : Bytes :=
  (ofNatLE count value).reverse

/-- As many octets as are asked for. -/
@[simp] theorem length_ofNatLE (count value : Nat) : (ofNatLE count value).length = count := by
  induction count generalizing value with
  | zero => rfl
  | succ count ih => simp [ofNatLE, ih]

/-- As many octets as are asked for. -/
@[simp] theorem length_ofNatBE (count value : Nat) : (ofNatBE count value).length = count := by
  simp [ofNatBE]

/-- `value` as `n` octets, least significant first. -/
def Octets.ofNatLE (n value : Nat) : Octets n :=
  ⟨KeyExchange.ofNatLE n value, length_ofNatLE n value⟩

/-- `value` as `n` octets, most significant first. -/
def Octets.ofNatBE (n value : Nat) : Octets n :=
  ⟨KeyExchange.ofNatBE n value, length_ofNatBE n value⟩

end KeyExchange
