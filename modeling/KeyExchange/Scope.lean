import KeyExchange.Stored

/-!
# What a signature covers

A signature covers one of three scopes: the content keys, the usage rules, or
the whole document apart from the signature on it.  The content of a scope is
a CBOR value; its first entry says which scope it is, so the contents of
different scopes are different octets.

The whole document includes the signatures on the two sections.  They have to
exist before the document is signed.
-/

namespace KeyExchange

/-- A part of a document that is signed on its own. -/
inductive Scope where
  | contentKeys
  | usageRules
  | wholeDocument
deriving DecidableEq

/-- The number of a scope, which is part of its content. -/
def Scope.number : Scope → UInt64
  | .contentKeys => 1
  | .usageRules => 2
  | .wholeDocument => 3

namespace Scope

open Cbor

def storedValueContent : StoredValue → Cbor
  | .plain value => .map [field 0 (.unsigned 0), field 1 (octets value.octets)]
  | .encrypted v =>
      .map [field 0 (.unsigned 1), field 1 (.unsigned (UInt64.ofNat v.format.toNat)),
        field 2 (octets v.nonce.octets), field 3 (.bytes v.ciphertext)]

def storedKeyContent (k : StoredKey) : Cbor :=
  .map [field 0 (octets k.id.octets), field 1 (storedValueContent k.value)]

def boundsContent (kind : UInt64) (b : Bounds) : Cbor :=
  .map [field 0 (.unsigned kind), field 1 (optional b.least), field 2 (optional b.most)]

def filterContent : UsageFilter → Cbor
  | .video pixels => boundsContent 0 pixels
  | .audio channels => boundsContent 1 channels
  | .bitrate bitsPerSecond => boundsContent 2 bitsPerSecond
  | .label wanted => .map [field 0 (.unsigned 3), field 1 (.text wanted)]

def ruleContent (r : UsageRule) : Cbor :=
  .map [field 0 (octets r.keyId.octets), field 1 (.array (r.filters.map filterContent))]

def deliveryContent (d : Delivery) : Cbor :=
  .map [field 0 d.recipient.toCbor,
    field 1 (octets d.wrappedKey.ephemeralKey.octets),
    field 2 (octets d.wrappedKey.nonce.octets),
    field 3 (.bytes d.wrappedKey.ciphertext)]

def recordContent (r : SignatureRecord) : Cbor :=
  .map [field 0 r.certificate.toCbor, field 1 (octets r.signature.octets)]

end Scope

namespace StoredDocument

open Cbor Scope

/-- The content of a scope. -/
def scopeContent (d : StoredDocument) (scope : Scope) : Cbor :=
  let keys := Cbor.array (d.contentKeys.map storedKeyContent)
  let rules := Cbor.array (d.usageRules.map ruleContent)
  match scope with
  | .contentKeys => .map [field 0 (.unsigned scope.number), field 1 keys]
  | .usageRules => .map [field 0 (.unsigned scope.number), field 1 rules]
  | .wholeDocument =>
      .map [field 0 (.unsigned scope.number),
        field 1 (.unsigned d.version.toUInt64),
        field 2 (.array (d.delivery.map deliveryContent)),
        field 3 keys,
        field 4 (.array (d.contentKeySignatures.map recordContent)),
        field 5 rules,
        field 6 (.array (d.usageRuleSignatures.map recordContent))]

/-- The octets that a signature on the scope is made over, without what
stands before signed content. -/
def scopeBytes (d : StoredDocument) (scope : Scope) : Except BasicFault Bytes :=
  canonicalBytes (d.scopeContent scope)

end StoredDocument

end KeyExchange
