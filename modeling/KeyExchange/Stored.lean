import KeyExchange.ContentKey
import KeyExchange.Envelope.WrappedKey
import KeyExchange.SignatureRecord
import KeyExchange.UsageRule

/-!
# Documents as they are stored

The tree that an artifact spells: key values as they travel, in the clear or
sealed, the wrapped document key for each recipient, the usage rules, and the
signatures.  It is the same for every layout of the artifact, and it is what
signatures are made over.
-/

namespace KeyExchange

/-- The version of the format that is written and read. -/
def formatVersion : UInt32 := 1

/-- The value of a content key as it travels. -/
inductive StoredValue where
  /-- In the clear. -/
  | plain (value : KeyValue)
  /-- Sealed under the document key. -/
  | encrypted (value : SealedValue)
deriving DecidableEq

def StoredValue.isEncrypted : StoredValue → Bool
  | .encrypted _ => true
  | .plain _ => false

/-- A content key as it travels. -/
structure StoredKey where
  id : KeyId
  value : StoredValue
deriving DecidableEq

/-- The document key for one recipient. -/
structure Delivery where
  recipient : Certificate
  wrappedKey : WrappedKey
deriving DecidableEq

/-- A stored document. -/
structure StoredDocument where
  version : UInt32
  delivery : List Delivery
  contentKeys : List StoredKey
  contentKeySignatures : List SignatureRecord
  usageRules : List UsageRule
  usageRuleSignatures : List SignatureRecord
  documentSignature : Option SignatureRecord
deriving DecidableEq

end KeyExchange
