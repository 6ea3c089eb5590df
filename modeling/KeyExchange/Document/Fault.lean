import KeyExchange.Envelope.Fault
import KeyExchange.Json.Shape

/-!
# Faults of a document

Only two things make a load fail: the artifact is malformed, or material that
is addressed to the caller does not open.  A key that the caller cannot open
and a signature that does not hold are no faults.
-/

namespace KeyExchange

/-- Why octets are no artifact. -/
inductive ParseCause where
  | json (fault : Json.Fault)
  | tooLong (limit : Nat)
  | version (found : Nat)
  | basic (fault : BasicFault)
  | duplicateKeyId (id : KeyId)
  | noDelivery (id : KeyId)
  | unknownFormat (found : Nat)
  | twoValues (id : KeyId)
  | noValue (id : KeyId)
deriving DecidableEq

/-- The wording of a cause.  A fault of the JSON text has a wording of its own;
all others are announced. -/
def ParseCause.message : ParseCause → String
  | .json fault => fault.message
  | .tooLong limit => "parse error: artifact exceeds " ++ toString limit ++ " bytes"
  | .version found =>
      "parse error: unsupported format version " ++ toString found ++ " (expected 1)"
  | .basic fault => "parse error: " ++ fault.message
  | .duplicateKeyId id => "parse error: duplicate content key id " ++ id.toText
  | .noDelivery id =>
      "parse error: content key " ++ id.toText
        ++ " is encrypted but the document has no delivery data"
  | .unknownFormat found => "parse error: unknown encryption format " ++ toString found
  | .twoValues id =>
      "parse error: content key " ++ id.toText ++ " has both a plain and an encrypted value"
  | .noValue id => "parse error: content key " ++ id.toText ++ " has no value"

/-- What went wrong outside, in a source or a sink. -/
inductive IoCause where
  | readFailed
  | diskFull
  | nothingWritten
  | flushFailed
  /-- A source or sink fails in words of its own. -/
  | other (message : String)
deriving DecidableEq

def IoCause.message : IoCause → String
  | .readFailed => "read failed"
  | .diskFull => "disk full"
  | .nothingWritten => "failed to write whole buffer"
  | .flushFailed => "flush failed"
  | .other message => message

/-- Why a document could not be built, saved, loaded or asked. -/
inductive DocumentFault where
  | parse (cause : ParseCause)
  | decryption (cause : DecryptionCause)
  | encryption (cause : EncryptionCause)
  | io (cause : IoCause)
  | duplicateKeyId (id : KeyId)
  | missingKeyValue (id : KeyId)
  | readOnly
  | noMatchingKey
  | ambiguousKey (count : Nat)
  | basic (fault : BasicFault)
deriving DecidableEq

namespace DocumentFault

def message : DocumentFault → String
  | .parse cause => cause.message
  | .decryption cause => "decryption error: " ++ cause.message
  | .encryption cause => "encryption error: " ++ cause.message
  | .io cause => "I/O error: " ++ cause.message
  | .duplicateKeyId id => "duplicate content key id: " ++ id.toText
  | .missingKeyValue id => "content key " ++ id.toText ++ " has no value"
  | .readOnly => "document is read-only after load"
  | .noMatchingKey => "no content key matches the given context"
  | .ambiguousKey count => toString count ++ " content keys match the given context"
  | .basic fault => "core error: " ++ fault.message

/-- The fault of a document whose key material could not be sealed or opened. -/
def ofEnvelope : EnvelopeFault → DocumentFault
  | .encryption cause => .encryption cause
  | .decryption cause => .decryption cause
  | .basic fault => .basic fault

end DocumentFault

end KeyExchange
