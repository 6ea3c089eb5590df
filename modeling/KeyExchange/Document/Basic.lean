import KeyExchange.Document.Fault
import KeyExchange.Stored

/-!
# Documents

A document is in one of two stages.  It is being built by a producer, who adds
keys, recipients, rules and signers and may save it at any time; or it was
loaded, and then it carries what was observed of its signatures and cannot be
changed or saved.

Every change is an `Edit`.  A failed edit leaves the document as it was.
-/

namespace KeyExchange

/-- Those who are to sign a document when it is saved. -/
structure Signers where
  /-- Signs the whole document and every section. -/
  document : Option Credential
  /-- Further signers of the content keys. -/
  contentKeys : List Credential
  /-- Further signers of the usage rules. -/
  usageRules : List Credential

/-- The stage of a document. -/
inductive Stage where
  | building (signers : Signers)
  | loaded (report : SignatureReport)

/-- A document for exchanging content keys. -/
structure Document where
  contentKeys : List ContentKey
  recipients : List Certificate
  usageRules : List UsageRule
  stage : Stage

/-- A change to a document that is being built. -/
inductive Edit where
  | addContentKey (key : ContentKey)
  | addRecipient (certificate : Certificate)
  | addUsageRule (rule : UsageRule)
  | setDocumentSigner (signer : Credential)
  | addContentKeysSigner (signer : Credential)
  | addUsageRulesSigner (signer : Credential)

namespace Document

/-- The document that a producer starts with. -/
def empty : Document where
  contentKeys := []
  recipients := []
  usageRules := []
  stage := .building ⟨none, [], []⟩

/-- The content key with an id. -/
def contentKey? (d : Document) (id : KeyId) : Option ContentKey :=
  d.contentKeys.find? fun k => k.id == id

/-- The document after a change.  A key must have a value and an id that is new;
of these, the value is asked for first.  A recipient counts once. -/
def edit (d : Document) (e : Edit) : Except DocumentFault Document :=
  match d.stage with
  | .loaded _ => .error .readOnly
  | .building signers =>
      match e with
      | .addContentKey key =>
          if key.value.isNone then .error (.missingKeyValue key.id)
          else if (d.contentKey? key.id).isSome then .error (.duplicateKeyId key.id)
          else .ok { d with contentKeys := d.contentKeys ++ [key] }
      | .addRecipient certificate =>
          .ok { d with recipients := appendNew certificate d.recipients }
      | .addUsageRule rule => .ok { d with usageRules := d.usageRules ++ [rule] }
      | .setDocumentSigner signer =>
          .ok { d with stage := .building { signers with document := some signer } }
      | .addContentKeysSigner signer =>
          let contentKeys := signers.contentKeys ++ [signer]
          .ok { d with stage := .building { signers with contentKeys } }
      | .addUsageRulesSigner signer =>
          let usageRules := signers.usageRules ++ [signer]
          .ok { d with stage := .building { signers with usageRules } }

/-- The document after several changes; the first that fails ends them. -/
def editAll (d : Document) (edits : List Edit) : Except DocumentFault Document :=
  edits.foldlM edit d

/-- The document after several changes, those that fail left out. -/
def editEach (d : Document) (edits : List Edit) : Document :=
  edits.foldl (fun d e => ((d.edit e).toOption).getD d) d

/-! ## What a document tells -/

/-- The rules for the key with an id. -/
def rulesFor (d : Document) (id : KeyId) : List UsageRule :=
  d.usageRules.filter fun r => r.keyId == id

/-- The rules whose key is missing from the document. -/
def danglingRules (d : Document) : List UsageRule :=
  d.usageRules.filter fun r => (d.contentKey? r.keyId).isNone

/-- What was observed of the signatures, once the document was loaded. -/
def report? (d : Document) : Option SignatureReport :=
  match d.stage with
  | .loaded report => some report
  | .building _ => none

/-- Who signed the whole document. -/
def signedBy (d : Document) : Option Certificate :=
  d.report?.bind fun r => r.document.signer?

/-- Who signed the content keys. -/
def contentKeysSignedBy (d : Document) : List Certificate :=
  (d.report?.map fun r => r.contentKeys.valid).getD []

/-- Who signed the usage rules. -/
def usageRulesSignedBy (d : Document) : List Certificate :=
  (d.report?.map fun r => r.usageRules.valid).getD []

end Document

end KeyExchange
