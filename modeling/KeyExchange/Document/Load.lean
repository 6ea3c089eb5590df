import KeyExchange.Artifact.Spelling
import KeyExchange.Document.Basic
import KeyExchange.Scope

/-!
# Loading a document

The artifact is read, its signatures are checked, the document key is recovered
with the first credential that is addressed, and the sealed values are opened.

A malformed artifact and addressed material that does not open make the load
fail.  All else is told in the document: a key whose value the caller is not
entitled to has none, and every signature is reported as it was found.
-/

namespace KeyExchange

/-- How documents are saved and loaded. -/
structure Settings where
  layout : Json.Layout := .indented
  /-- Longer artifacts are refused unread. -/
  maxArtifactLength : Nat := 16 * 1024 * 1024

namespace StoredDocument

/-- The report on a section from its records. -/
def checkSection (d : StoredDocument) (scope : Scope) (records : List SignatureRecord) :
    Except DocumentFault SectionReport :=
  if records.isEmpty then .ok .empty
  else do
    let content ← (d.scopeBytes scope).mapError .basic
    return records.foldl (fun report r => report.record (r.check content)) .empty

/-- What is observed of the signature on the whole document. -/
def checkDocument (d : StoredDocument) : Except DocumentFault Observation :=
  match d.documentSignature with
  | none => .ok .unsigned
  | some r => do
      let content ← (d.scopeBytes .wholeDocument).mapError .basic
      return .ofOutcome (r.check content)

/-- The report on all signatures. -/
def checkSignatures (d : StoredDocument) : Except DocumentFault SignatureReport := do
  let contentKeys ← d.checkSection .contentKeys d.contentKeySignatures
  let usageRules ← d.checkSection .usageRules d.usageRuleSignatures
  let document ← d.checkDocument
  return { document, contentKeys, usageRules }

/-- The document key, if some credential is addressed. -/
def recoverKey (d : StoredDocument) (credentials : List Credential) :
    Except DocumentFault (Option SymmetricKey) :=
  (WrappedKey.unwrapAny (d.delivery.map Delivery.wrappedKey) credentials).mapError .ofEnvelope

end StoredDocument

/-- A stored key with its value as far as it can be known. -/
def StoredKey.reveal (documentKey : Option SymmetricKey) (k : StoredKey) :
    Except DocumentFault ContentKey :=
  match k.value, documentKey with
  | .plain value, _ => .ok ⟨k.id, some value⟩
  | .encrypted _, none => .ok ⟨k.id, none⟩
  | .encrypted v, some key => do
      let octets ← (v.reveal k.id.octets.toList key).mapError .ofEnvelope
      match Octets.ofList? 16 octets with
      | some value => return ⟨k.id, some ⟨value⟩⟩
      | none => throw (.decryption (.valueLength k.id octets.length))

namespace Document

/-- The document of a stored one. -/
def ofStored (stored : StoredDocument) (credentials : List Credential) :
    Except DocumentFault Document := do
  let report ← stored.checkSignatures
  let documentKey ← stored.recoverKey credentials
  let contentKeys ← stored.contentKeys.mapM (StoredKey.reveal documentKey)
  return { contentKeys, recipients := stored.delivery.map Delivery.recipient,
           usageRules := stored.usageRules, stage := .loaded report }

/-- The document of an artifact, as far as the credentials open it. -/
def load (settings : Settings) (credentials : List Credential) (artifact : Bytes) :
    Except DocumentFault Document :=
  if settings.maxArtifactLength < artifact.length then
    .error (.parse (.tooLong settings.maxArtifactLength))
  else do
    let stored ← StoredDocument.ofArtifact artifact
    ofStored stored credentials

end Document

end KeyExchange
