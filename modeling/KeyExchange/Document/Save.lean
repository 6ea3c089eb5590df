import KeyExchange.Artifact.Spelling
import KeyExchange.Document.Basic
import KeyExchange.Scope

/-!
# Saving a document

1. With recipients, a fresh document key is drawn, wrapped for each recipient
   in turn, and every key value is sealed under it and bound to its key's id.
   Without recipients the values stay in the clear.
2. The usage rules are signed, if there are any, and the content keys.
3. The whole document is signed last, over the signatures of its sections.

What is drawn from the random source is, in this order: the document key (32
octets), for each recipient an ephemeral secret (32) and a nonce (12), for each
key a nonce (12).
-/

namespace KeyExchange

namespace Signers

/-- The signers of a section: the document's signer and then the section's own,
each certificate once. -/
def ofSection (s : Signers) (own : List Credential) : List Credential :=
  go [] (s.document.toList ++ own)
where
  /-- The signers whose certificate is not among those `seen` and was not met
  before. -/
  go (seen : List Certificate) : List Credential → List Credential
    | [] => []
    | signer :: rest =>
        if signer.certificate ∈ seen then go seen rest
        else signer :: go (signer.certificate :: seen) rest

end Signers

namespace Document

/-- A key in the clear. -/
def storePlain (key : ContentKey) : Except DocumentFault StoredKey :=
  match key.value with
  | some value => .ok ⟨key.id, .plain value⟩
  | none => .error (.missingKeyValue key.id)

/-- A key sealed under the document key. -/
def storeSealed (documentKey : SymmetricKey) (key : ContentKey) :
    Drawing DocumentFault StoredKey :=
  match key.value with
  | some value => do
      let v ← ExceptT.adapt .ofEnvelope
        (SealedValue.create value.octets.toList key.id.octets.toList documentKey)
      return ⟨key.id, .encrypted v⟩
  | none => throw (.missingKeyValue key.id)

/-- The document key for one recipient. -/
def deliver (documentKey : SymmetricKey) (recipient : Certificate) :
    Drawing DocumentFault Delivery := do
  let wrappedKey ← ExceptT.adapt .ofEnvelope (WrappedKey.wrap recipient documentKey)
  return ⟨recipient, wrappedKey⟩

/-- The recipients' entries and the stored keys. -/
def storeKeys (d : Document) : Drawing DocumentFault (List Delivery × List StoredKey) :=
  if d.recipients.isEmpty then do
    let keys ← liftExcept (d.contentKeys.mapM storePlain)
    return ([], keys)
  else do
    let documentKey ← SymmetricKey.generate
    let delivery ← d.recipients.mapM (deliver documentKey)
    let keys ← d.contentKeys.mapM (storeSealed documentKey)
    return (delivery, keys)

/-- The records of some signers for a scope. -/
def signScope (stored : StoredDocument) (scope : Scope) (signers : List Credential) :
    Except DocumentFault (List SignatureRecord) := do
  let content ← (stored.scopeBytes scope).mapError .basic
  return signers.map (SignatureRecord.create content)

/-- The records for the usage rules.  Where there are none, nothing is signed. -/
def signRules (signers : Signers) (stored : StoredDocument) :
    Except DocumentFault (List SignatureRecord) :=
  if stored.usageRules.isEmpty then .ok []
  else signScope stored .usageRules (signers.ofSection signers.usageRules)

/-- The record for the whole document, if somebody is to sign it. -/
def signDocument (signers : Signers) (stored : StoredDocument) :
    Except DocumentFault (Option SignatureRecord) :=
  match signers.document with
  | none => .ok none
  | some signer => do
      let content ← (stored.scopeBytes .wholeDocument).mapError .basic
      return some (.create content signer)

/-- The stored document with all its signatures. -/
def signAll (signers : Signers) (stored : StoredDocument) :
    Except DocumentFault StoredDocument := do
  let usageRuleSignatures ← signRules signers stored
  let stored := { stored with usageRuleSignatures }
  let contentKeySignatures ←
    signScope stored .contentKeys (signers.ofSection signers.contentKeys)
  let stored := { stored with contentKeySignatures }
  let documentSignature ← signDocument signers stored
  return { stored with documentSignature }

/-- The stored form of a document. -/
def toStored (d : Document) : Drawing DocumentFault StoredDocument :=
  match d.stage with
  | .loaded _ => throw .readOnly
  | .building signers => do
      let (delivery, contentKeys) ← d.storeKeys
      liftExcept <| signAll signers
        { version := formatVersion, delivery, contentKeys, contentKeySignatures := [],
          usageRules := d.usageRules, usageRuleSignatures := [], documentSignature := none }

/-- The artifact of a document. -/
def toArtifact (d : Document) (layout : Json.Layout) : Drawing DocumentFault Bytes := do
  let stored ← d.toStored
  return stored.toArtifact layout

end Document

end KeyExchange
