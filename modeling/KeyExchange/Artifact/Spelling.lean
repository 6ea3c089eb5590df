import KeyExchange.Artifact.DocumentText
import KeyExchange.Document.Fault
import KeyExchange.Stored

/-!
# From stored documents to artifacts and back

Writing spells every id and every octet string of a stored document; it cannot
fail.  Reading takes the texts of an artifact for what they should mean, from
the version over recipients, keys and rules to the signatures, and stops at the
first that does not.

Three rules concern more than one text: a key has exactly one value, no two
keys have the same id, and a sealed value needs recipients.
-/

namespace KeyExchange.Artifact

open Text (Hex.encode)

/-! ## Spelling -/

def CertificateText.ofCertificate (c : Certificate) : CertificateText :=
  ⟨c.subject, c.signingKey.octets.toHex, c.encryptionKey.octets.toHex⟩

def DeliveryText.ofDelivery (d : Delivery) : DeliveryText :=
  ⟨.ofCertificate d.recipient,
    ⟨d.wrappedKey.ephemeralKey.octets.toHex, d.wrappedKey.nonce.octets.toHex,
      Hex.encode d.wrappedKey.ciphertext⟩⟩

def SignatureText.ofRecord (r : SignatureRecord) : SignatureText :=
  ⟨.ofCertificate r.certificate, r.signature.octets.toHex⟩

def SealedText.ofSealed (v : SealedValue) : SealedText :=
  ⟨v.format.toNat, v.nonce.octets.toHex, Hex.encode v.ciphertext⟩

def KeyText.ofKey (k : StoredKey) : KeyText :=
  match k.value with
  | .plain value => ⟨k.id.toText, some value.octets.toHex, none⟩
  | .encrypted value => ⟨k.id.toText, none, some (.ofSealed value)⟩

def RuleText.ofRule (r : UsageRule) : RuleText := ⟨r.keyId.toText, r.filters⟩

def DocumentText.ofStored (d : StoredDocument) : DocumentText where
  version := d.version.toNat
  delivery := d.delivery.map .ofDelivery
  contentKeys := ⟨d.contentKeys.map .ofKey, d.contentKeySignatures.map .ofRecord⟩
  usageRules := ⟨d.usageRules.map .ofRule, d.usageRuleSignatures.map .ofRecord⟩
  signature := d.documentSignature.map .ofRecord

/-! ## Reading -/

/-- A text that should mean something and does not makes the artifact
malformed. -/
def meant {α : Type} (outcome : Except BasicFault α) : Except DocumentFault α :=
  outcome.mapError fun fault => .parse (.basic fault)

def CertificateText.toCertificate (t : CertificateText) : Except DocumentFault Certificate := do
  let signingKey ← meant (VerifyingKey.ofHex t.signingKey)
  let encryptionKey ← meant (AgreementKey.ofHex t.encryptionKey)
  return ⟨t.subject, signingKey, encryptionKey⟩

/-- The address of the wrapped key is not spelled: it is the fingerprint of the
recipient. -/
def DeliveryText.toDelivery (t : DeliveryText) : Except DocumentFault Delivery := do
  let recipient ← t.recipient.toCertificate
  let address ← recipient.fingerprint.mapError .basic
  let ephemeralKey ← meant (AgreementKey.ofHex t.wrappedKey.ephemeralKey)
  let nonce ← meant (fixedHexField 12 "wrapped key nonce" t.wrappedKey.nonce)
  let ciphertext ← meant (hexField "wrapped key ciphertext" t.wrappedKey.ciphertext)
  return ⟨recipient, ⟨address, ephemeralKey, ⟨nonce⟩, ciphertext⟩⟩

def SignatureText.toRecord (t : SignatureText) : Except DocumentFault SignatureRecord := do
  let certificate ← t.certificate.toCertificate
  let signature ← meant (Signature.ofHex t.value)
  return ⟨certificate, signature⟩

def SealedText.toSealed (t : SealedText) : Except DocumentFault SealedValue :=
  match SealFormat.ofNat? t.format with
  | none => throw (.parse (.unknownFormat t.format))
  | some format => do
      let nonce ← meant (fixedHexField 12 "content key nonce" t.nonce)
      let ciphertext ← meant (hexField "content key ciphertext" t.ciphertext)
      return ⟨format, ⟨nonce⟩, ciphertext⟩

def KeyText.toKey (t : KeyText) : Except DocumentFault StoredKey := do
  let id ← meant (KeyId.parse t.id)
  match t.plain, t.encrypted with
  | some plain, none =>
      let value ← meant (hexField "content key value" plain)
      return ⟨id, .plain (← meant (KeyValue.ofBytes value))⟩
  | none, some encrypted => return ⟨id, .encrypted (← encrypted.toSealed)⟩
  | some _, some _ => throw (.parse (.twoValues id))
  | none, none => throw (.parse (.noValue id))

/-- The keys of an artifact.  `seen` are the ids of the keys before; `delivered`
says that the document has recipients. -/
def toKeys (delivered : Bool) (seen : List KeyId) :
    List KeyText → Except DocumentFault (List StoredKey)
  | [] => .ok []
  | t :: rest => do
      let key ← t.toKey
      if key.id ∈ seen then
        throw (.parse (.duplicateKeyId key.id))
      else if key.value.isEncrypted && !delivered then
        throw (.parse (.noDelivery key.id))
      else
        return key :: (← toKeys delivered (key.id :: seen) rest)

def RuleText.toRule (t : RuleText) : Except DocumentFault UsageRule := do
  return ⟨← meant (KeyId.parse t.keyId), t.filters⟩

def DocumentText.toStored (t : DocumentText) : Except DocumentFault StoredDocument := do
  if t.version ≠ formatVersion.toNat then
    throw (.parse (.version t.version))
  else
    let delivery ← t.delivery.mapM DeliveryText.toDelivery
    let contentKeys ← toKeys (!delivery.isEmpty) [] t.contentKeys.keys
    let contentKeySignatures ← t.contentKeys.signatures.mapM SignatureText.toRecord
    let usageRules ← t.usageRules.rules.mapM RuleText.toRule
    let usageRuleSignatures ← t.usageRules.signatures.mapM SignatureText.toRecord
    let documentSignature ← t.signature.mapM SignatureText.toRecord
    return { version := formatVersion, delivery, contentKeys, contentKeySignatures, usageRules,
             usageRuleSignatures, documentSignature }

end KeyExchange.Artifact

namespace KeyExchange.StoredDocument

open Artifact

/-- The artifact of a stored document. -/
def toArtifact (d : StoredDocument) (layout : Json.Layout) : Bytes :=
  documentShape.writeText layout (DocumentText.ofStored d)

/-- The stored document of an artifact. -/
def ofArtifact (artifact : Bytes) : Except DocumentFault StoredDocument := do
  let text ← (documentShape.readText artifact).mapError fun fault => .parse (.json fault)
  text.toStored

end KeyExchange.StoredDocument
