import KeyExchange.Artifact.Filter

/-!
# The members of an artifact

An artifact is one JSON object.  The structures here are its records, with ids,
keys and other octet strings still as the texts that spell them; the shapes
give the names and the order of their members, and which may be missing.

What the texts mean is not asked here, so a text of the right shape may still be
no valid document.
-/

namespace KeyExchange.Artifact

open Json

structure CertificateText where
  subject : String
  signingKey : String
  encryptionKey : String
deriving DecidableEq

structure WrappedKeyText where
  ephemeralKey : String
  nonce : String
  ciphertext : String
deriving DecidableEq

structure DeliveryText where
  recipient : CertificateText
  wrappedKey : WrappedKeyText
deriving DecidableEq

structure SignatureText where
  certificate : CertificateText
  value : String
deriving DecidableEq

structure SealedText where
  format : Nat
  nonce : String
  ciphertext : String
deriving DecidableEq

structure KeyText where
  id : String
  plain : Option String
  encrypted : Option SealedText
deriving DecidableEq

structure KeysText where
  keys : List KeyText
  signatures : List SignatureText
deriving DecidableEq

structure RuleText where
  keyId : String
  filters : List UsageFilter
deriving DecidableEq

structure RulesText where
  rules : List RuleText
  signatures : List SignatureText
deriving DecidableEq

structure DocumentText where
  version : Nat
  delivery : List DeliveryText
  contentKeys : KeysText
  usageRules : RulesText
  signature : Option SignatureText
deriving DecidableEq

def certificateShape : Shape CertificateText :=
  (Shape.record <|
    .cons (.required "subject" .text) <|
    .cons (.required "signing_key" .text) <|
    .cons (.required "encryption_key" .text) .nil).imap
    (fun (subject, signingKey, encryptionKey, _) => ⟨subject, signingKey, encryptionKey⟩)
    (fun c => (c.subject, c.signingKey, c.encryptionKey, ()))

def wrappedKeyShape : Shape WrappedKeyText :=
  (Shape.record <|
    .cons (.required "ephemeral_public" .text) <|
    .cons (.required "nonce" .text) <|
    .cons (.required "ciphertext" .text) .nil).imap
    (fun (ephemeralKey, nonce, ciphertext, _) => ⟨ephemeralKey, nonce, ciphertext⟩)
    (fun w => (w.ephemeralKey, w.nonce, w.ciphertext, ()))

def deliveryShape : Shape DeliveryText :=
  (Shape.record <|
    .cons (.required "recipient" certificateShape) <|
    .cons (.required "wrapped_key" wrappedKeyShape) .nil).imap
    (fun (recipient, wrappedKey, _) => ⟨recipient, wrappedKey⟩)
    (fun d => (d.recipient, d.wrappedKey, ()))

def signatureShape : Shape SignatureText :=
  (Shape.record <|
    .cons (.required "certificate" certificateShape) <|
    .cons (.required "value" .text) .nil).imap
    (fun (certificate, value, _) => ⟨certificate, value⟩)
    (fun s => (s.certificate, s.value, ()))

def sealedShape : Shape SealedText :=
  (Shape.record <|
    .cons (.required "format" (.natural (1 <<< 8))) <|
    .cons (.required "nonce" .text) <|
    .cons (.required "ciphertext" .text) .nil).imap
    (fun (format, nonce, ciphertext, _) => ⟨format, nonce, ciphertext⟩)
    (fun s => (s.format, s.nonce, s.ciphertext, ()))

def keyShape : Shape KeyText :=
  (Shape.record <|
    .cons (.required "kid" .text) <|
    .cons (.valueOrNone "plain" .text) <|
    .cons (.valueOrNone "encrypted" sealedShape) .nil).imap
    (fun (id, plain, encrypted, _) => ⟨id, plain, encrypted⟩)
    (fun k => (k.id, k.plain, k.encrypted, ()))

def keysShape : Shape KeysText :=
  (Shape.record <|
    .cons (.required "keys" keyShape.list) <|
    .cons (.listOrNone "signatures" signatureShape) .nil).imap
    (fun (keys, signatures, _) => ⟨keys, signatures⟩)
    (fun k => (k.keys, k.signatures, ()))

/-- The filters of a rule stand in five arrays and objects: the document, its
rules section, the list of rules, the rule, and its list of filters. -/
def ruleShape : Shape RuleText :=
  (Shape.record <|
    .cons (.required "kid" .text) <|
    .cons (.defaulted "filters" (filterShape 5).list []) .nil).imap
    (fun (keyId, filters, _) => ⟨keyId, filters⟩)
    (fun r => (r.keyId, r.filters, ()))

def rulesShape : Shape RulesText :=
  (Shape.record <|
    .cons (.defaulted "rules" ruleShape.list []) <|
    .cons (.listOrNone "signatures" signatureShape) .nil).imap
    (fun (rules, signatures, _) => ⟨rules, signatures⟩)
    (fun r => (r.rules, r.signatures, ()))

def documentShape : Shape DocumentText :=
  (Shape.record <|
    .cons (.required "version" (.natural (1 <<< 32))) <|
    .cons (.listOrNone "delivery" deliveryShape) <|
    .cons (.required "content_keys" keysShape) <|
    .cons (.defaulted "usage_rules" rulesShape ⟨[], []⟩) <|
    .cons (.valueOrNone "signature" signatureShape) .nil).imap
    (fun (version, delivery, contentKeys, usageRules, signature, _) =>
      ⟨version, delivery, contentKeys, usageRules, signature⟩)
    (fun d => (d.version, d.delivery, d.contentKeys, d.usageRules, d.signature, ()))

end KeyExchange.Artifact
