import KeyExchange.Document.Basic

/-!
# Sample parties and documents

Parties whose credentials come from fixed seeds, and documents among them, for
trying the library out: two keys in the clear, the same signed and encrypted for
two recipients, and these with rules that split the keys by picture size.
-/

namespace KeyExchange.Sample

/-- The party that signs the sample documents. -/
def producer : Credential := .ofSeed "Producer" (.replicate 32 0x51)

def recipient1 : Credential := .ofSeed "Recipient 1" (.replicate 32 0x52)

def recipient2 : Credential := .ofSeed "Recipient 2" (.replicate 32 0x53)

/-- A party to which no sample document is addressed. -/
def outsider : Credential := .ofSeed "Outsider" (.replicate 32 0x5f)

def keyA : KeyId := ⟨.replicate 16 0x0a⟩

def keyB : KeyId := ⟨.replicate 16 0x0b⟩

def valueA : KeyValue := ⟨.replicate 16 0xa1⟩

def valueB : KeyValue := ⟨.replicate 16 0xb2⟩

/-- Pixels of a picture of 720 by 576. -/
def standardPixels : UInt64 := 720 * 576

/-- Both keys, in the clear. -/
def plainEdits : List Edit :=
  [.addContentKey ⟨keyA, some valueA⟩, .addContentKey ⟨keyB, some valueB⟩]

/-- Both keys, signed, for two recipients. -/
def signedEdits : List Edit :=
  plainEdits ++ [.setDocumentSigner producer, .addRecipient recipient1.certificate,
    .addRecipient recipient2.certificate]

/-- The first key for video up to the standard size, the second for larger
video and for audio. -/
def sampleRules : List UsageRule :=
  [⟨keyA, [.video ⟨none, some standardPixels⟩]⟩,
   ⟨keyB, [.video ⟨some (standardPixels + 1), none⟩]⟩,
   ⟨keyB, [.audio .unrestricted]⟩]

/-- The kinds of sample documents. -/
inductive SampleKind where
  | plain
  | signed
  | withRules

/-- What makes a sample document. -/
def SampleKind.edits : SampleKind → List Edit
  | .plain => plainEdits
  | .signed => signedEdits
  | .withRules => signedEdits ++ sampleRules.map .addUsageRule

/-- A sample document. -/
def SampleKind.document (kind : SampleKind) : Document := Document.empty.editEach kind.edits

/-- The party with a number; its seed starts with the number. -/
def party (i : Nat) : Credential :=
  .ofSeed ("Party " ++ toString i)
    ⟨ofNatLE 8 i ++ (List.replicate 23 0 ++ [0xc0]), by simp⟩

/-- The first `count` parties. -/
def parties (count : Nat) : List Credential := (List.range count).map party

/-- A document from its parts: keys first, then recipients, the signer, and
rules. -/
def assemble (keys : List (KeyId × KeyValue)) (recipients : List Credential)
    (signer : Option Credential) (rules : List UsageRule) : Document :=
  Document.empty.editEach
    (keys.map (fun key => .addContentKey ⟨key.1, some key.2⟩)
      ++ recipients.map (fun r => .addRecipient r.certificate)
      ++ signer.toList.map .setDocumentSigner
      ++ rules.map .addUsageRule)

end KeyExchange.Sample
