import KeyExchange.Document.Load
import KeyExchange.Document.Save
import KeyExchange.Sample.Parties

/-!
# Scenarios

A scenario fixes everything that goes into a save, the random source included,
so that saving it twice gives the same artifact octet by octet.
-/

namespace KeyExchange.Sample

/-- A reproducible document. -/
structure Scenario where
  name : String
  keys : Nat
  recipients : Nat
  /-- The document has a signer. -/
  signed : Bool
  /-- Every key has a rule that always applies. -/
  rules : Bool
  seed : UInt64

namespace Scenario

/-- The four scenarios that have a name. -/
def all : List Scenario :=
  [⟨"plain, unsigned", 2, 0, false, false, 1⟩,
   ⟨"plain, signed with rules", 2, 0, true, true, 2⟩,
   ⟨"two recipients, signed", 2, 2, true, false, 3⟩,
   ⟨"many keys, many recipients", 32, 16, true, true, 4⟩]

def recipientCredentials (s : Scenario) : List Credential := parties s.recipients

/-- The signer, if the scenario has one. -/
def signer? (s : Scenario) : Option Credential :=
  if s.signed then some (.ofSeed "Scenario Signer" (.replicate 32 0x77)) else none

/-- The id of the key with a number. -/
def keyId (i : Nat) : KeyId := ⟨⟨ofNatBE 8 i ++ List.replicate 8 0, by simp⟩⟩

/-- What adds the key with a number. -/
def keyEdits (s : Scenario) (i : Nat) : List Edit :=
  .addContentKey ⟨keyId i, some ⟨.replicate 16 (UInt8.ofNat i)⟩⟩
    :: if s.rules then [.addUsageRule ⟨keyId i, []⟩] else []

/-- What makes the document. -/
def edits (s : Scenario) : List Edit :=
  (List.range s.keys).flatMap s.keyEdits
    ++ s.recipientCredentials.map (fun r => .addRecipient r.certificate)
    ++ s.signer?.toList.map .setDocumentSigner

/-- The document of a scenario. -/
def build (s : Scenario) : Except DocumentFault Document := Document.empty.editAll s.edits

/-- The artifact of a scenario. -/
def render (s : Scenario) : Except DocumentFault Bytes := do
  let document ← s.build
  (document.toArtifact .compact (Entropy.seeded s.seed)).1

/-- For each named scenario, whether saving it twice gives the same. -/
def reproducible : Except DocumentFault (List (String × Bool)) :=
  all.mapM fun s => do
    let first ← s.render
    let second ← s.render
    return (s.name, first == second)

end Scenario

end KeyExchange.Sample
