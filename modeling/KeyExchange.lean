import KeyExchange.Document.Resolve
import KeyExchange.Document.Transfer
import KeyExchange.Sample.Scenario
import KeyExchange.Proofs.Artifact.Acceptance
import KeyExchange.Proofs.Artifact.Ending
import KeyExchange.Proofs.Cbor.Deterministic
import KeyExchange.Proofs.Document.Bystanders
import KeyExchange.Proofs.Document.Confinement
import KeyExchange.Proofs.Document.Integrity
import KeyExchange.Proofs.Document.Randomness
import KeyExchange.Proofs.Document.Resolution
import KeyExchange.Proofs.Document.Separation
import KeyExchange.Proofs.Document.Streaming
import KeyExchange.Proofs.Envelope.Addressing
import KeyExchange.Proofs.Sample.Scenario
