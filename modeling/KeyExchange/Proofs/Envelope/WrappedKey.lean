import KeyExchange.Envelope.WrappedKey
import KeyExchange.Proofs.Cipher.Aead
import KeyExchange.Proofs.Curve.Agreement
import KeyExchange.Proofs.Drawing
import KeyExchange.Proofs.Fingerprint

/-!
# Keys reach their recipients

An entry made for a recipient opens with the credential of that recipient: both
parties agree on one secret, so they derive one key, and what was sealed under
it opens.  An entry is found by a fingerprint, so among several entries this
needs fingerprints that do not collide.

* `Wraps`: the entry was made for this recipient and holds this key;
* `wraps_of_gives`: such entries are what wrapping makes;
* `draws_wrap`, `fails_wrap`: when it makes one, and how it fails;
* `Wraps.reveal`: the recipient opens it;
* `WrapsAll.unwrapAny`: among entries for several recipients, whoever is one of
  them gets the key, and nobody else gets anything.
-/

namespace KeyExchange

open Drawing Outcome

/-- The secret that is drawn after `n` more octets. -/
def Entropy.secretAfter (e : Entropy) (n : Nat) : AgreementSecret := ⟨e.slice (e.position + n) 32⟩

/-- Octets that were passed over count for where a secret stands. -/
theorem Entropy.secretAfter_skip (e : Entropy) (m n : Nat) :
    (e.skip m).secretAfter n = e.secretAfter (m + n) :=
  congrArg (fun start => AgreementSecret.mk (e.slice start 32)) (Nat.add_assoc _ _ _)

/-- The nonce that is drawn after `n` more octets. -/
def Entropy.nonceAfter (e : Entropy) (n : Nat) : Nonce := ⟨e.slice (e.position + n) 12⟩

/-- So they do for where a nonce stands. -/
theorem Entropy.nonceAfter_skip (e : Entropy) (m n : Nat) :
    (e.skip m).nonceAfter n = e.nonceAfter (m + n) :=
  congrArg (fun start => Nonce.mk (e.slice start 12)) (Nat.add_assoc _ _ _)

/-- The symmetric key that is drawn next. -/
def Entropy.nextKey (e : Entropy) : SymmetricKey := ⟨e.slice e.position 32⟩

/-- A nonce is the next 12 octets. -/
theorem Nonce.draws_generate {ε : Type} (e : Entropy) :
    Draws (generate : Drawing ε Nonce) e 12 (e.nonceAfter 0) := rfl

/-- A key is the next 32 octets. -/
theorem SymmetricKey.draws_generate {ε : Type} (e : Entropy) :
    Draws (generate : Drawing ε SymmetricKey) e 32 e.nextKey := rfl

/-- A secret is the next 32 octets. -/
theorem AgreementSecret.draws_generate {ε : Type} (e : Entropy) :
    Draws (generate : Drawing ε AgreementSecret) e 32 (e.secretAfter 0) := rfl

/-- A string that one nonce can serve is encrypted, into as many octets and a tag. -/
theorem SymmetricKey.exists_encrypt {n : Nat} (key : SymmetricKey) (hn : n / 64 < Aead.blockLimit)
    (nonce : Nonce) (aad : Bytes) (message : Octets n) :
    ∃ ciphertext, key.encrypt nonce aad message.toList = .ok ciphertext ∧
      ciphertext.length = n + Aead.tagLength := by
  have hfits : Aead.fits message.toList = true := by
    rw [Aead.fits, message.length_toList]
    exact decide_eq_true hn
  unfold encrypt Aead.encrypt
  dsimp only
  rw [if_pos hfits]
  refine ⟨_, rfl, ?_⟩
  rw [List.length_append, ChaCha.length_apply, Aead.length_tagOf, message.length_toList]

/-- What was encrypted comes back. -/
theorem SymmetricKey.decrypt_encrypt {key : SymmetricKey} {nonce : Nonce}
    {aad message ciphertext : Bytes} (h : key.encrypt nonce aad message = .ok ciphertext) :
    key.decrypt nonce aad ciphertext = .ok message := by
  unfold encrypt at h
  rcases hmade : Aead.encrypt key.octets nonce.octets aad message with _ | made
  · rw [hmade] at h
    cases h
  · rw [hmade] at h
    cases h
    rw [decrypt, Aead.decrypt_encrypt hmade]

/-- A sealed value opens with its key and its associated data. -/
theorem SealedValue.reveal_of_gives {message aad : Bytes} {key : SymmetricKey} {v : SealedValue}
    (h : Gives (create message aad key) v) : v.reveal aad key = .ok message := by
  obtain ⟨nonce, -, h⟩ := h.bind
  obtain ⟨ciphertext, hciphertext, h⟩ := h.bind
  rw [← h.pure]
  exact SymmetricKey.decrypt_encrypt hciphertext.liftExcept

/-- Sealing a string that one nonce can serve draws the nonce it is sealed with. -/
theorem SealedValue.draws_create {n : Nat} (hn : n / 64 < Aead.blockLimit) (message : Octets n)
    (aad : Bytes) (key : SymmetricKey) (e : Entropy) :
    ∃ v, Draws (create message.toList aad key) e 12 v ∧ v.nonce = e.nonceAfter 0 ∧
      key.encrypt v.nonce aad message.toList = .ok v.ciphertext := by
  obtain ⟨ciphertext, hciphertext, -⟩ := key.exists_encrypt hn (e.nonceAfter 0) aad message
  refine ⟨⟨.chacha20Poly1305, e.nonceAfter 0, ciphertext⟩, ?_, rfl, hciphertext⟩
  exact (Nonce.draws_generate e).bind_free
    ((draws_liftExcept hciphertext _).bind_free (draws_pure _ _))

/-- Both parties derive one secret. -/
theorem AgreementSecret.agree_comm (a b : AgreementSecret) :
    a.agree b.publicKey = b.agree a.publicKey :=
  congrArg SharedSecret.mk (Agreement.shared_comm a.octets b.octets)

/-- The public key of a secret agrees with every other secret. -/
theorem AgreementSecret.isContributory_agree (a b : AgreementSecret) :
    (a.agree b.publicKey).isContributory = true :=
  Agreement.isContributory_shared a.octets b.octets

namespace WrappedKey

/-- The entry was made for `recipient` and holds `key`. -/
structure Wraps (w : WrappedKey) (recipient : Certificate) (key : SymmetricKey)
    (ephemeral : AgreementSecret) : Prop where
  address : recipient.fingerprint = .ok w.recipient
  ephemeralKey : w.ephemeralKey = ephemeral.publicKey
  contributory : (ephemeral.agree recipient.encryptionKey).isContributory = true
  ciphertext :
    (wrappingKey (ephemeral.agree recipient.encryptionKey) w.recipient w.ephemeralKey).encrypt
      w.nonce w.recipient.octets.toList key.octets.toList = .ok w.ciphertext

/-- Such entries are what wrapping makes. -/
theorem wraps_of_gives {recipient : Certificate} {key : SymmetricKey} {w : WrappedKey}
    (h : Gives (wrap recipient key) w) : ∃ ephemeral, w.Wraps recipient key ephemeral := by
  obtain ⟨address, haddress, h⟩ := h.bind
  obtain ⟨ephemeral, -, h⟩ := h.bind
  by_cases hcontributory : (ephemeral.agree recipient.encryptionKey).isContributory = true
  · rw [if_pos hcontributory] at h
    obtain ⟨nonce, -, h⟩ := h.bind
    obtain ⟨ciphertext, hciphertext, h⟩ := h.bind
    have hw := h.pure
    subst hw
    exact ⟨ephemeral, mapError_eq_ok_iff.1 haddress.liftExcept, rfl, hcontributory,
      hciphertext.liftExcept⟩
  · rw [if_neg hcontributory] at h
    exact absurd h not_gives_throw

/-- **Wrapping for a key that agrees.**  The ephemeral secret and then a nonce are drawn. -/
theorem draws_wrap {recipient : Certificate} (key : SymmetricKey) {e : Entropy}
    (h : ((e.secretAfter 0).agree recipient.encryptionKey).isContributory = true) :
    ∃ w, Draws (wrap recipient key) e 44 w ∧
      w.Wraps recipient key (e.secretAfter 0) ∧ w.nonce = e.nonceAfter 32 := by
  obtain ⟨address, haddress⟩ := recipient.exists_fingerprint
  let secret := e.secretAfter 0
  let wrapping := wrappingKey (secret.agree recipient.encryptionKey) address secret.publicKey
  obtain ⟨ciphertext, hciphertext, -⟩ :=
    wrapping.exists_encrypt (by decide) (e.nonceAfter 32) address.octets.toList key.octets
  refine ⟨⟨address, secret.publicKey, e.nonceAfter 32, ciphertext⟩, ?_,
    ⟨haddress, rfl, h, hciphertext⟩, rfl⟩
  unfold wrap
  apply (draws_liftExcept (mapError_eq_ok_iff.2 haddress) e).free_bind
  apply (AgreementSecret.draws_generate e).bind (k := 12)
  dsimp only
  rw [if_pos h]
  apply (Nonce.draws_generate (e.skip 32)).bind_free
  exact (draws_liftExcept hciphertext _).bind_free (draws_pure _ _)

/-- **Wrapping for a key that does not agree** fails. -/
theorem fails_wrap {recipient : Certificate} (key : SymmetricKey) {e : Entropy}
    (h : ¬((e.secretAfter 0).agree recipient.encryptionKey).isContributory = true) :
    Fails (wrap recipient key) e (.encryption .lowOrderRecipient) := by
  obtain ⟨address, haddress⟩ := recipient.exists_fingerprint
  unfold wrap
  apply (draws_liftExcept (mapError_eq_ok_iff.2 haddress) e).bind_fails
  apply (AgreementSecret.draws_generate e).bind_fails
  dsimp only
  rw [if_neg h]
  rfl

/-- **The recipient opens the entry.** -/
theorem Wraps.reveal {w : WrappedKey} {recipient : Certificate} {key : SymmetricKey}
    {ephemeral : AgreementSecret} (h : w.Wraps recipient key ephemeral) {credential : Credential}
    (hc : credential.certificate = recipient) : w.reveal credential = .ok key := by
  have hagree : credential.agree w.ephemeralKey = ephemeral.agree recipient.encryptionKey := by
    rw [h.ephemeralKey, ← hc, credential.encryptionKey_eq]
    exact AgreementSecret.agree_comm credential.secret ephemeral
  have hopen := SymmetricKey.decrypt_encrypt h.ciphertext
  unfold WrappedKey.reveal
  dsimp only
  rw [hagree, if_pos h.contributory, hopen, ok_bind, Octets.ofList?_toList]
  rfl

/-- The recipient gets the key from the entry. -/
theorem Wraps.unwrap {w : WrappedKey} {recipient : Certificate} {key : SymmetricKey}
    {ephemeral : AgreementSecret} (h : w.Wraps recipient key ephemeral) {credential : Credential}
    (hc : credential.certificate = recipient) : w.unwrap credential = .ok (some key) := by
  have hfor : w.isFor w.recipient = true := beq_self_eq_true _
  unfold WrappedKey.unwrap
  rw [Credential.fingerprint, hc, h.address, mapError_ok, ok_bind, if_pos hfor, h.reveal hc]
  rfl

/-! ## Several recipients -/

/-- The entries were made for these recipients in turn, and all hold `key`. -/
def WrapsAll (recipients : List Certificate) (entries : List WrappedKey) (key : SymmetricKey) :
    Prop :=
  List.Forall₂ (fun r w => ∃ ephemeral, w.Wraps r key ephemeral) recipients entries

/-- No credential has a certificate whose fingerprint is by accident that of a
recipient. -/
def NoCollision (credentials : List Credential) (recipients : List Certificate) : Prop :=
  ∀ c ∈ credentials, ∀ r ∈ recipients, ¬c.certificate.Collide r

variable {recipients : List Certificate} {entries : List WrappedKey} {key : SymmetricKey}

/-- An entry with the address of a credential was made for that credential. -/
theorem WrapsAll.unwrap_of_find (h : WrapsAll recipients entries key) {credential : Credential}
    {address : Fingerprint} (haddress : credential.certificate.fingerprint = .ok address)
    (hclean : ∀ r ∈ recipients, ¬credential.certificate.Collide r)
    {entry : WrappedKey} (hfound : entries.find? (fun e => e.isFor address) = some entry) :
    credential.certificate ∈ recipients ∧ entry.unwrap credential = .ok (some key) := by
  have hfor := List.find?_some hfound
  have hsent : entry.recipient = address := eq_of_beq hfor
  obtain ⟨r, hr, ephemeral, hwraps⟩ :=
    exists_left_of_forall₂ h (List.mem_of_find?_eq_some hfound)
  have hsame : credential.certificate = r := by
    apply Certificate.eq_of_fingerprint (hclean r hr)
    rw [haddress, hwraps.address, hsent]
  exact ⟨hsame ▸ hr, hwraps.unwrap hsame⟩

/-- A credential without an entry of its own is no recipient. -/
theorem WrapsAll.not_mem_of_find (h : WrapsAll recipients entries key) {credential : Credential}
    {address : Fingerprint} (haddress : credential.certificate.fingerprint = .ok address)
    (hnone : entries.find? (fun e => e.isFor address) = none) :
    credential.certificate ∉ recipients := by
  intro hmem
  obtain ⟨w, hw, ephemeral, hwraps⟩ := exists_right_of_forall₂ h hmem
  have hsame : w.recipient = address := by
    have heq := hwraps.address
    rw [haddress] at heq
    exact (Except.ok.inj heq).symm
  exact List.find?_eq_none.1 hnone w hw (beq_iff_eq.2 hsame)

/-- Without entries nobody is addressed. -/
theorem unwrapAny_nil (credentials : List Credential) :
    WrappedKey.unwrapAny [] credentials = .ok none := by
  induction credentials with
  | nil => rfl
  | cons credential others ih =>
      obtain ⟨address, haddress⟩ := credential.certificate.exists_fingerprint
      rw [WrappedKey.unwrapAny, Credential.fingerprint, haddress, mapError_ok, ok_bind]
      exact ih

/-- **Whoever is a recipient gets the key**, and nobody else gets anything.
Neither the order of the credentials nor those among them that are strangers
make a difference. -/
theorem WrapsAll.unwrapAny (h : WrapsAll recipients entries key) {credentials : List Credential}
    (hclean : NoCollision credentials recipients) :
    ((∃ c ∈ credentials, c.certificate ∈ recipients) →
      WrappedKey.unwrapAny entries credentials = .ok (some key)) ∧
    ((∀ c ∈ credentials, c.certificate ∉ recipients) →
      WrappedKey.unwrapAny entries credentials = .ok none) := by
  induction credentials with
  | nil => exact ⟨fun ⟨_, hc, _⟩ => absurd hc List.not_mem_nil, fun _ => rfl⟩
  | cons credential others ih =>
      obtain ⟨hsome, hnone⟩ := ih fun c hc => hclean c (List.mem_cons_of_mem _ hc)
      obtain ⟨address, haddress⟩ := credential.certificate.exists_fingerprint
      have hown := hclean credential List.mem_cons_self
      rw [WrappedKey.unwrapAny, Credential.fingerprint, haddress, mapError_ok, ok_bind]
      rcases hfind : entries.find? (fun e => e.isFor address) with _ | entry
      · have hstranger := h.not_mem_of_find haddress hfind
        rw [hfind]
        constructor
        · intro hparts
          obtain ⟨c, hc, hmem⟩ := hparts
          rcases List.mem_cons.1 hc with rfl | hc
          · exact absurd hmem hstranger
          · exact hsome ⟨c, hc, hmem⟩
        · exact fun hall => hnone fun c hc => hall c (List.mem_cons_of_mem _ hc)
      · obtain ⟨hmem, hopen⟩ := h.unwrap_of_find haddress hown hfind
        rw [hfind]
        constructor
        · exact fun _ => hopen
        · exact fun hall => absurd hmem (hall credential List.mem_cons_self)

end WrappedKey

end KeyExchange
