import KeyExchange.Proofs.Envelope.WrappedKey
import KeyExchange.Sample.Parties

/-!
# A wrapped key is for one party

An entry opens for the party it was made for.  To every other party it is none of its
business, also to one that shares a key or both keys with the recipient and differs in
its name only: an address is a hash of the whole certificate.

* `Credential.eq_ofParts`: every credential is made of its parts, so what holds of all
  holds of those that come from a seed or from a random source;
* `Wraps.unwrap_stranger`: others get nothing from an entry;
* `WrapsAll.exists_perm`: entries in another order were made for the recipients in
  another order;
* `wrap_addresses_one`: one entry for one party, and several for several.
-/

namespace KeyExchange

/-- A credential is made of its name and its two secrets. -/
theorem Credential.eq_ofParts (c : Credential) :
    c = .ofParts c.certificate.subject c.seed c.secret := by
  obtain ⟨seed, secret, ⟨subject, signingKey, encryptionKey⟩, hsigning, hencryption⟩ := c
  dsimp only at hsigning hencryption
  subst hsigning hencryption
  rfl

/-- Certificates that differ, differ in one of their parts. -/
theorem Certificate.ne_of_part {c c' : Certificate}
    (h : c.subject ≠ c'.subject ∨ c.signingKey ≠ c'.signingKey ∨
      c.encryptionKey ≠ c'.encryptionKey) : c ≠ c' := by
  rintro rfl
  rcases h with h | h | h
  · exact h rfl
  · exact h rfl
  · exact h rfl

namespace WrappedKey

open Outcome

variable {w : WrappedKey} {recipient : Certificate} {key : SymmetricKey}
  {ephemeral : AgreementSecret}

/-- **Others get nothing from the entry**, as long as their fingerprint is not by
accident that of the recipient. -/
theorem Wraps.unwrap_stranger (h : w.Wraps recipient key ephemeral) {credential : Credential}
    (hother : credential.certificate ≠ recipient)
    (hclean : ¬credential.certificate.Collide recipient) : w.unwrap credential = .ok none := by
  obtain ⟨address, haddress⟩ := credential.certificate.exists_fingerprint
  have hfor : ¬w.isFor address = true := by
    intro hsent
    have hsame : credential.certificate.fingerprint = recipient.fingerprint := by
      rw [haddress, h.address, eq_of_beq hsent]
    exact hother (Certificate.eq_of_fingerprint hclean hsame)
  unfold WrappedKey.unwrap
  rw [Credential.fingerprint, haddress, mapError_ok, ok_bind, if_neg hfor]
  rfl

/-- Entries in another order were made for the recipients in another order. -/
theorem WrapsAll.exists_perm {recipients : List Certificate} {entries entries' : List WrappedKey}
    (h : WrapsAll recipients entries key) (hperm : entries'.Perm entries) :
    ∃ recipients' : List Certificate, recipients'.Perm recipients ∧
      WrapsAll recipients' entries' key := by
  obtain ⟨recipients', hwraps, hrecipients⟩ := List.perm_comp_forall₂ hperm h.flip
  exact ⟨recipients', hrecipients, hwraps.flip⟩

/-- What wrapping makes for several recipients, from whatever sources. -/
theorem wrapsAll_of_forall₂ {recipients : List Certificate} {entries : List WrappedKey}
    (h : List.Forall₂ (fun r w => ∃ e, (wrap r key e).1 = .ok w) recipients entries) :
    WrapsAll recipients entries key :=
  h.imp fun _ _ ⟨_, hmade⟩ => wraps_of_gives (Drawing.gives_of_fst hmade)

/-- **A wrapped key addresses one party.**  Every credential is that of its parts.  From
an entry that was made for a certificate, from whatever source, the credential with this
certificate gets the key, and every credential that differs from it in its name, its
signing key or its encryption key gets nothing; neither fails.  From entries of one key
for some recipients, in whatever order, some credentials in whatever order get the key if
one of them is a recipient, and nothing otherwise.  All this is as long as the hash of
fingerprints does not collide on the certificates at hand. -/
theorem wrap_addresses_one :
    (∀ c : Credential, c = .ofParts c.certificate.subject c.seed c.secret) ∧
    (∀ recipient key e w, (wrap recipient key e).1 = .ok w → ∀ c : Credential,
      (c.certificate = recipient → w.unwrap c = .ok (some key)) ∧
      (c.certificate.subject ≠ recipient.subject ∨
          c.certificate.signingKey ≠ recipient.signingKey ∨
          c.certificate.encryptionKey ≠ recipient.encryptionKey →
        ¬c.certificate.Collide recipient → w.unwrap c = .ok none)) ∧
    ∀ recipients key entries, List.Forall₂ (fun r w => ∃ e, (wrap r key e).1 = .ok w)
        recipients entries → ∀ credentials, NoCollision credentials recipients →
      ∀ entries' credentials', entries'.Perm entries → credentials'.Perm credentials →
        unwrapAny entries' credentials'
          = .ok (if ∃ c ∈ credentials, c.certificate ∈ recipients then some key else none) := by
  refine ⟨Credential.eq_ofParts, ?_, ?_⟩
  · intro recipient key e w hmade c
    obtain ⟨ephemeral, hwraps⟩ := wraps_of_gives (Drawing.gives_of_fst hmade)
    exact ⟨hwraps.unwrap, fun hdiffers => hwraps.unwrap_stranger (Certificate.ne_of_part hdiffers)⟩
  · intro recipients key entries hmade credentials hclean entries' credentials' hentries
      hcredentials
    obtain ⟨recipients', hrecipients, hwraps⟩ := (wrapsAll_of_forall₂ hmade).exists_perm hentries
    have hclean' : NoCollision credentials' recipients' := fun c hc r hr =>
      hclean c (hcredentials.mem_iff.1 hc) r (hrecipients.mem_iff.1 hr)
    obtain ⟨hsome, hnone⟩ := hwraps.unwrapAny hclean'
    by_cases hany : ∃ c ∈ credentials, c.certificate ∈ recipients
    · rw [if_pos hany]
      obtain ⟨c, hc, hmem⟩ := hany
      exact hsome ⟨c, hcredentials.mem_iff.2 hc, hrecipients.mem_iff.2 hmem⟩
    · rw [if_neg hany]
      exact hnone fun c hc hmem =>
        hany ⟨c, hcredentials.mem_iff.1 hc, hrecipients.mem_iff.1 hmem⟩

/-- A party with the keys of the first recipient and another name. -/
def namesake : Credential :=
  .ofParts "Recipient 3" Sample.recipient1.seed Sample.recipient1.secret

/-- Entries for two recipients, in either order, are nothing to a party that has the keys of
the first but another name. -/
theorem wrap_addresses_one_namesake :
    let key : SymmetricKey := ⟨.replicate 32 7⟩
    ∃ w₁ w₂,
      (wrap Sample.recipient1.certificate key (.cycle [1, 2, 3])).1 = .ok w₁ ∧
      (wrap Sample.recipient2.certificate key (.cycle [4, 5])).1 = .ok w₂ ∧
      w₁.unwrap Sample.recipient1 = .ok (some key) ∧
      namesake.certificate.encryptionKey = Sample.recipient1.certificate.encryptionKey ∧
      w₁.unwrap namesake = .ok none ∧
      unwrapAny [w₂, w₁] [namesake] = .ok none ∧
      unwrapAny [w₂, w₁] [Sample.recipient1, namesake] = .ok (some key) := by
  intro key
  obtain ⟨-, hone, hseveral⟩ := wrap_addresses_one
  obtain ⟨w₁, hmade₁, -⟩ := @draws_wrap Sample.recipient1.certificate key (.cycle [1, 2, 3])
    (by decide +kernel)
  obtain ⟨w₂, hmade₂, -⟩ := @draws_wrap Sample.recipient2.certificate key (.cycle [4, 5])
    (by decide +kernel)
  have hfirst := congrArg Prod.fst hmade₁
  have hsecond := congrArg Prod.fst hmade₂
  have hnamesake₁ : ¬namesake.certificate.Collide Sample.recipient1.certificate :=
    Certificate.not_collide_of_ne (by decide +kernel)
  have hnamesake₂ : ¬namesake.certificate.Collide Sample.recipient2.certificate :=
    Certificate.not_collide_of_ne (by decide +kernel)
  have hrecipient₂ : ¬Sample.recipient1.certificate.Collide Sample.recipient2.certificate :=
    Certificate.not_collide_of_ne (by decide +kernel)
  have hnames : namesake.certificate.subject ≠ Sample.recipient1.certificate.subject := by decide
  have hclean : NoCollision [Sample.recipient1, namesake]
      [Sample.recipient1.certificate, Sample.recipient2.certificate] := by
    intro c hc r hr
    simp only [List.mem_cons, List.not_mem_nil, or_false] at hc hr
    rcases hc with rfl | rfl
    · rcases hr with rfl | rfl
      · exact Certificate.not_collide_self _
      · exact hrecipient₂
    · rcases hr with rfl | rfl
      · exact hnamesake₁
      · exact hnamesake₂
  have hmade : List.Forall₂ (fun r w => ∃ e, (wrap r key e).1 = .ok w)
      [Sample.recipient1.certificate, Sample.recipient2.certificate] [w₁, w₂] :=
    .cons ⟨_, hfirst⟩ (.cons ⟨_, hsecond⟩ .nil)
  have hall := hseveral _ key _ hmade
  have halone : NoCollision [namesake] [Sample.recipient1.certificate,
      Sample.recipient2.certificate] := fun c hc => hclean c (List.mem_cons_of_mem _ hc)
  refine ⟨w₁, w₂, hfirst, hsecond, (hone _ _ _ _ hfirst _).1 rfl, rfl,
    (hone _ _ _ _ hfirst _).2 (.inl hnames) hnamesake₁, ?_, ?_⟩
  · rw [hall _ halone _ _ (.swap w₁ w₂ []) .rfl, if_neg]
    rintro ⟨c, hc, hmem⟩
    rw [List.mem_singleton.1 hc] at hmem
    have hsubject : namesake.certificate.subject ∉ List.map Certificate.subject
        [Sample.recipient1.certificate, Sample.recipient2.certificate] := by decide
    exact hsubject (List.mem_map_of_mem hmem)
  · rw [hall _ hclean _ _ (.swap w₁ w₂ []) .rfl, if_pos]
    exact ⟨Sample.recipient1, List.mem_cons_self, List.mem_cons_self⟩

end WrappedKey

end KeyExchange
