import DigIdentity.KeyRotation
import DigIdentity.Signatures

namespace DigIdentity.AuthenticatedMessages

open ByteStrings Fallible TreeCrate Hashing Errors Slots Values Trees Profiles TreeRefinement Addresses
  Dids Pairings IdentityProfiles UniqueMatch Resolvers RootBinding FieldAgreement Authorities Runs
  ChainWorlds WorldSources Provenance KeyRotation Bls BlsCrates BlsKeys BlsReadings SealDh
  SignatureReadings Signatures

section Keys

variable [AddressCodec] [Sha2] [SmtCrate] {E : Type} [ToString E] {source : ChainSource E}
  {didUri : String} {k : Bytes48}

/-- A key that was resolved is in the profile that was resolved with it. -/
theorem profile_of_resolveBlsPublicKey (hk : resolveBlsPublicKey didUri source = .ok k) :
    ∃ p, resolveIdentityProfile didUri source = .ok p ∧
      p.metadata.bytes48 standard.blsG1PublicKey = some k := by
  cases hq : resolveIdentityProfile didUri source with
  | error e => simp [resolveBlsPublicKey, resolveDidKeys, hq] at hk
  | ok p =>
      refine ⟨p, rfl, ?_⟩
      rw [resolveBlsPublicKey_of_resolve hq] at hk
      cases hs : p.metadata.bytes48 standard.blsG1PublicKey with
      | none => simp [hs] at hk
      | some key => rw [hs] at hk; exact congrArg some (Except.ok.inj hk)

end Keys

/-- What a receiver knows of a message whose signature verifies under the key it
has resolved: in the run of the chain, the DID's own spend or an authorized
caller published the key and it has stood since, one scalar is behind the key and this signature, no other
signature of the message verifies, and a reply can be sealed to the key. -/
theorem accepted_message_provenance [AddressCodec] [Sha2] [SmtCrate] [KeyModelCrates] {E : Type}
    [ToString E] {P F T : Type} [AddCommGroup P] [AddCommGroup F] [AddCommGroup T]
    {R : SigningReading P F T} (hR : R.Documented) (hd : crate.Documented) {walks scan : World}
    {past since : Log} (hwalks : Trace Step .genesis past walks) (hscan : Trace Step walks since scan)
    {source : ChainSource E} (hr : Reports walks scan source) {didUri : String} {k : Bytes48}
    (hk : resolveBlsPublicKey didUri source = .ok k) {msg : Bytes} {sig : Bytes96}
    (hv : verifySignature k msg sig = true) :
    ∃ p, resolveIdentityProfile didUri source = .ok p ∧
      WrittenIn p.did.launcherId ⟨p.store, p.root⟩ .genesis (past ++ since) ∧
      (∀ q, q.buildRoot = .ok p.root → Unforged p.metadata q →
        q.bytes48 standard.blsG1PublicKey = some k) ∧
      (∃! n, (n < R.r ∧ n ≠ 0) ∧ R.encode (n • R.generator) = k ∧
        R.encode2 (n • R.messagePoint k msg) = sig) ∧
      (∀ sig', verifySignature k msg sig' = true → sig' = sig) ∧
      (∀ receiver, (g1Dh receiver k).isSome = true ↔ scalarOf receiver ≠ 0) := by
  obtain ⟨p, hp, hkey⟩ := profile_of_resolveBlsPublicKey hk
  obtain ⟨_, _, hone, _, hroot⟩ := of_resolve hr hp
  have hstanding : Standing p.did.launcherId ⟨p.store, p.root⟩ scan :=
    standing_of_published hscan.run (hone ▸ List.mem_singleton_self _)
  obtain ⟨_, hwritten⟩ := provenance_of_standing (hwalks.append hscan) hstanding
  have hcheck := check_of_verifySignature hR hv
  refine ⟨p, hp, hwritten, ?_, existsUnique_signer hR hv, ?_, ?_⟩
  · intro q hq hu
    rw [← eq_of_buildRoot_eq hd hu hroot hq]
    exact hkey
  · intro sig' hv'
    exact (existsUnique_signature hR hcheck msg).unique hv' hv
  · intro receiver
    rw [g1Dh_isSome_iff hR.toDocumented]
    exact and_iff_right hcheck

section Sample

open References SignatureReference

def signerProfile : Profile :=
  sampleProfile.set standard.blsG1PublicKey (.bytes (publicKeyBytes identityKey).toList)

/-- A reader accepts the sample message from the holder of the golden seed's
identity key, and no other signature of it. -/
theorem goldenMessage_provenance :
    letI := crateOf []
    let source : ChainSource String := honest (publishedWorld signerProfile) fun _ _ => .ok signerProfile
    resolveBlsPublicKey didText source = .ok (publicKeyBytes identityKey) ∧
      WrittenIn (coinId 42) ⟨storeAt didText (coinId 1), rootOf signerProfile⟩ .genesis
        (publishedLog signerProfile) ∧
      (∀ sig, verifySignature (publicKeyBytes identityKey) transcript sig = true →
        sig = signMessage identityKey transcript) := by
  let _ := crateOf []
  intro source
  obtain ⟨q, hq, hdid, hstore, hmetadata, hroot⟩ := resolve_publishedWorld signerProfile
  have hslot : q.metadata.get standard.blsG1PublicKey =
      some (.bytes (publicKeyBytes identityKey).toList) := by
    rw [hmetadata, signerProfile, Profile.get_set, if_pos rfl]
  have hk := resolveBlsPublicKey_of_slot hq hslot
  have hv : verifySignature (publicKeyBytes identityKey) transcript (signMessage identityKey transcript) =
      true := by
    decide +kernel
  obtain ⟨p, hp, hwritten, _, _, hunique, _⟩ := accepted_message_provenance
    SignatureReference.documented (References.documented []) (trace_publishedWorld signerProfile) (.nil _)
    (honest_reports ..) hk hv
  obtain rfl := Except.ok.inj (hp.symm.trans hq)
  rw [hdid, hstore, hroot, List.append_nil] at hwritten
  exact ⟨hk, hwritten, hunique⟩

end Sample

end DigIdentity.AuthenticatedMessages
