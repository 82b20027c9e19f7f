import DigIdentity.FieldAgreement
import DigIdentity.Publishing
import DigIdentity.SealDh

namespace DigIdentity.KeyRotation

open ByteStrings Fallible TreeCrate Hashing Errors Slots Values Trees Profiles TreeRefinement Addresses
  Dids Pairings IdentityProfiles UniqueMatch Resolvers RootBinding ProfileLifecycles FieldAgreement
  Authorities Runs ChainWorlds WorldSources Provenance Interference Publishing Bls BlsCrates
  PrimeOrderGroups BlsReadings SealDh

section Keys

variable [AddressCodec] [Sha2] [SmtCrate] {E : Type} [ToString E] {walks scan : World}
  {later : ChainSource E} {didUri : String} {did : Did} {store : StoreRecord} {root : Digest32}
  {metadata : Profile} {key : Bytes48}

theorem resolveBlsPublicKey_of_slot {q : IdentityProfile}
    (hq : resolveIdentityProfile didUri later = .ok q)
    (hslot : q.metadata.get standard.blsG1PublicKey = some (.bytes key.toList)) :
    resolveBlsPublicKey didUri later = .ok key := by
  rw [resolveBlsPublicKey_of_resolve hq, Profile.bytes48, Profile.bytesOf_eq_some_iff.mpr hslot]

/-- The key that readers of the one published store get, and the only one. -/
theorem resolved_key (hd : crate.Documented) (hr : Reports walks scan later) (ha : Answers later)
    (hp : Did.parse didUri = some did)
    (hlineage : ∃ lineage, walks.lineage did.launcherId = some lineage)
    (hread : published scan.stores (walks.walk did.launcherId) did = [⟨store, root⟩])
    (hbuild : metadata.buildRoot = .ok root)
    (hslot : metadata.get standard.blsG1PublicKey = some (.bytes key.toList)) :
    (later.fetchProfile store root = .ok metadata → resolveBlsPublicKey didUri later = .ok key) ∧
      ∀ k, resolveBlsPublicKey didUri later = .ok k →
        (∀ q, resolveIdentityProfile didUri later = .ok q → Unforged q.metadata metadata) → k = key := by
  obtain ⟨lineage, hlineage⟩ := hlineage
  obtain ⟨hserved, honly⟩ := readers_find hd hr ha hp hlineage hread hbuild
  constructor
  · intro hfetch
    obtain ⟨q, hq, _, _, hm, _⟩ := hserved hfetch
    exact resolveBlsPublicKey_of_slot hq (hm ▸ hslot)
  · intro k hk hu
    cases hq : resolveIdentityProfile didUri later with
    | error e => simp [resolveBlsPublicKey, resolveDidKeys, hq] at hk
    | ok q =>
        have hm := honly q hq (hu q hq)
        exact Except.ok.inj (hk.symm.trans (resolveBlsPublicKey_of_slot hq (hm ▸ hslot)))

end Keys

/-- A rotation of the identity key reaches every sender: once the root with the
new key is written, no body that anyone serves makes a resolution return another
key. The secret a sender then shares is the one the new key's holder computes,
and never the one the old key's holder does. -/
theorem rotated_key_reaches_senders [AddressCodec] [Sha2] [SmtCrate] [BlsCrates] {E : Type}
    [ToString E] {P : Type} [AddCommGroup P] {R : Reading P} (hR : R.Documented)
    (hd : crate.Documented) {w w' walks scan : World} (hw : Run .genesis w) {source : ChainSource E}
    (hr : Reports w w source) {didUri : String} {p edits pub : IdentityProfile}
    (h : resolveIdentityProfile didUri source = .ok p) {calls : List Call} {root : Digest32}
    (hcalls : runCalls p calls = .ok edits) (hcommit : edits.commitRoot = (.ok root, pub))
    {s s' : StoreSingleton} {caller : Bytes32} (hspend : Step w (.spendStore s (some s') caller) w')
    (hs : s.state = ⟨p.store, p.root⟩) (hs' : s'.state = ⟨pub.store, pub.root⟩)
    (hwalks : QuietRun p.did w' walks) (hscan : QuietRun p.did walks scan)
    {later : ChainSource E} (hr' : Reports walks scan later) (ha' : Answers later)
    (old new : SecretKey)
    (hnew : (edited p.metadata calls).get standard.blsG1PublicKey =
      some (.bytes (publicKeyBytes new).toList)) :
    (later.fetchProfile pub.store pub.root = .ok pub.metadata →
      resolveBlsPublicKey didUri later = .ok (publicKeyBytes new)) ∧
    (∀ k, resolveBlsPublicKey didUri later = .ok k →
      (∀ q, resolveIdentityProfile didUri later = .ok q → Unforged q.metadata pub.metadata) →
      k = publicKeyBytes new ∧
      ∀ sender,
        g1Dh sender k = g1Dh new (publicKeyBytes sender) ∧
        ((g1Dh sender k).isSome = true ↔ scalarOf sender ≠ 0 ∧ scalarOf new ≠ 0) ∧
        (scalarOf sender ≠ 0 → scalarOf old ≠ scalarOf new →
          g1Dh sender k ≠ g1Dh old (publicKeyBytes sender))) := by
  obtain ⟨⟨hp, _, _, hmetadata, hbuild⟩, hlineage, hread⟩ :=
    published_edit hw hr h hcalls hcommit hspend hs hs' hwalks hscan
  obtain ⟨hserved, hkey⟩ := resolved_key hd hr' ha' hp hlineage hread hbuild (hmetadata ▸ hnew)
  refine ⟨hserved, fun k hk hu => ?_⟩
  obtain rfl := hkey k hk hu
  refine ⟨rfl, fun sender => ⟨g1Dh_publicKeyBytes hR _ _, agreement_isSome_iff hR _ _, ?_⟩⟩
  intro hsender hne he
  rw [g1Dh_publicKeyBytes hR old sender] at he
  exact hne (shared_secret_inj hR hsender he).symm

section Sample

open References BlsReference

def keyProfile (sk : SecretKey) : Profile :=
  sampleProfile.set standard.blsG1PublicKey (.bytes (publicKeyBytes sk).toList)

def rotation (sk : SecretKey) : List Call :=
  [.set standard.blsG1PublicKey (.bytes (publicKeyBytes sk).toList)]

theorem edited_rotation (sk new : SecretKey) : edited (keyProfile sk) (rotation new) = keyProfile new := by
  ext slot : 1
  simp only [edited, rotation, List.foldl_cons, List.foldl_nil, Call.edit, keyProfile, Profile.get_set]
  by_cases hs : slot = standard.blsG1PublicKey <;> simp [hs]

/-- Key 1 is replaced by key 3; the sender holds key 2. -/
theorem sampleRotation_reaches_sender :
    letI := crateOf []
    let later : ChainSource String :=
      honest (publishedWorld (keyProfile (secretKey 3))) fun _ _ => .ok (keyProfile (secretKey 3))
    resolveBlsPublicKey didText later = .ok (publicKeyBytes (secretKey 3)) ∧
      g1Dh (secretKey 2) (publicKeyBytes (secretKey 3)) =
        g1Dh (secretKey 3) (publicKeyBytes (secretKey 2)) ∧
      g1Dh (secretKey 2) (publicKeyBytes (secretKey 3)) ≠
        g1Dh (secretKey 1) (publicKeyBytes (secretKey 2)) := by
  let _ := crateOf []
  intro later
  obtain ⟨p, edits, pub, hp, _, hmetadata, hcalls, hcommit, hpub, hs, hs'⟩ :=
    edit_sampleStore (keyProfile (secretKey 1)) (rotation (secretKey 3))
  rw [edited_rotation] at hpub hs'
  have hnew : (edited p.metadata (rotation (secretKey 3))).get standard.blsG1PublicKey =
      some (.bytes (publicKeyBytes (secretKey 3)).toList) := by
    rw [hmetadata, edited_rotation, keyProfile, Profile.get_set, if_pos rfl]
  obtain ⟨hserved, hsenders⟩ := rotated_key_reaches_senders BlsReference.documented
    (References.documented []) (run_publishedWorld (keyProfile (secretKey 1))) (honest_reports ..) hp
    hcalls hcommit (spend_sampleStore (keyProfile (secretKey 1)) (keyProfile (secretKey 3))) hs hs' .refl
    .refl (honest_reports _ fun _ _ => (.ok (keyProfile (secretKey 3)) : Except String Profile))
    (honest_answers ..) (secretKey 1) (secretKey 3) hnew
  have hk : resolveBlsPublicKey didText later = .ok (publicKeyBytes (secretKey 3)) := by
    refine hserved ?_
    change (.ok (keyProfile (secretKey 3)) : Except String Profile) = .ok pub.metadata
    rw [hpub]
  have hunforged (q : IdentityProfile) (hq : resolveIdentityProfile didText later = .ok q) :
      Unforged q.metadata pub.metadata := by
    obtain ⟨_, _, _, hfetch, _⟩ := of_resolve (honest_reports ..) hq
    rw [hpub, ← Except.ok.inj hfetch]
    exact unforged_of_rootOf (by decide +kernel) fun _ => rfl
  obtain ⟨_, hdh⟩ := hsenders _ hk hunforged
  obtain ⟨hagree, _, hdiffer⟩ := hdh (secretKey 2)
  refine ⟨hk, hagree, hdiffer ?_ ?_⟩
  · rw [scalarOf_eq]
    decide
  · rw [scalarOf_eq, scalarOf_eq]
    decide

end Sample

end DigIdentity.KeyRotation
