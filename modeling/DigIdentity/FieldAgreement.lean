import DigIdentity.FieldVerification
import DigIdentity.ProfileProofs
import DigIdentity.ResolutionOutcomes

namespace DigIdentity.FieldAgreement

open ByteStrings Fallible TreeCrate Hashing Errors Slots Values Trees Profiles TreeRefinement Addresses
  Dids Pairings IdentityProfiles UniqueMatch Resolvers FieldVerification ProfileProofs
  ResolutionOutcomes

section Paths

variable [AddressCodec] [Sha2] [SmtCrate]

def claimInputs (p : Profile) (slot : SlotId) (value : Value) : List Bytes :=
  hashed (profileOps p) ++ [slot.preimage, leafPreimage slot.key value.encode]

omit [AddressCodec] [SmtCrate] in
theorem profile_subset_claim (p : Profile) (slot : SlotId) (value : Value) :
    hashed (profileOps p) ⊆ claimInputs p slot value :=
  List.subset_append_left ..

omit [AddressCodec] [SmtCrate] in
theorem key_mem_claim (p : Profile) (slot : SlotId) (value : Value) :
    slot.preimage ∈ claimInputs p slot value := by
  simp [claimInputs]

omit [AddressCodec] [SmtCrate] in
theorem leaf_mem_claim (p : Profile) (slot : SlotId) (value : Value) :
    leafPreimage slot.key value.encode ∈ claimInputs p slot value := by
  simp [claimInputs]

theorem verifyField_iff (p : IdentityProfile) (root : Digest32) (slot : SlotId) (value : Value)
    (proof : ProfileProof) :
    verifyProfileFieldForDid p.singleton p.store root slot value proof = .ok true ↔
      verifyMembership root slot value proof = .ok true := by
  rw [verifyProfileFieldForDid_eq, gated_eq_true_iff, p.paired]
  simp

theorem verifyFieldAbsent_iff (p : IdentityProfile) (root : Digest32) (slot : SlotId)
    (proof : ProfileProof) :
    verifyProfileFieldAbsentForDid p.singleton p.store root slot proof = .ok true ↔
      verifyNonMembership root slot proof = .ok true := by
  rw [verifyProfileFieldAbsentForDid_eq, gated_eq_true_iff, p.paired]
  simp

theorem resolveBlsPublicKey_of_resolve {E : Type} [ToString E] {didUri : String}
    {source : ChainSource E} {p : IdentityProfile}
    (h : resolveIdentityProfile didUri source = .ok p) :
    resolveBlsPublicKey didUri source = match p.metadata.bytes48 standard.blsG1PublicKey with
      | some key => .ok key
      | none => .error .noIdentityKey := by
  simp only [resolveBlsPublicKey, resolveDidKeys, h, ok_bind, pure_eq_ok]
  rfl

section Committed

variable {p : IdentityProfile} {tree : ProfileTree} {slot : SlotId} {inputs : List Bytes}
  (hd : crate.Documented) (ht : p.metadata.buildTree = .ok tree) (hr : tree.root = p.root)
  (hf : CollisionFree sha256 inputs) (hp : hashed (profileOps p.metadata) ⊆ inputs)
  (hk : slot.preimage ∈ inputs)

include hd ht hr hf hp hk

theorem proveField_accepted (hc : crate.Complete tree.smt) {value : Value}
    (hv : p.metadata.get slot = some value) :
    ∃ proof, p.proveField slot = .ok proof ∧
      verifyProfileFieldForDid p.singleton p.store p.root slot value proof = .ok true := by
  obtain ⟨proof, hprove, hverify⟩ := proveMembership_of_get hd ht hc hf hp hk hv
  refine ⟨proof, ?_, ?_⟩
  · exact (IdentityProfile.proveField_of_buildTree ht slot).trans hprove
  · rw [verifyField_iff, hverify, hr, decide_eq_true rfl]

theorem proveFieldAbsent_accepted (hc : crate.Complete tree.smt) (hv : p.metadata.get slot = none) :
    ∃ proof, p.proveFieldAbsent slot = .ok proof ∧
      verifyProfileFieldAbsentForDid p.singleton p.store p.root slot proof = .ok true := by
  obtain ⟨proof, hprove, hverify⟩ := proveNonMembership_of_get hd ht hc hf hp hk hv
  refine ⟨proof, ?_, ?_⟩
  · exact (IdentityProfile.proveFieldAbsent_of_buildTree ht slot).trans hprove
  · rw [verifyFieldAbsent_iff, hverify, hr, decide_eq_true rfl]

theorem get_of_verifyField (hs : crate.Sound tree.smt) {value : Value} {proof : ProfileProof}
    (hl : leafPreimage slot.key value.encode ∈ inputs)
    (hv : verifyProfileFieldForDid p.singleton p.store p.root slot value proof = .ok true) :
    p.metadata.get slot = some value := by
  rw [verifyField_iff, ← hr] at hv
  exact get_of_verifyMembership hd ht hs hf hp hk hl hv

theorem get_of_verifyFieldAbsent (hs : crate.Sound tree.smt) {proof : ProfileProof}
    (hv : verifyProfileFieldAbsentForDid p.singleton p.store p.root slot proof = .ok true) :
    p.metadata.get slot = none := by
  rw [verifyFieldAbsent_iff, ← hr] at hv
  exact get_of_verifyNonMembership hd ht hs hf hp hk hv

end Committed

end Paths

/-- What a resolution returns is what offline proofs are accepted for, against
the root of the chosen store. -/
theorem resolution_agrees_with_proofs [AddressCodec] [Sha2] [SmtCrate] {E : Type} [ToString E]
    (hd : crate.Documented) {didUri : String} {source : ChainSource E} {p : IdentityProfile}
    (h : resolveIdentityProfile didUri source = .ok p)
    (hc : ∀ tree, p.metadata.buildTree = .ok tree → crate.Complete tree.smt)
    (hs : ∀ tree, p.metadata.buildTree = .ok tree → crate.Sound tree.smt) :
    ∃ candidates root, source.findStoresForDid p.did = .ok candidates ∧
      OnlyPasses p.singleton candidates ⟨p.store, root⟩ ∧
      (∀ slot value, CollisionFree sha256 (hashed (profileOps p.metadata)) →
        p.metadata.get slot = some value →
        (∃ proof, p.proveField slot = .ok proof ∧
          verifyProfileFieldForDid p.singleton p.store root slot value proof = .ok true) ∧
        (∀ other proof, CollisionFree sha256 (claimInputs p.metadata slot other) → other ≠ value →
          verifyProfileFieldForDid p.singleton p.store root slot other proof ≠ .ok true) ∧
        (∀ proof, verifyProfileFieldAbsentForDid p.singleton p.store root slot proof ≠ .ok true)) ∧
      (∀ slot, CollisionFree sha256 (hashed (profileOps p.metadata) ++ [slot.preimage]) →
        p.metadata.get slot = none →
        (∃ proof, p.proveFieldAbsent slot = .ok proof ∧
          verifyProfileFieldAbsentForDid p.singleton p.store root slot proof = .ok true) ∧
        (∀ value proof, CollisionFree sha256 (claimInputs p.metadata slot value) →
          verifyProfileFieldForDid p.singleton p.store root slot value proof ≠ .ok true)) ∧
      (∀ k : Vector UInt8 48,
        CollisionFree sha256 (claimInputs p.metadata standard.blsG1PublicKey (.bytes k.toList)) →
        (resolveBlsPublicKey didUri source = .ok k ↔ ∃ proof,
          verifyProfileFieldForDid p.singleton p.store root standard.blsG1PublicKey
            (.bytes k.toList) proof = .ok true)) ∧
      (CollisionFree sha256
          (hashed (profileOps p.metadata) ++ [standard.blsG1PublicKey.preimage]) →
        (∀ (k : Vector UInt8 48) proof,
          verifyProfileFieldForDid p.singleton p.store root standard.blsG1PublicKey
            (.bytes k.toList) proof ≠ .ok true) →
        resolveBlsPublicKey didUri source = .error .noIdentityKey) := by
  obtain ⟨_, _, candidates, hstores, hselect, _, hroot⟩ := resolveIdentityProfile_eq_ok_iff.mp h
  obtain ⟨tree, ht, hr⟩ := Profile.buildRoot_eq_ok.mp hroot
  have hcomplete := hc tree ht
  have hsound := hs tree ht
  refine ⟨candidates, p.root, hstores, select_only_iff_onlyPasses.mp hselect, ?_, ?_, ?_, ?_⟩
  · intro slot value hf hv
    have hk : slot.preimage ∈ hashed (profileOps p.metadata) := key_mem_profile (by simp [hv])
    refine ⟨proveField_accepted hd ht hr hf (List.Subset.refl _) hk hcomplete hv, ?_, ?_⟩
    · intro other proof hfo hne ha
      have ho := get_of_verifyField hd ht hr hfo (profile_subset_claim ..) (key_mem_claim ..) hsound
        (leaf_mem_claim ..) ha
      rw [hv, Option.some.injEq] at ho
      exact hne ho.symm
    · intro proof ha
      have hn := get_of_verifyFieldAbsent hd ht hr hf (List.Subset.refl _) hk hsound ha
      simp [hv] at hn
  · intro slot hf hv
    refine ⟨proveFieldAbsent_accepted hd ht hr hf (List.subset_append_left ..) (by simp) hcomplete hv, ?_⟩
    intro value proof hfv ha
    have hg := get_of_verifyField hd ht hr hfv (profile_subset_claim ..) (key_mem_claim ..) hsound
        (leaf_mem_claim ..) ha
    simp [hv] at hg
  · intro k hf
    have hkey : resolveBlsPublicKey didUri source = .ok k ↔
        p.metadata.get standard.blsG1PublicKey = some (.bytes k.toList) := by
      rw [resolveBlsPublicKey_of_resolve h, ← Profile.bytesOf_eq_some_iff]
      rcases hb : p.metadata.bytes48 standard.blsG1PublicKey with _ | key <;>
        rw [Profile.bytes48] at hb <;> simp [hb]
    rw [hkey]
    constructor
    · intro hg
      obtain ⟨proof, _, ha⟩ :=
        proveField_accepted hd ht hr hf (profile_subset_claim ..) (key_mem_claim ..) hcomplete hg
      exact ⟨proof, ha⟩
    · rintro ⟨proof, ha⟩
      exact get_of_verifyField hd ht hr hf (profile_subset_claim ..) (key_mem_claim ..) hsound
        (leaf_mem_claim ..) ha
  · intro hf hnone
    rw [resolveBlsPublicKey_of_resolve h]
    cases hb : p.metadata.bytes48 standard.blsG1PublicKey with
    | none => rfl
    | some key =>
        obtain ⟨proof, _, ha⟩ := proveField_accepted hd ht hr hf (List.subset_append_left ..) (by simp)
          hcomplete (Profile.bytesOf_eq_some_iff.mp hb)
        exact absurd ha (hnone key proof)

section Sample

open References

theorem publishedProfile_agrees :
    letI := crateOf [built (profileOps publishedProfile)]
    let p := sampleIdentity publishedProfile
    let source := sampleSource publishedProfile fun _ _ => .ok publishedProfile
    ∃ root,
      (∃ proof, p.proveField standard.displayName = .ok proof ∧
        verifyProfileFieldForDid p.singleton p.store root standard.displayName (.utf8 "Ada") proof =
          .ok true) ∧
      (∀ proof, verifyProfileFieldForDid p.singleton p.store root standard.displayName (.utf8 "Bob")
        proof ≠ .ok true) ∧
      (∃ proof, p.proveFieldAbsent standard.bio = .ok proof ∧
        verifyProfileFieldAbsentForDid p.singleton p.store root standard.bio proof = .ok true) ∧
      (resolveBlsPublicKey didText source = .ok (Vector.replicate 48 7) ↔ ∃ proof,
        verifyProfileFieldForDid p.singleton p.store root standard.blsG1PublicKey
          (.bytes (Vector.replicate 48 7).toList) proof = .ok true) := by
  let _ := crateOf [built (profileOps publishedProfile)]
  have hregistered := registered_profile publishedProfile
  have h := resolve_sampleSource [built (profileOps publishedProfile)] publishedProfile
    (fun _ _ => .ok publishedProfile) rfl
  obtain ⟨_, root, _, _, hpresent, habsent, hkey, _⟩ := resolution_agrees_with_proofs
    (documented [built (profileOps publishedProfile)]) h (fun tree ht => (hregistered tree ht).1)
    (fun tree ht => (hregistered tree ht).2)
  have hname : publishedProfile.get standard.displayName = some (.utf8 "Ada") := by decide +kernel
  have hbio : publishedProfile.get standard.bio = none := by decide +kernel
  have hf : CollisionFree sha256 (hashed (profileOps publishedProfile) ++
      [standard.displayName.preimage,
        leafPreimage standard.displayName.key (Value.utf8 "Bob").encode, standard.bio.preimage,
        standard.blsG1PublicKey.preimage, leafPreimage standard.blsG1PublicKey.key
          (Value.bytes (Vector.replicate 48 7).toList).encode]) := by decide +kernel
  obtain ⟨hprove, hvalues, _⟩ :=
    hpresent standard.displayName (.utf8 "Ada") (hf.mono (List.subset_append_left ..)) hname
  refine ⟨root, hprove, ?_, ?_, ?_⟩
  · exact fun proof => hvalues (.utf8 "Bob") proof (hf.mono_append (by simp)) (by simp)
  · exact (habsent standard.bio (hf.mono_append (by simp)) hbio).1
  · exact hkey (Vector.replicate 48 7) (hf.mono_append (by simp))

end Sample

end DigIdentity.FieldAgreement
