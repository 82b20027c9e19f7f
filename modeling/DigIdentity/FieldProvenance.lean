import DigIdentity.FieldAgreement
import DigIdentity.Provenance

namespace DigIdentity.FieldProvenance

open ByteStrings Fallible TreeCrate Hashing Errors Slots Values Trees Profiles TreeRefinement Addresses
  Dids Pairings IdentityProfiles UniqueMatch Resolvers FieldVerification ProfileProofs FieldAgreement
  Authorities Runs ChainWorlds WorldSources Provenance

section Claims

variable [AddressCodec] [Sha2] [SmtCrate]

/-- Ask the composed verifier about a slot's content, absence included. -/
def verifyContentForDid (singleton : IdentitySingleton) (store : StoreRecord) (root : Digest32)
    (slot : SlotId) (content : Option Value) (proof : ProfileProof) : Except Error Bool :=
  match content with
  | some value => verifyProfileFieldForDid singleton store root slot value proof
  | none => verifyProfileFieldAbsentForDid singleton store root slot proof

def contentInputs (q : Profile) (slot : SlotId) (content : Option Value) : List Bytes :=
  hashed (profileOps q) ++
    (slot.preimage :: (content.map fun value => leafPreimage slot.key value.encode).toList)

theorem paired_of_accepted {singleton : IdentitySingleton} {store : StoreRecord} {root : Digest32}
    {slot : SlotId} {content : Option Value} {proof : ProfileProof}
    (h : verifyContentForDid singleton store root slot content proof = .ok true) :
    isAuthoritativeProfile store singleton = true := by
  cases content with
  | some value => exact (gated_eq_true_iff.mp ((verifyProfileFieldForDid_eq ..).symm.trans h)).1
  | none => exact (gated_eq_true_iff.mp ((verifyProfileFieldAbsentForDid_eq ..).symm.trans h)).1

theorem get_of_accepted (hd : crate.Documented) {singleton : IdentitySingleton} {store : StoreRecord}
    {slot : SlotId} {content : Option Value} {proof : ProfileProof} {q : Profile} {tree : ProfileTree}
    (h : verifyContentForDid singleton store tree.root slot content proof = .ok true)
    (ht : q.buildTree = .ok tree) (hs : crate.Sound tree.smt)
    (hf : CollisionFree sha256 (contentInputs q slot content)) : q.get slot = content := by
  have hp : hashed (profileOps q) ⊆ contentInputs q slot content := List.subset_append_left ..
  have hk : slot.preimage ∈ contentInputs q slot content := by simp [contentInputs]
  cases content with
  | some value =>
      have hv := (gated_eq_true_iff.mp ((verifyProfileFieldForDid_eq ..).symm.trans h)).2
      exact get_of_verifyMembership hd ht hs hf hp hk (by simp [contentInputs]) hv
  | none =>
      have hv := (gated_eq_true_iff.mp ((verifyProfileFieldAbsentForDid_eq ..).symm.trans h)).2
      exact get_of_verifyNonMembership hd ht hs hf hp hk hv

end Claims

/-- A reader that never fetches a profile, and takes proofs from anybody: which
events of the run an accepted field of a standing store comes from, and what it
says about every profile with the root that was written. -/
theorem accepted_field_provenance [AddressCodec] [Sha2] [SmtCrate] (hd : crate.Documented)
    {walks scan : World} {past since : Log} (hwalks : Trace Step .genesis past walks)
    (hscan : Trace Step walks since scan) {did : Did} {lineage : SingletonLineage}
    (hl : walks.lineage did.launcherId = some lineage) {s : StoreSingleton} (hs : s ∈ scan.stores)
    {slot : SlotId} {content : Option Value} {proof : ProfileProof}
    (hv : verifyContentForDid ⟨did, lineage⟩ s.state.store s.state.rootHash slot content proof =
      .ok true) :
    parseDidFromDescription s.state.store.description = some did ∧
      LaunchedIn did.launcherId s.launcherCoin (past ++ since) ∧
      WrittenIn did.launcherId s.state .genesis (past ++ since) ∧
      (∀ q tree, q.buildTree = .ok tree → tree.root = s.state.rootHash → crate.Sound tree.smt →
        CollisionFree sha256 (contentInputs q slot content) → q.get slot = content) := by
  obtain ⟨hname, hcontains⟩ := (authoritative_iff _ _).mp (paired_of_accepted hv)
  have hparent : s.parent ∈ scan.walk did.launcherId :=
    walk_mono_run hscan.run ((contains_of_lineage hl).mp hcontains)
  obtain ⟨hlaunched, hwritten⟩ :=
    provenance_of_standing (hwalks.append hscan) ⟨s, hs, rfl, hparent⟩
  refine ⟨(parse_eq_some_iff _ _).mpr hname, hlaunched, hwritten, ?_⟩
  intro q tree ht hroot hsound hf
  rw [← hroot] at hv
  exact get_of_accepted hd hv ht hsound hf

section Sample

open References

theorem sampleProfile_field_provenance :
    letI := crateOf [built (profileOps sampleProfile)]
    ∃ proof, verifyContentForDid ⟨sampleDid, .new (coinId 2) [coinId 1, coinId 42]⟩
        (sampleStore sampleProfile).state.store (sampleStore sampleProfile).state.rootHash
        standard.displayName (some (.utf8 "Ada")) proof = .ok true ∧
      WrittenIn (coinId 42) (sampleStore sampleProfile).state .genesis (publishedLog sampleProfile) ∧
      (∀ q tree, q.buildTree = .ok tree → tree.root = (sampleStore sampleProfile).state.rootHash →
        crate.Sound tree.smt →
        CollisionFree sha256 (contentInputs q standard.displayName (some (.utf8 "Ada"))) →
        q.get standard.displayName = some (.utf8 "Ada")) := by
  let _ := crateOf [built (profileOps sampleProfile)]
  obtain ⟨tree, ht, hroot⟩ := Profile.buildRoot_eq_ok.mp (buildRoot_rootOf _ sampleProfile)
  have hf : CollisionFree sha256 (hashed (profileOps sampleProfile) ++
      [standard.displayName.preimage]) := by decide +kernel
  have hname : sampleProfile.get standard.displayName = some (.utf8 "Ada") := by decide +kernel
  obtain ⟨proof, _, hverify⟩ := proveMembership_of_get (documented _) ht
    (registered_profile sampleProfile _ ht).1 hf (List.subset_append_left ..) (by simp) hname
  have hpaired : storeBelongsToDid (sampleStore sampleProfile).state.store
      ⟨sampleDid, .new (coinId 2) [coinId 1, coinId 42]⟩ = true := by
    refine (authoritative_iff _ _).mpr ⟨sampleDid.trimmed, ?_⟩
    decide +kernel
  have hv : verifyContentForDid ⟨sampleDid, .new (coinId 2) [coinId 1, coinId 42]⟩
      (sampleStore sampleProfile).state.store (sampleStore sampleProfile).state.rootHash
      standard.displayName (some (.utf8 "Ada")) proof = .ok true := by
    rw [verifyContentForDid, verifyProfileFieldForDid_eq, gated_eq_true_iff, hverify]
    exact ⟨hpaired, congrArg Except.ok (decide_eq_true (hroot.trans sampleStore_root.symm).symm)⟩
  have hl : (publishedWorld sampleProfile).lineage sampleDid.launcherId =
      some (.new (coinId 2) [coinId 1, coinId 42]) := lineage_eq_some_iff.mpr ⟨_, rfl, rfl, rfl⟩
  have hs : sampleStore sampleProfile ∈ (publishedWorld sampleProfile).stores :=
    List.mem_singleton_self _
  obtain ⟨_, _, hwritten, hget⟩ := accepted_field_provenance (documented _)
    (trace_publishedWorld sampleProfile) (.nil _) hl hs hv
  rw [List.append_nil] at hwritten
  exact ⟨proof, hv, hwritten, hget⟩

end Sample

end DigIdentity.FieldProvenance
