import DigIdentity.FieldAgreement
import DigIdentity.PendingEdits

namespace DigIdentity.UnrecognisedSlots

open ByteStrings Fallible TreeCrate Hashing Errors Slots Values Trees Profiles TreeRefinement Addresses
  Dids Pairings IdentityProfiles UniqueMatch Resolvers ProfileLifecycles RootBinding FieldAgreement
  FailedEdits

/-- The slots that some reader of this version looks at. -/
def recognised : List SlotId :=
  [standard.schemaVersion, standard.displayName, standard.bio, standard.xchAddress,
    standard.blsG1PublicKey, standard.peerId, standard.keyEpoch]

theorem isFutureStandard_of_recognised : ∀ slot ∈ recognised, slot.isFutureStandard = true := by
  decide

/-- The slots of the other three ranges are not recognised. -/
theorem not_recognised {slot : SlotId}
    (h : slot.isEcosystemExtension = true ∨ slot.isCustom = true ∨ slot.isEncryptedReserved = true) :
    slot ∉ recognised := by
  intro hr
  have hone := one_range slot
  rw [isFutureStandard_of_recognised slot hr] at hone
  rcases h with h | h | h <;> rw [h, Bool.toNat_true] at hone <;> omega

section Readers

variable [AddressCodec]

/-- Two profiles that no reader of this version tells apart. -/
structure SameReading (p q : Profile) : Prop where
  schemaVersion : q.schemaVersion = p.schemaVersion
  displayName : q.displayName = p.displayName
  bio : q.bio = p.bio
  xchAddress : q.xchAddress = p.xchAddress
  keys : q.resolveKeys = p.resolveKeys

theorem sameReading_of_agree {p q : Profile} (h : ∀ slot ∈ recognised, q.get slot = p.get slot) :
    SameReading p q := by
  simp only [recognised, List.forall_mem_cons, List.not_mem_nil, false_implies, implies_true,
    and_true] at h
  obtain ⟨hversion, hname, hbio, haddress, hbls, hpeer, hepoch⟩ := h
  constructor
  · rw [Profile.schemaVersion, Profile.schemaVersion, hversion]
  · rw [Profile.displayName, Profile.displayName, Profile.utf8, Profile.utf8, hname]
  · rw [Profile.bio, Profile.bio, Profile.utf8, Profile.utf8, hbio]
  · rw [Profile.xchAddress, Profile.xchAddress, Profile.utf8, Profile.utf8, haddress]
  · rw [Profile.resolveKeys, Profile.resolveKeys, Profile.bytes48, Profile.bytes48, Profile.bytes32,
      Profile.bytes32, Profile.bytesOf, Profile.bytesOf, Profile.bytesOf, Profile.bytesOf, hbls, hpeer,
      hepoch]

omit [AddressCodec] in
theorem get_edited (p : Profile) (calls : List Call) (s : SlotId)
    (h : ∀ slot value, .set slot value ∈ calls → slot ≠ s) : (edited p calls).get s = p.get s := by
  induction calls using List.reverseRecOn with
  | nil => rfl
  | append_singleton calls call ih =>
      rw [edited_snoc]
      have hbefore := ih fun slot value hc => h slot value (List.mem_append_left _ hc)
      cases call with
      | commitRoot => exact hbefore
      | set slot value =>
          have hne : s ≠ slot := (h slot value (by simp)).symm
          rw [Call.edit, Profile.get_set, if_neg hne, hbefore]

end Readers

/-- Writes to slots that this version does not recognise, in any number and
order and between any commits, failed ones included, change nothing that it
reads or resolves. The root commits to them all the same. -/
theorem unrecognised_slots_are_ignored [AddressCodec] [Sha2] [SmtCrate] (hd : crate.Documented)
    {p : IdentityProfile} {calls : List Call}
    (hc : ∀ slot value, .set slot value ∈ calls → slot ∉ recognised) :
    let q := afterCalls p calls
    SameReading p.metadata q.metadata ∧ q.keys = p.keys ∧ q.displayName = p.displayName ∧
      q.xchAddress = p.xchAddress ∧
      (∀ r s, p.metadata.buildRoot = .ok r → q.metadata.buildRoot = .ok s →
        Unforged p.metadata q.metadata → (r = s ↔ ∀ slot, p.metadata.get slot = q.metadata.get slot)) ∧
      (∀ (E : Type) [ToString E] (didUri didUri' : String) (source source' : ChainSource E) a b,
        resolveIdentityProfile didUri source = .ok a → resolveIdentityProfile didUri' source' = .ok b →
        a.metadata = p.metadata → b.metadata = q.metadata →
        resolveDidKeys didUri' source' = resolveDidKeys didUri source ∧
          resolveBlsPublicKey didUri' source' = resolveBlsPublicKey didUri source) := by
  intro q
  have hm : q.metadata = edited p.metadata calls := (afterCalls_spec p calls).2.2
  have hagree : ∀ slot ∈ recognised, q.metadata.get slot = p.metadata.get slot := by
    intro slot hr
    rw [hm]
    exact get_edited p.metadata calls slot fun _ value hw he => hc _ value hw (he ▸ hr)
  have hsame := sameReading_of_agree hagree
  refine ⟨hsame, hsame.keys, hsame.displayName, hsame.xchAddress, ?_, ?_⟩
  · intro r s hp hq hu
    constructor
    · rintro rfl slot
      rw [eq_of_buildRoot_eq hd hu hp hq]
    · intro hget
      rw [Profile.ext_get hget, hq, Except.ok.injEq] at hp
      exact hp.symm
  · intro E _ didUri didUri' source source' a b ha hb hap hbq
    have hkeys : resolveDidKeys didUri' source' = resolveDidKeys didUri source := by
      simp only [resolveDidKeys, ha, hb, ok_bind, pure_eq_ok, IdentityProfile.keys, hap, hbq, hsame.keys]
    exact ⟨hkeys, by rw [resolveBlsPublicKey, resolveBlsPublicKey, hkeys]⟩

section Sample

open References

/-- An application writes to a slot of its own; the reader's keys are the same
and the root is not. -/
theorem customSlot_ignored :
    letI := crateOf []
    let p := sampleIdentity publishedProfile
    let q := afterCalls p [.set ⟨0x1234⟩ (.utf8 "app"), .commitRoot]
    q.keys = p.keys ∧ rootOf p.metadata ≠ rootOf q.metadata ∧
      (rootOf p.metadata = rootOf q.metadata ↔ ∀ slot, p.metadata.get slot = q.metadata.get slot) := by
  let _ := crateOf []
  intro p q
  have hcustom : ∀ slot value, .set slot value ∈ [Call.set ⟨0x1234⟩ (.utf8 "app"), .commitRoot] →
      slot ∉ recognised := by
    intro slot value hw
    have hslot : slot = ⟨0x1234⟩ ∧ value = .utf8 "app" := by simpa using hw
    rw [hslot.1]
    exact not_recognised (.inr (.inl (by decide)))
  obtain ⟨_, hkeys, _, _, hroot, _⟩ := unrecognised_slots_are_ignored (documented []) (p := p) hcustom
  have hdistinct : rootOf p.metadata ≠ rootOf q.metadata := by decide +kernel
  refine ⟨hkeys, hdistinct, hroot _ _ (buildRoot_rootOf [] _) (buildRoot_rootOf [] _) ?_⟩
  exact unforged_of_rootOf (by decide +kernel) fun he => absurd he hdistinct

end Sample

end DigIdentity.UnrecognisedSlots
