import DigIdentity.FieldVerification
import DigIdentity.References

namespace DigIdentity.FieldOutcomes

open ByteStrings Fallible TreeCrate LeafPrograms Hashing Errors Slots Values Trees Addresses Pairings
  FieldVerification

/-- What is documented of a composed verification, from the pairing predicate
and the standalone verifier's answer: acceptance or one of two errors. -/
structure FieldContract (paired : Bool) (answer result : Except Error Bool) : Prop where
  outcomes : result = .ok true ∨ result = .error .notAuthoritativeProfile ∨
    result = .error .fieldProofRejected
  unpaired : result = .error .notAuthoritativeProfile ↔ paired = false
  accepted : result = .ok true ↔ paired = true ∧ answer = .ok true
  rejected : result = .error .fieldProofRejected ↔ paired = true ∧ answer ≠ .ok true

theorem contract_gated_iff {paired : Bool} {answer : Except Error Bool}
    (ha : answer ≠ .error .fieldProofRejected) :
    FieldContract paired answer (gated paired answer) ↔ paired = false ∨ ∃ accepted, answer = .ok accepted := by
  rw [gated_eq]
  constructor
  · intro h
    cases paired with
    | false => exact .inl rfl
    | true =>
        cases answer with
        | ok accepted => exact .inr ⟨accepted, rfl⟩
        | error e =>
            have he := h.rejected.mpr ⟨rfl, nofun⟩
            exact absurd he ha
  · rintro (rfl | ⟨_ | _, rfl⟩)
    · exact ⟨by simp, by simp, by simp, by simp⟩
    · cases paired <;> exact ⟨by simp, by simp, by simp, by simp⟩
    · cases paired <;> exact ⟨by simp, by simp, by simp, by simp⟩

section Verifiers

variable [Sha2] [SmtCrate]

/-- Whether a standalone verifier comes to a verdict hangs on the proof bytes
alone: not on the root, the slot or the claim. -/
theorem verifyLeaf_isOk_iff (hi : Interprets crate) {root : Digest32} {slot : SlotId}
    {leafHash : Digest32} {proof : ProfileProof} :
    (∃ accepted, verifyLeaf root slot leafHash proof = .ok accepted) ↔ LeafProgram proof.bytes := by
  rw [← hi proof.bytes root slot.key leafHash]
  exact exists_congr fun _ => mapError_eq_ok

theorem verifyLeaf_ne_rejected (root : Digest32) (slot : SlotId) (leafHash : Digest32)
    (proof : ProfileProof) : verifyLeaf root slot leafHash proof ≠ .error .fieldProofRejected := by
  rw [verifyLeaf]
  cases crate.verify proof.bytes root [(slot.key, leafHash)] <;> simp [smtError]

end Verifiers

/-- The verifiers keep to their documented outcomes unless the store is paired
and the proof bytes are no program about one leaf, which the tree crate answers
with an error that then leaks through. -/
theorem contract_iff_leafProgram [AddressCodec] [Sha2] [SmtCrate] (hi : Interprets crate)
    (singleton : IdentitySingleton) (store : StoreRecord) (root : Digest32) (slot : SlotId)
    (proof : ProfileProof) :
    (∀ value : Value,
      FieldContract (storeBelongsToDid store singleton) (verifyMembership root slot value proof)
        (verifyProfileFieldForDid singleton store root slot value proof) ↔
      storeBelongsToDid store singleton = false ∨ LeafProgram proof.bytes) ∧
    (FieldContract (storeBelongsToDid store singleton) (verifyNonMembership root slot proof)
        (verifyProfileFieldAbsentForDid singleton store root slot proof) ↔
      storeBelongsToDid store singleton = false ∨ LeafProgram proof.bytes) := by
  constructor
  · intro value
    rw [verifyProfileFieldForDid_eq, verifyMembership, contract_gated_iff (verifyLeaf_ne_rejected _ _ _ _),
      verifyLeaf_isOk_iff hi]
  · rw [verifyProfileFieldAbsentForDid_eq, verifyNonMembership,
      contract_gated_iff (verifyLeaf_ne_rejected _ _ _ _), verifyLeaf_isOk_iff hi]

section Sample

open References

/-- The contract of the membership verifier for a paired store. -/
def sampleContract [SmtCrate] (bytes : Bytes) : Prop :=
  let singleton : IdentitySingleton := ⟨sampleDid, sampleLineage⟩
  let store := storeAt didText (coinId 1)
  FieldContract (storeBelongsToDid store singleton)
    (verifyMembership zero32 standard.displayName (.utf8 "Ada") ⟨bytes⟩)
    (verifyProfileFieldForDid singleton store zero32 standard.displayName (.utf8 "Ada") ⟨bytes⟩)

/-- The proof for an empty tree keeps the contract; the same bytes cut short or
followed by more break it, and so does an undefined opcode. -/
theorem damaged_proof_breaks_contract :
    letI := crateOf []
    sampleContract [0x4C, 0x4F, 0] ∧ ¬sampleContract [0x4C, 0x4F] ∧
      ¬sampleContract [0x4C, 0x4F, 0, 0x4C] ∧ ¬sampleContract [0x4C, 0x00] := by
  let _ := crateOf []
  have hpaired : storeBelongsToDid (storeAt didText (coinId 1)) ⟨sampleDid, sampleLineage⟩ = true :=
    (authoritative_iff _ _).mpr ⟨sampleDid.trimmed, by decide +kernel⟩
  have hcontract (bytes : Bytes) : sampleContract bytes ↔ LeafProgram bytes := by
    refine ((contract_iff_leafProgram (interprets []) ⟨sampleDid, sampleLineage⟩
      (storeAt didText (coinId 1)) zero32 standard.displayName ⟨bytes⟩).1 (.utf8 "Ada")).trans ?_
    simp [hpaired]
  have hwhole : LeafProgram [0x4C, 0x4F, 0] := ⟨_, rfl, .step (.zeros 0) .done⟩
  simp only [hcontract]
  refine ⟨hwhole, ?_, ?_, not_leafProgram_of_code .done (by decide)⟩
  · intro hcut
    exact nomatch hcut.append_iff.mp hwhole
  · intro hmore
    exact nomatch hwhole.append_iff.mp hmore

theorem empty_proof_leaks_error :
    letI := crateOf []
    let singleton : IdentitySingleton := ⟨sampleDid, sampleLineage⟩
    let store := storeAt didText (coinId 1)
    verifyProfileFieldForDid singleton store zero32 standard.displayName (.utf8 "Ada") ⟨[]⟩ =
        .error (.smt "Corrupted serialized proof stack") ∧
      verifyProfileFieldAbsentForDid singleton store zero32 standard.displayName ⟨[]⟩ =
        .error (.smt "Corrupted serialized proof stack") ∧
      ¬FieldContract (storeBelongsToDid store singleton)
        (verifyMembership zero32 standard.displayName (.utf8 "Ada") ⟨[]⟩)
        (verifyProfileFieldForDid singleton store zero32 standard.displayName (.utf8 "Ada") ⟨[]⟩) ∧
      ¬FieldContract (storeBelongsToDid store singleton)
        (verifyNonMembership zero32 standard.displayName ⟨[]⟩)
        (verifyProfileFieldAbsentForDid singleton store zero32 standard.displayName ⟨[]⟩) := by
  let _ := crateOf []
  have hfield : verifyProfileFieldForDid ⟨sampleDid, sampleLineage⟩ (storeAt didText (coinId 1)) zero32
      standard.displayName (.utf8 "Ada") ⟨[]⟩ = .error (.smt "Corrupted serialized proof stack") := by
    decide +kernel
  have habsent : verifyProfileFieldAbsentForDid ⟨sampleDid, sampleLineage⟩
      (storeAt didText (coinId 1)) zero32 standard.displayName ⟨[]⟩ =
        .error (.smt "Corrupted serialized proof stack") := by
    decide +kernel
  refine ⟨hfield, habsent, ?_, ?_⟩
  · intro h
    rcases h.outcomes with ho | ho | ho <;> simp [hfield] at ho
  · intro h
    rcases h.outcomes with ho | ho | ho <;> simp [habsent] at ho

end Sample

end DigIdentity.FieldOutcomes
