import DigIdentity.Pairings
import DigIdentity.Trees

namespace DigIdentity.FieldVerification

open ByteStrings Hashing Errors Slots Values Trees Addresses Pairings

/-- The shape both functions share: the pairing gate over a standalone
verifier's answer. An error of the verifier passes through. -/
def gated (paired : Bool) (answer : Except Error Bool) : Except Error Bool := do
  if !paired then throw .notAuthoritativeProfile
  if !(← answer) then throw .fieldProofRejected
  return true

theorem gated_eq (paired : Bool) (answer : Except Error Bool) :
    gated paired answer =
      if paired then
        match answer with
        | .error e => .error e
        | .ok true => .ok true
        | .ok false => .error .fieldProofRejected
      else .error .notAuthoritativeProfile := by
  cases paired with
  | false => rfl
  | true => rcases answer with e | _ | _ <;> rfl

theorem gated_eq_true_iff {paired : Bool} {answer : Except Error Bool} :
    gated paired answer = .ok true ↔ paired = true ∧ answer = .ok true := by
  rw [gated_eq]
  cases paired <;> rcases answer with e | _ | _ <;> simp

variable [AddressCodec] [Sha2] [SmtCrate]

def verifyProfileFieldForDid (singleton : IdentitySingleton) (store : StoreRecord) (root : Digest32)
    (slot : SlotId) (value : Value) (proof : ProfileProof) : Except Error Bool := do
  if !storeBelongsToDid store singleton then throw .notAuthoritativeProfile
  if !(← verifyMembership root slot value proof) then throw .fieldProofRejected
  return true

def verifyProfileFieldAbsentForDid (singleton : IdentitySingleton) (store : StoreRecord)
    (root : Digest32) (slot : SlotId) (proof : ProfileProof) : Except Error Bool := do
  if !storeBelongsToDid store singleton then throw .notAuthoritativeProfile
  if !(← verifyNonMembership root slot proof) then throw .fieldProofRejected
  return true

theorem verifyProfileFieldForDid_eq (singleton : IdentitySingleton) (store : StoreRecord)
    (root : Digest32) (slot : SlotId) (value : Value) (proof : ProfileProof) :
    verifyProfileFieldForDid singleton store root slot value proof =
      gated (storeBelongsToDid store singleton) (verifyMembership root slot value proof) := rfl

theorem verifyProfileFieldAbsentForDid_eq (singleton : IdentitySingleton) (store : StoreRecord)
    (root : Digest32) (slot : SlotId) (proof : ProfileProof) :
    verifyProfileFieldAbsentForDid singleton store root slot proof =
      gated (storeBelongsToDid store singleton) (verifyNonMembership root slot proof) := rfl

end DigIdentity.FieldVerification
