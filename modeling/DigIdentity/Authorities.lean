import DigIdentity.ByteStrings

namespace DigIdentity.Authorities

open ByteStrings

inductive DelegationKind
  | writer
  | admin
  | oracle
deriving DecidableEq

def DelegationKind.grantsUpdate : DelegationKind → Bool
  | .writer | .admin => true
  | .oracle => false

structure WriterDelegation where
  delegatePuzzleHash : Bytes32
  kind : DelegationKind
  revoked : Bool
  expiresAtHeight : Option UInt32
deriving DecidableEq

/-- An expiry is the first height at which the delegation is no longer valid. -/
def WriterDelegation.authorizes (delegation : WriterDelegation) (callerPuzzleHash : Bytes32)
    (currentHeight : UInt32) : Bool :=
  delegation.delegatePuzzleHash == callerPuzzleHash && delegation.kind.grantsUpdate &&
    !delegation.revoked &&
    delegation.expiresAtHeight.elim true fun expiry => decide (currentHeight < expiry)

structure StoreUpdateAuthority where
  ownerPuzzleHash : Bytes32
  delegations : List WriterDelegation
  currentHeight : UInt32
deriving DecidableEq

def StoreUpdateAuthority.authorizes (authority : StoreUpdateAuthority) (callerPuzzleHash : Bytes32) :
    Bool :=
  if callerPuzzleHash = authority.ownerPuzzleHash then true
  else authority.delegations.any fun delegation =>
    delegation.authorizes callerPuzzleHash authority.currentHeight

/-- The reasons why a delegation authorizes nobody at a height. -/
def WriterDelegation.Inert (delegation : WriterDelegation) (height : UInt32) : Prop :=
  delegation.revoked = true ∨ delegation.kind = .oracle ∨
    ∃ expiry, delegation.expiresAtHeight = some expiry ∧ expiry ≤ height

theorem grantsUpdate_iff (kind : DelegationKind) : kind.grantsUpdate = true ↔ kind ≠ .oracle := by
  cases kind <;> simp [DelegationKind.grantsUpdate]

theorem delegation_authorizes_iff (delegation : WriterDelegation) (caller : Bytes32) (height : UInt32) :
    delegation.authorizes caller height = true ↔
      delegation.delegatePuzzleHash = caller ∧ ¬delegation.Inert height := by
  simp only [WriterDelegation.authorizes, WriterDelegation.Inert, Bool.and_eq_true, beq_iff_eq,
    grantsUpdate_iff, Bool.not_eq_true', not_or, Bool.not_eq_true]
  cases delegation.expiresAtHeight with
  | none => simp [and_comm, and_assoc]
  | some expiry => simp [and_comm, and_left_comm, and_assoc]

theorem authorizes_iff (authority : StoreUpdateAuthority) (caller : Bytes32) :
    authority.authorizes caller = true ↔
      caller = authority.ownerPuzzleHash ∨ ∃ delegation ∈ authority.delegations,
        delegation.delegatePuzzleHash = caller ∧ ¬delegation.Inert authority.currentHeight := by
  rw [StoreUpdateAuthority.authorizes]
  by_cases h : caller = authority.ownerPuzzleHash
  · simp [h]
  · simp [h, delegation_authorizes_iff]

end DigIdentity.Authorities
