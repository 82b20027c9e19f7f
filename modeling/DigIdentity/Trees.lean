import DigIdentity.Slots
import DigIdentity.Values

namespace DigIdentity.Trees

open ByteStrings TreeCrate Hashing Errors Slots Values

structure LeafValue where
  slotKey : Digest32
  encoded : Bytes
deriving DecidableEq

instance [Sha2] : SmtValue LeafValue where
  toH256 leaf := hashLeafValue leaf.slotKey leaf.encoded
  zero := ⟨zero32, []⟩

/-- The sparse merkle tree crate at this repository's hasher and leaf type. -/
class SmtCrate [Sha2] where
  crate : SparseMerkleTree Sha256Hasher LeafValue

export SmtCrate (crate)

variable [Sha2] [SmtCrate]

structure ProfileProof where
  bytes : Bytes
deriving DecidableEq

structure ProfileTree where
  smt : crate.Tree

def smtError (e : crate.Error) : Error := .smt (crate.describe e)

def ProfileTree.new : ProfileTree := ⟨crate.new⟩

def ProfileTree.setEncoded (tree : ProfileTree) (slot : SlotId) (encoded : Bytes) :
    Except Error ProfileTree := do
  let slotKey := slot.key
  let smt ← (crate.update tree.smt slotKey ⟨slotKey, encoded⟩).mapError smtError
  return ⟨smt⟩

def ProfileTree.set (tree : ProfileTree) (slot : SlotId) (value : Value) : Except Error ProfileTree :=
  tree.setEncoded slot value.encode

def ProfileTree.remove (tree : ProfileTree) (slot : SlotId) : Except Error ProfileTree :=
  tree.setEncoded slot []

def ProfileTree.getEncoded (tree : ProfileTree) (slot : SlotId) : Except Error (Option Bytes) := do
  let leaf ← (crate.get tree.smt slot.key).mapError smtError
  return if leaf.encoded.isEmpty then none else some leaf.encoded

def ProfileTree.get (tree : ProfileTree) (slot : SlotId) : Except Error (Option Value) := do
  match ← tree.getEncoded slot with
  | some bytes => (Value.decode bytes).map some
  | none => return none

def ProfileTree.root (tree : ProfileTree) : Digest32 := crate.root tree.smt

def ProfileTree.prove (tree : ProfileTree) (slot : SlotId) : Except Error ProfileProof := do
  let key := slot.key
  let proof ← (crate.merkleProof tree.smt [key]).mapError smtError
  let compiled ← (crate.compile proof [key]).mapError smtError
  return ⟨compiled⟩

/-- The format directive for a 16-bit id: four lower-case hex digits. -/
def hex4 (id : UInt16) : String :=
  String.ofList ([12, 8, 4, 0].map fun shift => Nat.digitChar (id.toNat / 2 ^ shift % 16))

def absentSlot (slot : SlotId) : Error :=
  .smt ("slot 0x" ++ hex4 slot.id ++ " is absent; use prove_non_membership")

def presentSlot (slot : SlotId) : Error :=
  .smt ("slot 0x" ++ hex4 slot.id ++ " is present; use prove_membership")

def ProfileTree.proveMembership (tree : ProfileTree) (slot : SlotId) : Except Error ProfileProof := do
  if (← tree.getEncoded slot).isNone then throw (absentSlot slot)
  tree.prove slot

def ProfileTree.proveNonMembership (tree : ProfileTree) (slot : SlotId) :
    Except Error ProfileProof := do
  if (← tree.getEncoded slot).isSome then throw (presentSlot slot)
  tree.prove slot

theorem proveMembership_of_getEncoded {tree : ProfileTree} {slot : SlotId} {content : Option Bytes}
    (h : tree.getEncoded slot = .ok content) :
    tree.proveMembership slot =
      if content.isSome then tree.prove slot else .error (absentSlot slot) := by
  rw [ProfileTree.proveMembership, h]
  cases content <;> rfl

theorem proveNonMembership_of_getEncoded {tree : ProfileTree} {slot : SlotId} {content : Option Bytes}
    (h : tree.getEncoded slot = .ok content) :
    tree.proveNonMembership slot =
      if content.isSome then .error (presentSlot slot) else tree.prove slot := by
  rw [ProfileTree.proveNonMembership, h]
  cases content <;> rfl

def verifyLeaf (root : Digest32) (slot : SlotId) (leafHash : Digest32) (proof : ProfileProof) :
    Except Error Bool :=
  (crate.verify proof.bytes root [(slot.key, leafHash)]).mapError smtError

def verifyMembership (root : Digest32) (slot : SlotId) (value : Value) (proof : ProfileProof) :
    Except Error Bool :=
  verifyLeaf root slot (hashLeafValue slot.key value.encode) proof

def verifyNonMembership (root : Digest32) (slot : SlotId) (proof : ProfileProof) : Except Error Bool :=
  verifyLeaf root slot zero32 proof

end DigIdentity.Trees
