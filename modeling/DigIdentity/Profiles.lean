import DigIdentity.Trees
import DigIdentity.XchAddresses

namespace DigIdentity.Profiles

open ByteStrings Fallible Hashing Errors Slots Values Trees Addresses XchAddresses

structure DidKeys where
  blsG1PublicKey : Option (Vector UInt8 48)
  peerId : Option Bytes32
  keyEpoch : Option UInt32
deriving DecidableEq

/-- An ordered map, iterated in slot order. -/
structure Profile where
  slots : Std.ExtTreeMap SlotId Value
deriving DecidableEq

namespace Profile

def new : Profile := ⟨∅⟩

def set (p : Profile) (slot : SlotId) (value : Value) : Profile := ⟨p.slots.insert slot value⟩

def withSchemaV2 : Profile := new.set standard.schemaVersion (.u16 standard.schemaVersionV2)

def get (p : Profile) (slot : SlotId) : Option Value := p.slots[slot]?

def utf8 (p : Profile) (slot : SlotId) : Option String :=
  match p.get slot with
  | some (.utf8 s) => some s
  | _ => none

def schemaVersion (p : Profile) : Option UInt16 :=
  match p.get standard.schemaVersion with
  | some (.u16 v) => some v
  | _ => none

def displayName (p : Profile) : Option String := p.utf8 standard.displayName

def bio (p : Profile) : Option String := p.utf8 standard.bio

def xchAddress [AddressCodec] (p : Profile) : Option String := do
  let raw ← p.utf8 standard.xchAddress
  if isValidXchAddress raw then some raw else none

/-- A byte slot of exactly `n` bytes; any other width reads as absent. -/
def bytesOf (p : Profile) (n : Nat) (slot : SlotId) : Option (Vector UInt8 n) :=
  match p.get slot with
  | some (.bytes b) => if h : b.length = n then some ⟨b.toArray, by simp [h]⟩ else none
  | _ => none

def bytes32 (p : Profile) (slot : SlotId) : Option (Vector UInt8 32) := p.bytesOf 32 slot

def bytes48 (p : Profile) (slot : SlotId) : Option (Vector UInt8 48) := p.bytesOf 48 slot

def resolveKeys (p : Profile) : DidKeys where
  blsG1PublicKey := p.bytes48 standard.blsG1PublicKey
  peerId := p.bytes32 standard.peerId
  keyEpoch :=
    match p.get standard.keyEpoch with
    | some (.u32 v) => some v
    | _ => none

variable [Sha2] [SmtCrate]

def buildTree (p : Profile) : Except Error ProfileTree :=
  p.slots.toList.foldlM (fun tree entry => tree.set entry.1 entry.2) ProfileTree.new

def buildRoot (p : Profile) : Except Error Digest32 := do
  return (← p.buildTree).root

end Profile

@[ext] theorem Profile.ext_get {p q : Profile} (h : ∀ slot, p.get slot = q.get slot) : p = q := by
  cases p; cases q
  exact congrArg Profile.mk (Std.ExtTreeMap.ext_getElem? h)

theorem Profile.get_set (p : Profile) (slot s : SlotId) (value : Value) :
    (p.set slot value).get s = if s = slot then some value else p.get s := by
  simp only [Profile.get, Profile.set, Std.ExtTreeMap.getElem?_insert, Std.LawfulEqOrd.compare_eq_iff_eq]
  by_cases h : slot = s
  · simp [h]
  · simp [h, Ne.symm h]

theorem Profile.bytesOf_eq_some_iff {p : Profile} {n : Nat} {slot : SlotId} {k : Vector UInt8 n} :
    p.bytesOf n slot = some k ↔ p.get slot = some (.bytes k.toList) := by
  unfold Profile.bytesOf
  rcases p.get slot with _ | (_ | b | _ | _ | _)
  case some.bytes =>
    by_cases h : b.length = n
    · simp only [h, dite_true, Option.some.injEq, Value.bytes.injEq]
      constructor
      · intro he
        simp [← he]
      · rintro rfl
        exact Vector.toArray_inj.mp Array.toArray_toList
    · simp only [h, dite_false, Option.some.injEq, Value.bytes.injEq, reduceCtorEq, false_iff]
      rintro rfl
      exact h (by simp)
  all_goals simp

theorem Profile.buildRoot_eq_ok [Sha2] [SmtCrate] {p : Profile} {root : Digest32} :
    p.buildRoot = .ok root ↔ ∃ tree, p.buildTree = .ok tree ∧ tree.root = root := by
  simp [Profile.buildRoot, bind_eq_ok]

end DigIdentity.Profiles
