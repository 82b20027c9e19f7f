import DigIdentity.Hashing

namespace DigIdentity.Slots

open ByteStrings Hashing

structure SlotId where
  id : UInt16
deriving DecidableEq

instance : Ord SlotId := ⟨compareOn SlotId.id⟩

instance : Std.TransOrd SlotId := inferInstanceAs (Std.TransCmp (compareOn SlotId.id))

instance : Std.LawfulEqOrd SlotId where
  eq_of_compare {a b} h := by
    have he : a.id = b.id := Std.LawfulEqOrd.eq_of_compare h
    cases a; cases b; simpa using he

def slotKeyDomain : Bytes := "dig-identity:slot:".toUTF8.data.toList

def SlotId.preimage (slot : SlotId) : Bytes := slotKeyDomain ++ toBe 4 slot.id.toUInt32.toNat

def SlotId.key [Sha2] (slot : SlotId) : Digest32 := sha256 slot.preimage

theorem preimage_inj {s t : SlotId} (h : s.preimage = t.preimage) : s = t := by
  have hn := toBe_inj (by have := s.id.toNat_lt; simp; omega) (by have := t.id.toNat_lt; simp; omega)
    (List.append_cancel_left h)
  cases s; cases t
  simpa [UInt16.toNat_inj] using hn

/-- Distinct slots have distinct keys wherever their preimages do not collide. -/
theorem key_inj [Sha2] {inputs : List Bytes} (hf : CollisionFree sha256 inputs) {s t : SlotId}
    (hs : s.preimage ∈ inputs) (ht : t.preimage ∈ inputs) (h : s.key = t.key) : s = t :=
  preimage_inj (hf.injective _ hs _ ht h)

def SlotId.isFutureStandard (slot : SlotId) : Bool := slot.id ≤ 0x00FF

def SlotId.isEcosystemExtension (slot : SlotId) : Bool := 0x0100 ≤ slot.id && slot.id ≤ 0x0FFF

def SlotId.isCustom (slot : SlotId) : Bool := 0x1000 ≤ slot.id && slot.id ≤ 0xEFFF

def SlotId.isEncryptedReserved (slot : SlotId) : Bool := 0xF000 ≤ slot.id

/-- The four ranges are a partition: every id is in one of them and in no other. -/
theorem one_range (slot : SlotId) :
    slot.isFutureStandard.toNat + slot.isEcosystemExtension.toNat + slot.isCustom.toNat +
      slot.isEncryptedReserved.toNat = 1 := by
  simp only [SlotId.isFutureStandard, SlotId.isEcosystemExtension, SlotId.isCustom,
    SlotId.isEncryptedReserved, UInt16.le_iff_toNat_le, ← Bool.decide_and, UInt16.reduceToNat,
    Bool.toNat, Bool.cond_decide]
  split_ifs <;> omega

namespace standard

def schemaVersion : SlotId := ⟨0x0000⟩
def displayName : SlotId := ⟨0x0001⟩
def bio : SlotId := ⟨0x0002⟩
def xchAddress : SlotId := ⟨0x0008⟩
def blsG1PublicKey : SlotId := ⟨0x0010⟩
def peerId : SlotId := ⟨0x0012⟩
def keyEpoch : SlotId := ⟨0x0013⟩

def schemaVersionV2 : UInt16 := 2

end standard

end DigIdentity.Slots
