import DigIdentity.TreeCrate

namespace DigIdentity.Hashing

open ByteStrings TreeCrate

abbrev Digest32 := Bytes32

class Sha2 where
  digest : Bytes → Digest32

variable [Sha2]

/-- The streaming hasher, as the bytes it has absorbed. -/
structure Sha256 where
  absorbed : Bytes

def Sha256.new : Sha256 := ⟨[]⟩

def Sha256.update (hasher : Sha256) (data : Bytes) : Sha256 := ⟨hasher.absorbed ++ data⟩

def Sha256.finalize (hasher : Sha256) : Digest32 := Sha2.digest hasher.absorbed

def sha256 (data : Bytes) : Digest32 := (Sha256.new.update data).finalize

def leafDomain : UInt8 := 0x01

/-- An empty encoded value denotes an absent slot and hashes to zero, which
the tree reads as no leaf. -/
def hashLeafValue (slotKey : Digest32) (encodedValue : Bytes) : Digest32 :=
  if encodedValue.isEmpty then zero32
  else (((Sha256.new.update [leafDomain]).update slotKey.toList).update encodedValue).finalize

structure Sha256Hasher where
  inner : Sha256

instance : Hasher Sha256Hasher where
  default := ⟨Sha256.new⟩
  writeH256 hasher h := ⟨hasher.inner.update h.toList⟩
  writeByte hasher b := ⟨hasher.inner.update [b]⟩
  finish hasher := hasher.inner.finalize

def leafPreimage (slotKey : Digest32) (encodedValue : Bytes) : Bytes :=
  leafDomain :: (slotKey.toList ++ encodedValue)

theorem hashLeafValue_nil (slotKey : Digest32) : hashLeafValue slotKey [] = zero32 := rfl

theorem hashLeafValue_eq {encodedValue : Bytes} (h : encodedValue ≠ []) (slotKey : Digest32) :
    hashLeafValue slotKey encodedValue = sha256 (leafPreimage slotKey encodedValue) := by
  simp [hashLeafValue, h, sha256, Sha256.new, Sha256.update, Sha256.finalize, leafPreimage]

omit [Sha2] in
theorem leafPreimage_inj {k l : Digest32} {x y : Bytes} (h : leafPreimage k x = leafPreimage l y) :
    k = l ∧ x = y :=
  vector_append_inj (List.cons_inj_right leafDomain |>.mp h)

/-- On inputs without collisions a leaf digest determines the blob it was made
from, an absent slot's empty blob included. -/
theorem hashLeafValue_inj {inputs : List Bytes} (hf : CollisionFree sha256 inputs) {k : Digest32}
    {x y : Bytes} (hx : x ≠ [] → leafPreimage k x ∈ inputs) (hy : y ≠ [] → leafPreimage k y ∈ inputs)
    (h : hashLeafValue k x = hashLeafValue k y) : x = y := by
  by_cases hx0 : x = [] <;> by_cases hy0 : y = []
  · rw [hx0, hy0]
  · rw [hx0, hashLeafValue_nil, hashLeafValue_eq hy0] at h
    exact absurd h.symm (hf.nonzero _ (hy hy0))
  · rw [hy0, hashLeafValue_nil, hashLeafValue_eq hx0] at h
    exact absurd h (hf.nonzero _ (hx hx0))
  · rw [hashLeafValue_eq hx0, hashLeafValue_eq hy0] at h
    exact (leafPreimage_inj (hf.injective _ (hx hx0) _ (hy hy0) h)).2

end DigIdentity.Hashing
