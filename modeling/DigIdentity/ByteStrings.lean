import Mathlib

namespace DigIdentity.ByteStrings

abbrev Bytes := List UInt8

abbrev Bytes32 := Vector UInt8 32

def zero32 : Bytes32 := Vector.replicate 32 0

/-- The low `w` bytes of a number, most significant first. -/
def toBe : Nat → Nat → Bytes
  | 0, _ => []
  | w + 1, n => toBe w (n / 256) ++ [UInt8.ofNat n]

def ofBe (bytes : Bytes) : Nat := bytes.foldl (fun n b => n * 256 + b.toNat) 0

def ofLe (bytes : Bytes) : Nat := ofBe bytes.reverse

@[simp] theorem toBe_length (w n : Nat) : (toBe w n).length = w := by
  induction w generalizing n with
  | zero => rfl
  | succ w ih => simp [toBe, ih]

theorem ofBe_snoc (bytes : Bytes) (b : UInt8) : ofBe (bytes ++ [b]) = ofBe bytes * 256 + b.toNat := by
  simp [ofBe]

theorem ofBe_toBe (w n : Nat) : ofBe (toBe w n) = n % 256 ^ w := by
  induction w generalizing n with
  | zero => simp [toBe, ofBe, Nat.mod_one]
  | succ w ih =>
      have hb : (UInt8.ofNat n).toNat = n % 256 := UInt8.toNat_ofNat'
      rw [toBe, ofBe_snoc, ih, hb, Nat.pow_succ', Nat.mod_mul]
      omega

/-- Fixed-width numerals are read back, so they are injective below their bound. -/
theorem toBe_inj {w m n : Nat} (hm : m < 256 ^ w) (hn : n < 256 ^ w) (h : toBe w m = toBe w n) :
    m = n := by
  have he := congrArg ofBe h
  rwa [ofBe_toBe, ofBe_toBe, Nat.mod_eq_of_lt hm, Nat.mod_eq_of_lt hn] at he

theorem toBe_ofBe (bytes : Bytes) : toBe bytes.length (ofBe bytes) = bytes := by
  induction bytes using List.reverseRecOn with
  | nil => rfl
  | append_singleton bytes b ih =>
      have hd : (ofBe bytes * 256 + b.toNat) / 256 = ofBe bytes := by
        have := b.toNat_lt
        omega
      have hb : UInt8.ofNat (ofBe bytes * 256 + b.toNat) = b := by
        apply UInt8.toNat_inj.mp
        have := b.toNat_lt
        rw [UInt8.toNat_ofNat']
        omega
      rw [ofBe_snoc, List.length_append, List.length_singleton, toBe, hd, hb, ih]

theorem ofBe_lt (bytes : Bytes) : ofBe bytes < 256 ^ bytes.length := by
  have h := ofBe_toBe bytes.length (ofBe bytes)
  rw [toBe_ofBe] at h
  rw [h]
  exact Nat.mod_lt _ (Nat.pow_pos (by decide))

theorem ofBe_mod {w : Nat} {bytes : Bytes} (hw : bytes.length = w) : ofBe bytes % 256 ^ w = ofBe bytes :=
  Nat.mod_eq_of_lt (hw ▸ ofBe_lt bytes)

theorem toBe_eq_iff {w n : Nat} {bytes : Bytes} (hw : bytes.length = w) (hn : n < 256 ^ w) :
    toBe w n = bytes ↔ ofBe bytes = n := by
  constructor
  · rintro rfl
    rw [ofBe_toBe, Nat.mod_eq_of_lt hn]
  · rintro rfl
    rw [← hw, toBe_ofBe]

theorem vector_append_inj {n : Nat} {u v : Vector UInt8 n} {xs ys : Bytes}
    (h : u.toList ++ xs = v.toList ++ ys) : u = v ∧ xs = ys := by
  obtain ⟨hu, hx⟩ := List.append_inj h (by simp)
  exact ⟨Vector.toList_inj.mp hu, hx⟩

/-- A hash without collisions on the listed inputs, none of which it sends to
the all-zero digest. A hash into 32 bytes satisfies this only of the inputs
that are really hashed, never of all strings. -/
structure CollisionFree (hash : Bytes → Bytes32) (inputs : List Bytes) : Prop where
  injective : ∀ x ∈ inputs, ∀ y ∈ inputs, hash x = hash y → x = y
  nonzero : ∀ x ∈ inputs, hash x ≠ zero32

namespace CollisionFree

variable {hash : Bytes → Bytes32} {inputs fewer : List Bytes}

theorem mono (h : CollisionFree hash inputs) (hs : fewer ⊆ inputs) : CollisionFree hash fewer :=
  ⟨fun x hx y hy => h.injective x (hs hx) y (hs hy), fun x hx => h.nonzero x (hs hx)⟩

theorem mono_append {common : List Bytes} (h : CollisionFree hash (common ++ inputs))
    (hs : fewer ⊆ inputs) : CollisionFree hash (common ++ fewer) := by
  apply h.mono
  rw [List.append_subset]
  exact ⟨List.subset_append_left .., List.subset_append_of_subset_right _ hs⟩

theorem iff_nodup_digests :
    CollisionFree hash inputs ↔
      (inputs.dedup.map hash).Nodup ∧ zero32 ∉ inputs.dedup.map hash := by
  rw [List.nodup_map_iff_inj_on inputs.nodup_dedup, List.mem_map]
  simp only [List.mem_dedup, not_exists, not_and]
  exact ⟨fun h => ⟨h.injective, h.nonzero⟩, fun h => ⟨h.1, h.2⟩⟩

instance : Decidable (CollisionFree hash inputs) := decidable_of_iff' _ iff_nodup_digests

end CollisionFree

end DigIdentity.ByteStrings
