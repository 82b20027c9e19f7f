import DigIdentity.TreeHistories
import DigIdentity.ValueCodec

namespace DigIdentity.ProfileReadback

open ByteStrings Fallible TreeCrate Hashing Errors Slots Values Trees Profiles TreeRefinement
  TreeHistories ValueCodec

section Readback

/-- The four bytes behind the tag of an encoding, as a number. -/
def lengthPrefix (v : Value) : Nat := ofBe ((v.encode.drop 1).take 4)

theorem lengthPrefix_eq (v : Value) : lengthPrefix v = (payload v).length % 2 ^ 32 := by
  have hl : (toBe 4 ((payload v).length % 2 ^ 32)).length = 4 := toBe_length ..
  rw [lengthPrefix, encode_eq, List.drop_one, List.tail_cons, List.take_left' hl, ofBe_toBe]
  exact Nat.mod_mod ..

theorem lengthPrefix_eq_iff (v : Value) :
    lengthPrefix v = (payload v).length ↔ (payload v).length < 2 ^ 32 := by
  rw [lengthPrefix_eq]
  omega

variable [Sha2] [SmtCrate] {p : Profile} {tree : ProfileTree} {slot : SlotId}

theorem get_buildTree (hd : crate.Documented) (ht : p.buildTree = .ok tree)
    (hf : CollisionFree sha256 (hashed (profileOps p) ++ [slot.preimage])) :
    tree.get slot = decodeContent ((p.get slot).map Value.encode) :=
  get_of_getEncoded
    (getEncoded_buildTree hf hd ht (List.subset_append_left ..) (by simp))

theorem get_absent (hd : crate.Documented) (ht : p.buildTree = .ok tree)
    (hf : CollisionFree sha256 (hashed (profileOps p) ++ [slot.preimage])) (hv : p.get slot = none) :
    tree.get slot = .ok none := by
  rw [get_buildTree hd ht hf, hv]
  rfl

theorem get_present (hd : crate.Documented) (ht : p.buildTree = .ok tree)
    (hf : CollisionFree sha256 (hashed (profileOps p) ++ [slot.preimage])) {value : Value}
    (hv : p.get slot = some value) :
    tree.get slot =
      if (payload value).length < 2 ^ 32 then .ok (some value)
      else .error (.lengthMismatch ((payload value).length % 2 ^ 32) (payload value).length) := by
  rw [get_buildTree hd ht hf, hv, Option.map_some, decodeContent, decode_encode]
  by_cases hlt : (payload value).length < 2 ^ 32
  · rw [if_pos hlt, if_pos hlt]
    rfl
  · rw [if_neg hlt, if_neg hlt]
    rfl

/-- Whatever a tree holds, no reader gets a value out of it whose length does not
fit the length field. -/
theorem short_of_get {value : Value} (h : tree.get slot = .ok (some value)) :
    (payload value).length < 2 ^ 32 := by
  cases hg : tree.getEncoded slot with
  | error e => simp [ProfileTree.get, hg] at h
  | ok content =>
      rw [get_of_getEncoded hg] at h
      cases content with
      | none => simp [decodeContent] at h
      | some blob =>
          cases hb : Value.decode blob with
          | error e => simp [decodeContent, hb] at h
          | ok v =>
              have hv : v = value := by simpa [decodeContent, hb] using h
              exact hv ▸ ((decode_eq_ok_iff blob v).mp hb).2

theorem get_eq_iff (hd : crate.Documented) (ht : p.buildTree = .ok tree)
    (hf : CollisionFree sha256 (hashed (profileOps p) ++ [slot.preimage])) :
    tree.get slot = .ok (p.get slot) ↔
      ∀ value, p.get slot = some value → (payload value).length < 2 ^ 32 := by
  constructor
  · intro h value hv
    exact short_of_get (h.trans (congrArg Except.ok hv))
  · intro h
    cases hv : p.get slot with
    | none => exact get_absent hd ht hf hv
    | some value => rw [get_present hd ht hf hv, if_pos (h value hv)]

end Readback

/-- A committed profile reads back exactly when every payload is shorter than
2^32 bytes, which is when the length field of its encoding is its length. -/
theorem readback_iff_short [Sha2] [SmtCrate] (hd : crate.Documented) {p : Profile} {tree : ProfileTree}
    (ht : p.buildTree = .ok tree) :
    ((∀ slot : SlotId, CollisionFree sha256 (hashed (profileOps p) ++ [slot.preimage])) →
      ((∀ slot, tree.get slot = .ok (p.get slot)) ↔
        ∀ slot value, p.get slot = some value → (payload value).length < 2 ^ 32)) ∧
    (∀ slot : SlotId, CollisionFree sha256 (hashed (profileOps p) ++ [slot.preimage]) →
      (tree.get slot = .ok (p.get slot) ↔
        ∀ value, p.get slot = some value → (payload value).length < 2 ^ 32)) ∧
    (∀ slot value, p.get slot = some value →
      (lengthPrefix value = (payload value).length ↔ (payload value).length < 2 ^ 32)) := by
  refine ⟨?_, fun slot => get_eq_iff hd ht, fun _ value _ => lengthPrefix_eq_iff value⟩
  intro hf
  apply forall_congr'
  intro slot
  exact get_eq_iff hd ht (hf slot)

section Sample

open References

theorem sampleProfile_readback :
    letI := crateOf []
    let tree : ProfileTree := ⟨built (profileOps sampleProfile)⟩
    tree.get standard.displayName = .ok (some (.utf8 "Ada")) ∧ tree.get standard.bio = .ok none ∧
      lengthPrefix (.utf8 "Ada") = 3 := by
  let _ := crateOf []
  obtain ⟨_, hslots, hlength⟩ := readback_iff_short (documented []) (buildTree_built [] sampleProfile)
  have hname : sampleProfile.get standard.displayName = some (.utf8 "Ada") := by decide +kernel
  have hbio : sampleProfile.get standard.bio = none := by decide +kernel
  have hshort : (payload (.utf8 "Ada")).length < 2 ^ 32 := by decide +kernel
  refine ⟨?_, ?_, (hlength _ _ hname).mpr hshort⟩
  · rw [← hname]
    exact (hslots _ (by decide +kernel)).mpr (by simpa [hname] using hshort)
  · rw [← hbio]
    exact (hslots _ (by decide +kernel)).mpr (by simp [hbio])

/-- A byte string of 2^32 zeros: the shortest kind of value whose length wraps. -/
def hugeValue : Value := .bytes (List.replicate (2 ^ 32) 0)

def hugeProfile : Profile := Profile.new.set standard.bio hugeValue

theorem hugeProfile_get : hugeProfile.get standard.bio = some hugeValue := by
  rw [hugeProfile, Profile.get_set, if_pos rfl]

theorem hugeValue_length : (payload hugeValue).length = 2 ^ 32 :=
  List.length_replicate

theorem hugeProfile_unreadable :
    letI := crateOf []
    let tree : ProfileTree := ⟨built (profileOps hugeProfile)⟩
    hugeProfile.buildTree = .ok tree ∧ hugeProfile.get standard.bio = some hugeValue ∧
      tree.get standard.bio ≠ .ok (hugeProfile.get standard.bio) ∧
      (CollisionFree sha256 (hashed (profileOps hugeProfile) ++ [standard.bio.preimage]) →
        tree.get standard.bio = .error (.lengthMismatch 0 (2 ^ 32))) ∧
      lengthPrefix hugeValue = 0 ∧ (payload hugeValue).length = 2 ^ 32 := by
  let _ := crateOf []
  have hlong : ¬(payload hugeValue).length < 2 ^ 32 := by rw [hugeValue_length]; exact Nat.lt_irrefl _
  refine ⟨buildTree_built [] hugeProfile, hugeProfile_get, ?_, ?_, ?_, hugeValue_length⟩
  · intro h
    exact hlong (short_of_get (h.trans (congrArg Except.ok hugeProfile_get)))
  · intro hf
    rw [get_present (documented []) (buildTree_built [] hugeProfile) hf hugeProfile_get, if_neg hlong,
      hugeValue_length, Nat.mod_self]
  · rw [lengthPrefix_eq, hugeValue_length, Nat.mod_self]

end Sample

end DigIdentity.ProfileReadback
