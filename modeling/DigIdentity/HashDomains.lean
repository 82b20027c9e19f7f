import DigIdentity.References
import DigIdentity.ValueCodec

namespace DigIdentity.HashDomains

open ByteStrings TreeCrate MerkleProgram Hashing Slots Values ValueCodec

/-- What the tree feeds the node hasher, flattened. -/
def fedBytes (fed : List (UInt8 ⊕ H256)) : Bytes := fed.flatMap fun b => b.elim ([·]) Vector.toList

/-- A branch node: the prefix of a normal merge, the height, the node's key and
the digests of its children. -/
def mergeNormal (height : UInt8) (nodeKey lhs rhs : H256) : List (UInt8 ⊕ H256) :=
  [.inl 0x01, .inl height, .inr nodeKey, .inr lhs, .inr rhs]

/-- A merge with an empty sibling has a prefix of its own. -/
def mergeZeros (rest : List (UInt8 ⊕ H256)) : List (UInt8 ⊕ H256) := .inl 0x02 :: rest

theorem fedBytes_cons (b : UInt8 ⊕ H256) (fed : List (UInt8 ⊕ H256)) :
    fedBytes (b :: fed) = b.elim ([·]) Vector.toList ++ fedBytes fed := rfl

section Hasher

variable [Sha2]

theorem absorbed_foldl (fed : List (UInt8 ⊕ H256)) (h : Sha256Hasher) :
    (fed.foldl (fun h b => b.elim (Hasher.writeByte h) (Hasher.writeH256 h)) h).inner.absorbed =
      h.inner.absorbed ++ fedBytes fed := by
  induction fed generalizing h with
  | nil => simp [fedBytes]
  | cons b fed ih =>
      rw [List.foldl_cons, ih, fedBytes_cons, ← List.append_assoc]
      cases b with
      | inl byte => rfl
      | inr digest => rfl

/-- The node hasher is the flat digest of all that it was fed. -/
theorem digestOf_sha256Hasher (fed : List (UInt8 ⊕ H256)) :
    digestOf Sha256Hasher fed = sha256 (fedBytes fed) := by
  have h := absorbed_foldl fed Hasher.default
  have hnew : (Hasher.default : Sha256Hasher).inner.absorbed = [] := rfl
  rw [hnew, List.nil_append] at h
  rw [sha256, Sha256.update, Sha256.finalize, Sha256.new, List.nil_append, ← h]
  rfl

end Hasher

section Preimages

variable {slot : SlotId} {k : Digest32} {blob : Bytes} {v : Value} {height : UInt8}
  {nodeKey lhs rhs : H256} {rest : List (UInt8 ⊕ H256)}

theorem fedBytes_mergeNormal :
    fedBytes (mergeNormal height nodeKey lhs rhs) =
      0x01 :: ((height :: nodeKey.toList) ++ (lhs.toList ++ rhs.toList)) := by
  simp [fedBytes, mergeNormal]

theorem head_preimage : slot.preimage.head? = some 0x64 := by
  have hd : slotKeyDomain.head? = some 0x64 := by decide +kernel
  rw [SlotId.preimage, List.head?_append, hd]
  rfl

/-- A slot's preimage starts with the domain string. -/
theorem preimage_ne {bytes : Bytes} (h : bytes.head? ≠ some 0x64) : slot.preimage ≠ bytes := by
  rintro rfl
  exact h head_preimage

theorem leafPreimage_ne_mergeZeros : leafPreimage k blob ≠ fedBytes (mergeZeros rest) := by
  simp [leafPreimage, leafDomain, fedBytes, mergeZeros]

/-- The key and the tag fill the height and the node's key, so the length and
the payload fill the two digests: the payload has 60 bytes. -/
theorem leafPreimage_eq_mergeNormal_iff :
    leafPreimage k v.encode = fedBytes (mergeNormal height nodeKey lhs rhs) ↔
      k.toList ++ [v.tagAndPayload.1.toByte] = height :: nodeKey.toList ∧
        [0, 0, 0, 60] ++ payload v = lhs.toList ++ rhs.toList := by
  have hleaf : leafPreimage k v.encode = 0x01 :: ((k.toList ++ [v.tagAndPayload.1.toByte]) ++
      (toBe 4 ((payload v).length % 2 ^ 32) ++ payload v)) := by
    simp [leafPreimage, leafDomain, encode_eq]
  rw [hleaf, fedBytes_mergeNormal, List.cons.injEq, eq_self, true_and]
  constructor
  · intro h
    obtain ⟨hkey, hpayload⟩ := List.append_inj h (by simp)
    have hlen : (payload v).length = 60 := by
      have hcount := congrArg List.length hpayload
      simp only [List.length_append, toBe_length, Vector.length_toList] at hcount
      omega
    rw [hlen] at hpayload
    exact ⟨hkey, hpayload⟩
  · rintro ⟨hkey, hpayload⟩
    have hlen : (payload v).length = 60 := by
      have hcount := congrArg List.length hpayload
      simp only [List.length_append, List.length_cons, List.length_nil, Vector.length_toList] at hcount
      omega
    rw [hkey, hlen]
    exact congrArg _ hpayload

end Preimages

/-- Of the digests in a tree, those of slot keys, of leaves and of branch nodes,
which can agree. A leaf is told from every other leaf, no key is a leaf or a
node, and a leaf is a branch node only where the slot's key and the tag spell
the height and the node's key, and a 60-byte payload behind its length spells
the children. -/
theorem hash_domains_are_separate [Sha2] {s t : SlotId} {v w : Value} {height : UInt8}
    {nodeKey lhs rhs : H256} {rest : List (UInt8 ⊕ H256)}
    (hf : CollisionFree sha256 [s.preimage, t.preimage, leafPreimage s.key v.encode,
      leafPreimage t.key w.encode, fedBytes (mergeNormal height nodeKey lhs rhs),
      fedBytes (mergeZeros rest)]) :
    (hashLeafValue s.key v.encode = hashLeafValue t.key w.encode ↔ s = t ∧ v = w) ∧
    (s.key ≠ hashLeafValue t.key w.encode ∧
      s.key ≠ digestOf Sha256Hasher (mergeNormal height nodeKey lhs rhs) ∧
      s.key ≠ digestOf Sha256Hasher (mergeZeros rest)) ∧
    hashLeafValue s.key v.encode ≠ digestOf Sha256Hasher (mergeZeros rest) ∧
    (hashLeafValue s.key v.encode = digestOf Sha256Hasher (mergeNormal height nodeKey lhs rhs) ↔
      s.key.toList ++ [v.tagAndPayload.1.toByte] = height :: nodeKey.toList ∧
        [0, 0, 0, 60] ++ payload v = lhs.toList ++ rhs.toList) := by
  rw [digestOf_sha256Hasher, digestOf_sha256Hasher, hashLeafValue_eq (encode_ne_nil v),
    hashLeafValue_eq (encode_ne_nil w)]
  have hinj {x y : Bytes} (hx : x ∈ _) (hy : y ∈ _) : sha256 x = sha256 y ↔ x = y :=
    ⟨hf.injective x hx y hy, fun h => congrArg sha256 h⟩
  refine ⟨?_, ⟨?_, ?_, ?_⟩, ?_, ?_⟩
  · rw [hinj (by simp) (by simp)]
    constructor
    · intro h
      obtain ⟨hkey, hencode⟩ := leafPreimage_inj h
      exact ⟨key_inj hf (by simp) (by simp) hkey, encode_inj hencode⟩
    · rintro ⟨rfl, rfl⟩
      rfl
  · exact fun h => preimage_ne (by simp [leafPreimage, leafDomain]) ((hinj (by simp) (by simp)).mp h)
  · exact fun h => preimage_ne (by simp [fedBytes_mergeNormal]) ((hinj (by simp) (by simp)).mp h)
  · exact fun h => preimage_ne (by simp [fedBytes, mergeZeros]) ((hinj (by simp) (by simp)).mp h)
  · exact fun h => leafPreimage_ne_mergeZeros ((hinj (by simp) (by simp)).mp h)
  · rw [hinj (by simp) (by simp), leafPreimage_eq_mergeNormal_iff]

section Sample

open References

/-- The slot's key without its first byte, and the tag of a byte string. -/
def overlappingKey (slot : SlotId) : H256 := ⟨(slot.key.toList.tail ++ [0x02]).toArray, by simp⟩

def lengthAndZeros : H256 := zero32.set 3 60

/-- A name is not the node beside it, but sixty zero bytes at the slot are the
node that was made up of the slot's key. -/
theorem displayName_separate :
    standard.displayName.key ≠ hashLeafValue standard.bio.key (Value.utf8 "hi").encode ∧
      hashLeafValue standard.displayName.key (Value.utf8 "Ada").encode ≠
        digestOf Sha256Hasher (mergeNormal 0 standard.bio.key zero32 zero32) ∧
      hashLeafValue standard.displayName.key (Value.bytes (List.replicate 60 0)).encode =
        digestOf Sha256Hasher (mergeNormal (standard.displayName.key.get 0)
          (overlappingKey standard.displayName) lengthAndZeros zero32) := by
  have hname : CollisionFree sha256 [standard.displayName.preimage, standard.bio.preimage,
      leafPreimage standard.displayName.key (Value.utf8 "Ada").encode,
      leafPreimage standard.bio.key (Value.utf8 "hi").encode,
      fedBytes (mergeNormal 0 standard.bio.key zero32 zero32), fedBytes (mergeZeros [])] := by
    decide +kernel
  have hzeros : CollisionFree sha256 [standard.displayName.preimage, standard.bio.preimage,
      leafPreimage standard.displayName.key (Value.bytes (List.replicate 60 0)).encode,
      leafPreimage standard.bio.key (Value.utf8 "hi").encode,
      fedBytes (mergeNormal (standard.displayName.key.get 0) (overlappingKey standard.displayName)
        lengthAndZeros zero32), fedBytes (mergeZeros [])] := by
    decide +kernel
  obtain ⟨_, ⟨hkey, _⟩, _, hnode⟩ := hash_domains_are_separate hname
  obtain ⟨_, _, _, hoverlap⟩ := hash_domains_are_separate hzeros
  refine ⟨hkey, fun h => ?_, hoverlap.mpr (by decide +kernel)⟩
  exact absurd (hnode.mp h).2 (by decide +kernel)

end Sample

end DigIdentity.HashDomains
