import DigIdentity.MerkleProgram

namespace DigIdentity.MerkleCrate

open ByteStrings Fallible TreeCrate SparseMerkle LeafPrograms MerkleProgram

/-- A tree as its map of leaves; a leaf with a zero digest is never stored. -/
structure LeafMap (V : Type) [SmtValue V] where
  leaves : Std.ExtTreeMap Nat V
  bounded : ∀ (k : Nat) (v : V), leaves[k]? = some v → k < 2 ^ 256
  nonzero : ∀ (k : Nat) (v : V), leaves[k]? = some v → SmtValue.toH256 v ≠ zero32

namespace LeafMap

variable {V : Type} [SmtValue V]

def new : LeafMap V := ⟨∅, by simp, by simp⟩

def get (t : LeafMap V) (key : H256) : V := t.leaves[keyNat key]?.getD SmtValue.zero

def update (t : LeafMap V) (key : H256) (v : V) : LeafMap V :=
  if h : SmtValue.toH256 v = zero32 then
    { leaves := t.leaves.erase (keyNat key)
      bounded := fun k w hk => t.bounded k w (by
        rw [Std.ExtTreeMap.getElem?_erase] at hk
        exact (Option.ite_none_left_eq_some.mp hk).2)
      nonzero := fun k w hk => t.nonzero k w (by
        rw [Std.ExtTreeMap.getElem?_erase] at hk
        exact (Option.ite_none_left_eq_some.mp hk).2) }
  else
    { leaves := t.leaves.insert (keyNat key) v
      bounded := fun k w hk => by
        rw [Std.ExtTreeMap.getElem?_insert] at hk
        by_cases he : compare (keyNat key) k = .eq
        · rw [← Std.LawfulEqOrd.compare_eq_iff_eq.mp he]
          exact keyNat_lt key
        · exact t.bounded k w (by simpa [he] using hk)
      nonzero := fun k w hk => by
        rw [Std.ExtTreeMap.getElem?_insert] at hk
        by_cases he : compare (keyNat key) k = .eq
        · have hw : v = w := by simpa [he] using hk
          rwa [← hw]
        · exact t.nonzero k w (by simpa [he] using hk) }

def digests (t : LeafMap V) : Std.ExtTreeMap Nat H256 := t.leaves.map fun _ v => SmtValue.toH256 v

theorem get_update (t : LeafMap V) (key k : H256) (v : V) :
    (t.update key v).get k =
      if k = key then (if SmtValue.toH256 v = zero32 then SmtValue.zero else v) else t.get k := by
  have hk : keyNat key = keyNat k ↔ k = key := ⟨fun h => (keyNat_inj h).symm, fun h => by rw [h]⟩
  by_cases hv : SmtValue.toH256 v = zero32
  · simp only [get, update, hv, dite_true, Std.ExtTreeMap.getElem?_erase,
      Std.LawfulEqOrd.compare_eq_iff_eq, hk]
    by_cases he : k = key <;> simp [he]
  · simp only [get, update, hv, dite_false, Std.ExtTreeMap.getElem?_insert,
      Std.LawfulEqOrd.compare_eq_iff_eq, hk]
    by_cases he : k = key <;> simp [he]

/-- A tree is determined, up to the digests, by the digest read at every key. -/
theorem digests_ext (hz : SmtValue.toH256 (SmtValue.zero : V) = zero32) {t u : LeafMap V}
    (h : ∀ key, SmtValue.toH256 (t.get key) = SmtValue.toH256 (u.get key)) : t.digests = u.digests := by
  have hd (w : LeafMap V) (n : Nat) : w.digests[n]? =
      (if SmtValue.toH256 (w.leaves[n]?.getD SmtValue.zero) = zero32 then none
        else some (SmtValue.toH256 (w.leaves[n]?.getD SmtValue.zero))) := by
    rw [digests, Std.ExtTreeMap.getElem?_map]
    cases hw : w.leaves[n]? with
    | none => simp [hz]
    | some v => simp [w.nonzero n v hw]
  apply Std.ExtTreeMap.ext_getElem?
  intro n
  by_cases hn : n < 2 ^ 256
  · have hk := h (natKey n)
    simp only [get, keyNat_natKey hn] at hk
    rw [hd, hd, hk]
  · have hout (w : LeafMap V) : w.leaves[n]? = none := by
      cases hw : w.leaves[n]? with
      | none => rfl
      | some v => exact absurd (w.bounded n v hw) hn
    rw [hd, hd, hout, hout]

theorem agrees_at_top (t : LeafMap V) (key : H256) :
    ∀ e ∈ t.digests.toList, e.1 >>> 256 = keyNat key >>> 256 := by
  intro e he
  rw [Std.ExtTreeMap.mem_toList_iff_getElem?_eq_some, LeafMap.digests, Std.ExtTreeMap.getElem?_map,
    Option.map_eq_some_iff] at he
  obtain ⟨v, hv, _⟩ := he
  rw [Nat.shiftRight_eq_div_pow, Nat.shiftRight_eq_div_pow, Nat.div_eq_of_lt (t.bounded _ v hv),
    Nat.div_eq_of_lt (keyNat_lt key)]

end LeafMap

section Crate

variable (H V : Type) [Hasher H] [SmtValue V]

def rootNode (t : LeafMap V) : MergeValue := node empty MergeValue.value (merge H) 256 t.digests.toList

def path (t : LeafMap V) (key : H256) : List MergeValue :=
  siblings empty MergeValue.value (merge H) 256 t.digests.toList (keyNat key)

def compile (path : List MergeValue) : Bytes := 0x4C :: (program 0 path).flatMap Op.encode

def verify (proof : Bytes) (root : H256) (leaves : List (H256 × H256)) : Except ProofError Bool := do
  let node ← interpret H proof leaves []
  return decide (root = node.hash H)

/-- An executable crate. Proofs are made for one key at a time. -/
def merkleCrate : SparseMerkleTree H V where
  Tree := LeafMap V
  MerkleProof := List MergeValue
  Error := ProofError
  describe := ProofError.describe
  new := LeafMap.new
  update t key v := .ok (t.update key v)
  get t key := .ok (t.get key)
  root t := (rootNode H V t).hash H
  merkleProof t keys :=
    match keys with
    | [] => .error .emptyKeys
    | [key] => .ok (path H V t key)
    | _ => .error .incorrectNumberOfLeaves
  compile path keys :=
    match keys with
    | [_] => .ok (compile path)
    | _ => .error .incorrectNumberOfLeaves
  verify := verify H

theorem merkleCrate_documented (hz : SmtValue.toH256 (SmtValue.zero : V) = zero32) :
    (merkleCrate H V).Documented where
  get_new key := by simp [merkleCrate, LeafMap.get, LeafMap.new]
  get_update {t t' key v} h k := by
    cases h
    refine (congrArg Except.ok (LeafMap.get_update t key k v)).trans ?_
    by_cases hk : k = key <;> simp [hk, merkleCrate]
  root_new := by
    have hd : (LeafMap.new : LeafMap V).digests.toList = [] := by
      simp [LeafMap.digests, LeafMap.new]
    simp [merkleCrate, rootNode, hd, node, empty, MergeValue.hash]
  root_congr {t u} h := by
    have hd := LeafMap.digests_ext hz (t := t) (u := u) fun key => Except.ok.inj (h key)
    simp [merkleCrate, rootNode, hd]

theorem node_bottom (hz : SmtValue.toH256 (SmtValue.zero : V) = zero32) (t : LeafMap V) (key : H256) :
    node empty MergeValue.value (merge H) 0 (bottom 256 t.digests.toList (keyNat key)) =
      .value (SmtValue.toH256 (t.get key)) := by
  have hmem (k : Nat) (d : H256) : (k, d) ∈ t.digests.toList ↔ ∃ v, t.leaves[k]? = some v ∧
      SmtValue.toH256 v = d := by
    rw [Std.ExtTreeMap.mem_toList_iff_getElem?_eq_some, LeafMap.digests, Std.ExtTreeMap.getElem?_map,
      Option.map_eq_some_iff]
  have ha := t.agrees_at_top key
  cases hb : bottom 256 t.digests.toList (keyNat key) with
  | nil =>
      have hn : t.leaves[keyNat key]? = none := by
        cases hl : t.leaves[keyNat key]? with
        | none => rfl
        | some v =>
            have hm := (mem_bottom ha _).mpr ⟨(hmem _ _).mpr ⟨v, hl, rfl⟩, rfl⟩
            simp [hb] at hm
      simp [node, LeafMap.get, hn, hz, empty]
  | cons e leaves =>
      obtain ⟨hm, hk⟩ := (mem_bottom ha e).mp (by simp [hb])
      obtain ⟨v, hv, hd⟩ := (hmem e.1 e.2).mp hm
      rw [hk] at hv
      simp [node, LeafMap.get, hv, hd]

/-- A program about one leaf starts by putting it down. -/
theorem interpret_leaf (bytes : Bytes) (key digest : H256) :
    interpret H (0x4C :: bytes) [(key, digest)] [] =
      interpret H bytes [] [(0, keyNat key, .value digest)] :=
  interpret_cons

theorem verify_isOk_iff (proof : Bytes) (root : H256) (leaves : List (H256 × H256)) :
    (∃ accepted, verify H proof root leaves = .ok accepted) ↔
      ∃ node, interpret H proof leaves [] = .ok node := by
  rw [verify]
  cases interpret H proof leaves [] <;> simp

/-- The interpreter keeps to the format of the programs about one leaf. -/
theorem merkleCrate_interprets : Interprets (merkleCrate H V) := by
  intro proof root key digest
  refine (verify_isOk_iff H proof root _).trans ?_
  constructor
  · rintro ⟨node, h⟩
    cases proof with
    | nil => cases h
    | cons code bytes =>
        have hstep := h
        rw [interpret_cons] at hstep
        obtain ⟨s, hs, _⟩ := bind_eq_ok.mp hstep
        rcases step_cases hs with ⟨_, _, _, rfl, _, _⟩ | ⟨_, _, _, _, _, _, _, hstack, _⟩ |
          ⟨_, _, _, _, _, _, _, hstack, _⟩
        · rw [interpret_leaf] at h
          exact ⟨bytes, rfl, (interpret_isOk_iff (Nat.zero_le _)).mp ⟨node, h⟩⟩
        · cases hstack
        · cases hstack
  · rintro ⟨bytes, rfl, h⟩
    rw [interpret_leaf]
    exact (interpret_isOk_iff (Nat.zero_le _)).mpr h

theorem merkleCrate_complete (hz : SmtValue.toH256 (SmtValue.zero : V) = zero32) (t : LeafMap V) :
    (merkleCrate H V).Complete t := by
  intro key digest h
  refine ⟨path H V t key, compile (path H V t key), rfl, rfl, ?_⟩
  intro root
  have hdigest : SmtValue.toH256 (t.get key) = digest := Except.ok.inj h
  have hlen : (path H V t key).length = 256 := siblings_length ..
  have hclimb : climb (merge H) (keyNat key) 0 (path H V t key) (.value digest) = rootNode H V t := by
    rw [← hdigest, ← node_bottom H V hz t key]
    exact climb_siblings _ _ _ (merge_empty H) 256 (keyNat key) _ (t.agrees_at_top key)
  have hrun : interpret H ((program 0 (path H V t key)).flatMap Op.encode) []
      [(0, keyNat key, .value digest)] = .ok (rootNode H V t) := by
    rw [interpret_program _ _ _ _ _ (by simpa using hlen), List.replicate_zero, List.nil_append, hclimb]
  change verify H (compile (path H V t key)) root [(key, digest)] = _
  rw [verify, compile, interpret_leaf, hrun]
  rfl

end Crate

end DigIdentity.MerkleCrate
