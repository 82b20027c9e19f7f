import DigIdentity.Histories
import DigIdentity.Profiles

namespace DigIdentity.TreeRefinement

open ByteStrings Fallible TreeCrate Hashing Errors Slots Values Trees Profiles Histories

inductive TreeOp
  | set (slot : SlotId) (value : Value)
  | setEncoded (slot : SlotId) (encoded : Bytes)
  | remove (slot : SlotId)

def TreeOp.write : TreeOp → SlotId × Bytes
  | .set slot value => (slot, value.encode)
  | .setEncoded slot encoded => (slot, encoded)
  | .remove slot => (slot, [])

/-- The slot map a sequence of operations leaves behind: the last blob written
to the slot, where an empty blob means absent. -/
def contents (ops : List TreeOp) (slot : SlotId) : Option Bytes :=
  (last (ops.map TreeOp.write) slot).filter (fun blob => !blob.isEmpty)

theorem contents_eq_some_iff (ops : List TreeOp) (slot : SlotId) (blob : Bytes) :
    contents ops slot = some blob ↔ last (ops.map TreeOp.write) slot = some blob ∧ blob ≠ [] := by
  simp [contents, Option.filter_eq_some_iff]

/-- The operations by which `build_tree` writes a profile. -/
def profileOps (p : Profile) : List TreeOp := p.slots.toList.map fun entry => .set entry.1 entry.2

theorem mem_profileOps {p : Profile} {slot : SlotId} {blob : Bytes} :
    (slot, blob) ∈ (profileOps p).map TreeOp.write ↔
      ∃ value, p.get slot = some value ∧ blob = value.encode := by
  simp only [profileOps, List.map_map, List.mem_map, Function.comp_apply, TreeOp.write, Prod.exists,
    Std.ExtTreeMap.mem_toList_iff_getElem?_eq_some, Prod.mk.injEq, Profile.get]
  constructor
  · rintro ⟨_, value, hm, rfl, rfl⟩
    exact ⟨value, hm, rfl⟩
  · rintro ⟨value, hm, rfl⟩
    exact ⟨slot, value, hm, rfl, rfl⟩

theorem contents_profileOps (p : Profile) (slot : SlotId) :
    contents (profileOps p) slot = (p.get slot).map Value.encode := by
  have hd : ((profileOps p).map TreeOp.write).Pairwise fun v w => v.1 ≠ w.1 := by
    rw [profileOps, List.map_map, List.pairwise_map]
    apply Std.ExtTreeMap.distinct_keys_toList.imp
    intro v w hvw he
    exact hvw (Std.LawfulEqOrd.compare_eq_iff_eq.mpr he)
  ext blob
  rw [contents_eq_some_iff, last_eq_some_iff hd, mem_profileOps, Option.map_eq_some_iff]
  constructor
  · rintro ⟨⟨value, hv, hb⟩, _⟩
    exact ⟨value, hv, hb.symm⟩
  · rintro ⟨value, hv, rfl⟩
    exact ⟨⟨value, hv, rfl⟩, encode_ne_nil value⟩

variable [Sha2] [SmtCrate]

def TreeOp.apply (tree : ProfileTree) : TreeOp → Except Error ProfileTree
  | .set slot value => tree.set slot value
  | .setEncoded slot encoded => tree.setEncoded slot encoded
  | .remove slot => tree.remove slot

def run (ops : List TreeOp) : Except Error ProfileTree := ops.foldlM TreeOp.apply ProfileTree.new

theorem buildTree_eq_run (p : Profile) : p.buildTree = run (profileOps p) := by
  rw [run, profileOps, List.foldlM_map]
  rfl

theorem run_of_buildTree {p : Profile} {tree : ProfileTree} (h : p.buildTree = .ok tree) :
    run (profileOps p) = .ok tree :=
  (buildTree_eq_run p).symm.trans h

/-- The strings hashed for the keys and the leaves of a history. -/
def hashed (ops : List TreeOp) : List Bytes :=
  (ops.map TreeOp.write).flatMap fun w =>
    w.1.preimage :: if w.2.isEmpty then [] else [leafPreimage w.1.key w.2]

omit [SmtCrate] in
theorem key_mem_hashed {ops : List TreeOp} {slot : SlotId} {blob : Bytes}
    (h : (slot, blob) ∈ ops.map TreeOp.write) : slot.preimage ∈ hashed ops :=
  List.mem_flatMap.mpr ⟨_, h, by simp⟩

omit [SmtCrate] in
theorem leaf_mem_hashed {ops : List TreeOp} {slot : SlotId} {blob : Bytes}
    (h : (slot, blob) ∈ ops.map TreeOp.write) (hb : blob ≠ []) :
    leafPreimage slot.key blob ∈ hashed ops :=
  List.mem_flatMap.mpr ⟨_, h, by simp [hb]⟩

omit [SmtCrate] in
theorem key_mem_profile {p : Profile} {slot : SlotId} (h : p.get slot ≠ none) :
    slot.preimage ∈ hashed (profileOps p) := by
  obtain ⟨value, hv⟩ := Option.ne_none_iff_exists'.mp h
  exact key_mem_hashed (mem_profileOps.mpr ⟨value, hv, rfl⟩)

omit [SmtCrate] in
theorem leaf_mem_profile {p : Profile} {slot : SlotId} {value : Value} (h : p.get slot = some value) :
    leafPreimage slot.key value.encode ∈ hashed (profileOps p) :=
  leaf_mem_hashed (mem_profileOps.mpr ⟨value, h, rfl⟩) (encode_ne_nil value)

def leafWrites (ops : List TreeOp) : List (H256 × Bytes) :=
  (ops.map TreeOp.write).map fun w => (w.1.key, w.2)

/-- The leaf stored at a key by a history, read off the history. -/
def leafAt (ops : List TreeOp) (key : H256) : LeafValue :=
  match last (leafWrites ops) key with
  | none => SmtValue.zero
  | some blob => if hashLeafValue key blob = zero32 then SmtValue.zero else ⟨key, blob⟩

theorem apply_eq_ok {tree tree' : ProfileTree} {op : TreeOp} (h : op.apply tree = .ok tree') :
    crate.update tree.smt op.write.1.key ⟨op.write.1.key, op.write.2⟩ = .ok tree'.smt := by
  have he : op.apply tree = tree.setEncoded op.write.1 op.write.2 := by cases op <;> rfl
  rw [he, ProfileTree.setEncoded, bind_eq_ok] at h
  obtain ⟨smt, hu, hs⟩ := h
  cases hs
  exact mapError_eq_ok.mp hu

theorem run_snoc {ops : List TreeOp} {op : TreeOp} {tree : ProfileTree} :
    run (ops ++ [op]) = .ok tree ↔ ∃ mid, run ops = .ok mid ∧ op.apply mid = .ok tree := by
  simp only [run, List.foldlM_append, List.foldlM_cons, List.foldlM_nil, bind_pure, bind_eq_ok]

/-- What one operation does to the stored leaves is what it does to the
history, so the tree and the history agree after any run. -/
theorem get_run (hd : crate.Documented) {ops : List TreeOp} {tree : ProfileTree}
    (h : run ops = .ok tree) (key : H256) : crate.get tree.smt key = .ok (leafAt ops key) := by
  induction ops using List.reverseRecOn generalizing tree with
  | nil =>
      cases h
      exact hd.get_new key
  | append_singleton ops op ih =>
      obtain ⟨mid, hm, ha⟩ := run_snoc.mp h
      rw [hd.get_update (apply_eq_ok ha) key, leafAt, leafWrites, List.map_append, List.map_append,
        List.map_singleton, List.map_singleton, last_snoc]
      by_cases hk : key = op.write.1.key
      · simp [hk, SmtValue.toH256]
      · simp only [hk, if_false]
        exact ih hm

omit [SmtCrate] in
theorem toH256_zero : SmtValue.toH256 (SmtValue.zero : LeafValue) = zero32 := rfl

theorem leaf_run (hd : crate.Documented) {ops : List TreeOp} {tree : ProfileTree}
    (h : run ops = .ok tree) (key : H256) :
    crate.leaf tree.smt key = .ok (SmtValue.toH256 (leafAt ops key)) := by
  rw [SparseMerkleTree.leaf, get_run hd h key]
  rfl

omit [SmtCrate] in
/-- A stored leaf carries the key it is stored at. -/
theorem toH256_leafAt (ops : List TreeOp) (key : H256) :
    SmtValue.toH256 (leafAt ops key) = hashLeafValue key (leafAt ops key).encoded := by
  unfold leafAt
  cases last (leafWrites ops) key with
  | none => rfl
  | some blob => by_cases hz : hashLeafValue key blob = zero32 <;> simp [hz, SmtValue.toH256,
      SmtValue.zero, hashLeafValue_nil]

theorem getEncoded_eq (hd : crate.Documented) {ops : List TreeOp} {tree : ProfileTree}
    (h : run ops = .ok tree) (slot : SlotId) :
    tree.getEncoded slot = .ok (if (leafAt ops slot.key).encoded.isEmpty then none
      else some (leafAt ops slot.key).encoded) := by
  rw [ProfileTree.getEncoded, get_run hd h]
  rfl

theorem leaf_of_getEncoded (hd : crate.Documented) {ops : List TreeOp} {tree : ProfileTree}
    (h : run ops = .ok tree) {slot : SlotId} {content : Option Bytes}
    (hg : tree.getEncoded slot = .ok content) :
    crate.leaf tree.smt slot.key = .ok (hashLeafValue slot.key (content.getD [])) := by
  rw [getEncoded_eq hd h, Except.ok.injEq] at hg
  rw [leaf_run hd h, toH256_leafAt, ← hg]
  by_cases he : (leafAt ops slot.key).encoded = [] <;> simp [he]

omit [SmtCrate] in
theorem last_of_leafAt {ops : List TreeOp} {key : H256} (hb : (leafAt ops key).encoded ≠ []) :
    last (leafWrites ops) key = some (leafAt ops key).encoded := by
  unfold leafAt at hb ⊢
  cases hl : last (leafWrites ops) key with
  | none => simp [hl, SmtValue.zero] at hb
  | some blob =>
      by_cases hz : hashLeafValue key blob = zero32
      · simp [hl, hz, SmtValue.zero] at hb
      · simp [hz]

theorem leaf_mem_of_getEncoded (hd : crate.Documented) {ops : List TreeOp} {tree : ProfileTree}
    (h : run ops = .ok tree) {slot : SlotId} {blob : Bytes}
    (hg : tree.getEncoded slot = .ok (some blob)) :
    blob ≠ [] ∧ leafPreimage slot.key blob ∈ hashed ops := by
  rw [getEncoded_eq hd h, Except.ok.injEq] at hg
  obtain ⟨hn, hb⟩ := Option.ite_none_left_eq_some.mp hg
  cases hb
  have hne : (leafAt ops slot.key).encoded ≠ [] := by simpa using hn
  refine ⟨hne, ?_⟩
  obtain ⟨w, hm, he⟩ := List.mem_map.mp (mem_of_last (last_of_leafAt hne))
  obtain ⟨hk, hw⟩ := Prod.mk.inj he
  rw [← hw, ← hk]
  exact leaf_mem_hashed hm (by rwa [hw])

omit [SmtCrate] in
theorem leafAt_of_no_key {ops : List TreeOp} {key : H256}
    (h : ∀ w ∈ ops.map TreeOp.write, w.1.key ≠ key) : leafAt ops key = SmtValue.zero := by
  have hn : last (leafWrites ops) key = none :=
    (last_eq_none_iff _ _).mpr (by simpa [leafWrites] using h)
  rw [leafAt, hn]

section CollisionFree

variable {inputs : List Bytes} (hf : CollisionFree sha256 inputs)

include hf

omit [SmtCrate] in
/-- Where the slot keys do not collide, the leaf at a slot's key is the slot's
content: a cleared slot and a slot never written both read as the zero leaf. -/
theorem leafAt_slot {ops : List TreeOp} (hops : hashed ops ⊆ inputs) {slot : SlotId}
    (hs : slot.preimage ∈ inputs) :
    leafAt ops slot.key = match contents ops slot with
      | none => SmtValue.zero
      | some blob => ⟨slot.key, blob⟩ := by
  have hl : last (leafWrites ops) slot.key = last (ops.map TreeOp.write) slot :=
    last_map SlotId.key _ slot fun w hw he =>
      key_inj hf (hops (key_mem_hashed hw)) hs he
  rw [leafAt, hl, contents]
  cases hw : last (ops.map TreeOp.write) slot with
  | none => rfl
  | some blob =>
      by_cases hb : blob = []
      · simp [hb, hashLeafValue_nil, Option.filter_some]
      · have hn : hashLeafValue slot.key blob ≠ zero32 := by
          have hm := leaf_mem_hashed (mem_of_last hw) hb
          rw [hashLeafValue_eq hb]
          exact hf.nonzero _ (hops hm)
        simp [hb, hn, Option.filter_some]

theorem getEncoded_run (hd : crate.Documented) {ops : List TreeOp} {tree : ProfileTree}
    (h : run ops = .ok tree) (hops : hashed ops ⊆ inputs) {slot : SlotId}
    (hs : slot.preimage ∈ inputs) : tree.getEncoded slot = .ok (contents ops slot) := by
  rw [ProfileTree.getEncoded, get_run hd h, leafAt_slot hf hops hs]
  cases hc : contents ops slot with
  | none => rfl
  | some blob =>
      have hb : blob ≠ [] := ((contents_eq_some_iff ops slot blob).mp hc).2
      simp [hb]

theorem getEncoded_buildTree (hd : crate.Documented) {p : Profile} {tree : ProfileTree}
    (h : p.buildTree = .ok tree) (hp : hashed (profileOps p) ⊆ inputs) {slot : SlotId}
    (hs : slot.preimage ∈ inputs) : tree.getEncoded slot = .ok ((p.get slot).map Value.encode) := by
  rw [getEncoded_run hf hd (run_of_buildTree h) hp hs, contents_profileOps]

/-- Histories with the same slot map have the same leaves at every key, so the
root forgets the order, the overwritten values and the removals. -/
theorem root_of_contents (hd : crate.Documented) {ops ops' : List TreeOp} {tree tree' : ProfileTree}
    (h : run ops = .ok tree) (h' : run ops' = .ok tree') (hops : hashed ops ⊆ inputs)
    (hops' : hashed ops' ⊆ inputs) (hc : ∀ slot, contents ops slot = contents ops' slot) :
    tree.root = tree'.root := by
  apply hd.root_congr
  intro key
  rw [leaf_run hd h, leaf_run hd h']
  by_cases hw : ∃ w ∈ ops.map TreeOp.write ++ ops'.map TreeOp.write, w.1.key = key
  · obtain ⟨w, hm, rfl⟩ := hw
    have hp : w.1.preimage ∈ inputs := by
      rcases List.mem_append.mp hm with hm | hm
      · exact hops (key_mem_hashed hm)
      · exact hops' (key_mem_hashed hm)
    rw [leafAt_slot hf hops hp, leafAt_slot hf hops' hp, hc]
  · push Not at hw
    rw [leafAt_of_no_key fun w hm => hw w (List.mem_append_left _ hm),
      leafAt_of_no_key fun w hm => hw w (List.mem_append_right _ hm)]

end CollisionFree

end DigIdentity.TreeRefinement
