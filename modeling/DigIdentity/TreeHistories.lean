import DigIdentity.References

namespace DigIdentity.TreeHistories

open ByteStrings Fallible TreeCrate Hashing Errors Slots Values Trees Profiles TreeRefinement

def decodeContent : Option Bytes → Except Error (Option Value)
  | none => .ok none
  | some blob => (Value.decode blob).map some

section Slots

variable [Sha2] [SmtCrate] {tree : ProfileTree} {slot : SlotId} {content : Option Bytes}

theorem get_of_getEncoded (h : tree.getEncoded slot = .ok content) :
    tree.get slot = decodeContent content := by
  rw [ProfileTree.get, h]
  cases content <;> rfl

end Slots

/-- A tree is its slot map: reads, the guards of the provers and the root see
the last blob written to each slot and nothing else of the history. -/
theorem tree_refines_slot_map [Sha2] [SmtCrate] (hd : crate.Documented) {ops : List TreeOp}
    {tree : ProfileTree} (h : run ops = .ok tree) :
    (∀ slot, CollisionFree sha256 (hashed ops ++ [slot.preimage]) →
      tree.getEncoded slot = .ok (contents ops slot) ∧
      tree.get slot = decodeContent (contents ops slot) ∧
      tree.proveMembership slot =
        (if (contents ops slot).isSome then tree.prove slot else .error (absentSlot slot)) ∧
      tree.proveNonMembership slot =
        (if (contents ops slot).isSome then .error (presentSlot slot) else tree.prove slot)) ∧
    (∀ ops' tree', run ops' = .ok tree' → CollisionFree sha256 (hashed ops ++ hashed ops') →
      (∀ slot, contents ops slot = contents ops' slot) → tree.root = tree'.root) ∧
    (∀ (p : Profile) root, p.buildRoot = .ok root →
      CollisionFree sha256 (hashed ops ++ hashed (profileOps p)) →
      (∀ slot, contents ops slot = (p.get slot).map Value.encode) → tree.root = root) ∧
    (CollisionFree sha256 (hashed ops) → (∀ slot, contents ops slot = none) → tree.root = zero32) := by
  have hroots : ∀ ops' tree', run ops' = .ok tree' → CollisionFree sha256 (hashed ops ++ hashed ops') →
      (∀ slot, contents ops slot = contents ops' slot) → tree.root = tree'.root := by
    intro ops' tree' h' hf hc
    exact root_of_contents hf hd h h' (List.subset_append_left ..) (List.subset_append_right ..) hc
  refine ⟨?_, hroots, ?_, ?_⟩
  · intro slot hf
    have hs : slot.preimage ∈ hashed ops ++ [slot.preimage] := by simp
    have hg := getEncoded_run hf hd h (List.subset_append_left ..) hs
    exact ⟨hg, get_of_getEncoded hg, proveMembership_of_getEncoded hg,
      proveNonMembership_of_getEncoded hg⟩
  · intro p root hp hf hc
    obtain ⟨tree', ht, rfl⟩ := Profile.buildRoot_eq_ok.mp hp
    rw [buildTree_eq_run] at ht
    exact hroots _ _ ht hf fun slot => (hc slot).trans (contents_profileOps p slot).symm
  · intro hf hc
    have hnew : run [] = .ok ProfileTree.new := rfl
    rw [hroots [] _ hnew (by simpa [hashed] using hf) (by simpa [contents, Histories.last] using hc)]
    exact hd.root_new

section Sample

open References

def shorterOps : List TreeOp := [.remove standard.keyEpoch, .set standard.displayName (.utf8 "Ada")]

theorem contents_sampleOps (slot : SlotId) :
    contents sampleOps slot = (sampleProfile.get slot).map Value.encode := by
  rw [sampleProfile, Profile.get_set]
  by_cases hn : slot = standard.displayName
  · subst hn
    rfl
  · by_cases hb : slot = standard.bio
    · subst hb
      rfl
    · simp [contents, sampleOps, Histories.last, TreeOp.write, hn, Ne.symm hn, Ne.symm hb, Profile.get,
        Profile.new]

theorem contents_shorterOps (slot : SlotId) : contents sampleOps slot = contents shorterOps slot := by
  rw [contents_sampleOps, sampleProfile, Profile.get_set]
  by_cases hn : slot = standard.displayName
  · subst hn
    rfl
  · by_cases he : slot = standard.keyEpoch
    · subst he
      rfl
    · simp [contents, shorterOps, Histories.last, TreeOp.write, hn, Ne.symm hn, Ne.symm he, Profile.get,
        Profile.new]

theorem sampleOps_refine_slot_map :
    letI := crateOf []
    let tree : ProfileTree := ⟨built sampleOps⟩
    tree.getEncoded standard.displayName = .ok (some (Value.utf8 "Ada").encode) ∧
      tree.get standard.displayName = .ok (some (.utf8 "Ada")) ∧
      tree.proveMembership standard.bio = .error (absentSlot standard.bio) ∧
      tree.proveNonMembership standard.displayName = .error (presentSlot standard.displayName) ∧
      tree.root = ProfileTree.root ⟨built shorterOps⟩ ∧
      tree.root = ProfileTree.root ⟨built (profileOps sampleProfile)⟩ ∧
      ProfileTree.root ⟨built [.remove standard.bio]⟩ = zero32 := by
  let _ := crateOf []
  obtain ⟨hslots, hroots, hprofiles, _⟩ := tree_refines_slot_map (documented []) (run_built [] sampleOps)
  obtain ⟨_, _, _, hempty⟩ := tree_refines_slot_map (documented []) (run_built [] [.remove standard.bio])
  have hf : CollisionFree sha256 (hashed sampleOps ++ ([standard.displayName.preimage,
      standard.bio.preimage] ++ (hashed shorterOps ++ hashed (profileOps sampleProfile)))) := by
    decide +kernel
  have hshorter := hf.mono_append (List.subset_append_of_subset_right _ (List.subset_append_left ..))
  have hprofile := hf.mono_append (List.subset_append_of_subset_right _ (List.subset_append_right ..))
  obtain ⟨hname, hget, _, habsent⟩ := hslots standard.displayName (hf.mono_append (by simp))
  obtain ⟨_, _, hpresent, _⟩ := hslots standard.bio (hf.mono_append (by simp))
  have hp : sampleProfile.buildRoot = .ok (ProfileTree.root ⟨built (profileOps sampleProfile)⟩) :=
    Profile.buildRoot_eq_ok.mpr ⟨_, (buildTree_eq_run sampleProfile).trans (run_built [] _), rfl⟩
  refine ⟨hname, hget.trans (by decide +kernel), hpresent, habsent, ?_, ?_, ?_⟩
  · exact hroots shorterOps _ (run_built [] shorterOps) hshorter contents_shorterOps
  · exact hprofiles sampleProfile _ hp hprofile contents_sampleOps
  · refine hempty (by decide +kernel) ?_
    intro slot
    by_cases hb : standard.bio = slot <;> simp [contents, Histories.last, TreeOp.write, hb]

end Sample

end DigIdentity.TreeHistories
