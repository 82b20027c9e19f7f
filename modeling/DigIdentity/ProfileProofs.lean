import DigIdentity.TreeProofs

namespace DigIdentity.ProfileProofs

open ByteStrings Fallible TreeCrate Hashing Errors Slots Values Trees Profiles TreeRefinement TreeProofs

variable [Sha2] [SmtCrate] {p : Profile} {tree : ProfileTree} {slot : SlotId} {inputs : List Bytes}

section Provers

variable (hd : crate.Documented) (ht : p.buildTree = .ok tree) (hc : crate.Complete tree.smt)
  (hf : CollisionFree sha256 inputs) (hp : hashed (profileOps p) ⊆ inputs) (hs : slot.preimage ∈ inputs)

include hd ht hc hf hp hs

/-- A proof made for a present slot verifies its value against the root of the
profile it was made from, and against no other root. -/
theorem proveMembership_of_get {value : Value} (hv : p.get slot = some value) :
    ∃ proof, tree.proveMembership slot = .ok proof ∧
      ∀ root, verifyMembership root slot value proof = .ok (decide (root = tree.root)) := by
  have hg := getEncoded_buildTree hf hd ht hp hs
  rw [hv] at hg
  obtain ⟨proof, hprove, hverify⟩ := prove_complete hd (run_of_buildTree ht) hc hg
  exact ⟨proof, (proveMembership_of_getEncoded hg).trans hprove, hverify⟩

theorem proveNonMembership_of_get (hv : p.get slot = none) :
    ∃ proof, tree.proveNonMembership slot = .ok proof ∧
      ∀ root, verifyNonMembership root slot proof = .ok (decide (root = tree.root)) := by
  have hg := getEncoded_buildTree hf hd ht hp hs
  rw [hv] at hg
  obtain ⟨proof, hprove, hverify⟩ := prove_complete hd (run_of_buildTree ht) hc hg
  exact ⟨proof, (proveNonMembership_of_getEncoded hg).trans hprove, hverify⟩

end Provers

section Verifiers

variable (hd : crate.Documented) (ht : p.buildTree = .ok tree) (hs : crate.Sound tree.smt)
  (hf : CollisionFree sha256 inputs) (hp : hashed (profileOps p) ⊆ inputs) (hk : slot.preimage ∈ inputs)
  {proof : ProfileProof}

include hd ht hs hf hp hk

theorem get_of_verifyMembership {value : Value} (hl : leafPreimage slot.key value.encode ∈ inputs)
    (hv : verifyMembership tree.root slot value proof = .ok true) : p.get slot = some value := by
  have hg := verifyLeaf_sound hd (run_of_buildTree ht) hs hf hp value.encode (fun _ => hl) hv
  rw [getEncoded_buildTree hf hd ht hp hk, Except.ok.injEq] at hg
  have hne : value.encode.isEmpty = false := by simpa using encode_ne_nil value
  obtain ⟨stored, hstored, he⟩ := Option.map_eq_some_iff.mp (by simpa [hne] using hg)
  rw [hstored, encode_inj he]

theorem get_of_verifyNonMembership (hv : verifyNonMembership tree.root slot proof = .ok true) :
    p.get slot = none := by
  have hg := verifyLeaf_sound hd (run_of_buildTree ht) hs hf hp [] (absurd rfl) hv
  rw [getEncoded_buildTree hf hd ht hp hk, Except.ok.injEq] at hg
  simpa using hg

end Verifiers

end DigIdentity.ProfileProofs
