import DigIdentity.References

namespace DigIdentity.TreeProofs

open ByteStrings Fallible TreeCrate Hashing Errors Slots Values Trees Profiles TreeRefinement

section Proofs

variable [Sha2] [SmtCrate] {ops : List TreeOp} {tree : ProfileTree} {slot : SlotId}

/-- Whatever the proof bytes are, the accepted bytes are the slot's content,
where no bytes claim absence. -/
theorem verifyLeaf_sound (hd : crate.Documented) (h : run ops = .ok tree) (hs : crate.Sound tree.smt)
    {inputs : List Bytes} (hf : CollisionFree sha256 inputs) (hops : hashed ops ⊆ inputs)
    (claimed : Bytes) (hc : claimed ≠ [] → leafPreimage slot.key claimed ∈ inputs) {proof : ProfileProof}
    (hv : verifyLeaf tree.root slot (hashLeafValue slot.key claimed) proof = .ok true) :
    tree.getEncoded slot = .ok (if claimed.isEmpty then none else some claimed) := by
  have hleaf := hs _ _ _ (mapError_eq_ok.mp hv)
  cases hg : tree.getEncoded slot with
  | error e =>
      rw [getEncoded_eq hd h] at hg
      exact nomatch hg
  | ok content =>
      rw [leaf_of_getEncoded hd h hg, Except.ok.injEq] at hleaf
      cases content with
      | none =>
          have he : [] = claimed := hashLeafValue_inj hf (absurd rfl) hc hleaf
          rw [← he]
          rfl
      | some blob =>
          obtain ⟨hb, hm⟩ := leaf_mem_of_getEncoded hd h hg
          have he : blob = claimed := hashLeafValue_inj hf (fun _ => hops hm) hc hleaf
          simp [← he, hb]

/-- The proof made for a slot verifies the slot's content, against the root of
its own tree only. -/
theorem prove_complete (hd : crate.Documented) (h : run ops = .ok tree) (hc : crate.Complete tree.smt)
    {content : Option Bytes} (hg : tree.getEncoded slot = .ok content) :
    ∃ proof, tree.prove slot = .ok proof ∧
      ∀ root, verifyLeaf root slot (hashLeafValue slot.key (content.getD [])) proof =
        .ok (decide (root = tree.root)) := by
  obtain ⟨merkle, proof, hm, hp, hv⟩ := hc _ _ (leaf_of_getEncoded hd h hg)
  refine ⟨⟨proof⟩, ?_, ?_⟩
  · simp [ProfileTree.prove, hm, hp]
  · intro root
    rw [verifyLeaf, hv root]
    rfl

end Proofs

/-- Against the root of a tree, a proof of any origin is accepted for a slot's
content only, and the provers make one that is. -/
theorem proofs_sound_and_complete [Sha2] [SmtCrate] (hd : crate.Documented) {ops : List TreeOp}
    {tree : ProfileTree} (h : run ops = .ok tree) (hc : crate.Complete tree.smt)
    (hs : crate.Sound tree.smt) (slot : SlotId) :
    (∀ (value : Value) proof,
      CollisionFree sha256 (hashed ops ++ [leafPreimage slot.key value.encode]) →
      verifyMembership tree.root slot value proof = .ok true →
      tree.getEncoded slot = .ok (some value.encode)) ∧
    (∀ proof, CollisionFree sha256 (hashed ops) →
      verifyNonMembership tree.root slot proof = .ok true → tree.getEncoded slot = .ok none) ∧
    (∀ (v w : Value) proof proof',
      CollisionFree sha256
        (hashed ops ++ [leafPreimage slot.key v.encode, leafPreimage slot.key w.encode]) →
      verifyMembership tree.root slot v proof = .ok true →
      verifyMembership tree.root slot w proof' = .ok true → v = w) ∧
    (∀ (value : Value) proof proof',
      CollisionFree sha256 (hashed ops ++ [leafPreimage slot.key value.encode]) →
      verifyMembership tree.root slot value proof = .ok true →
      verifyNonMembership tree.root slot proof' ≠ .ok true) ∧
    (∀ value : Value, tree.getEncoded slot = .ok (some value.encode) →
      ∃ proof, tree.proveMembership slot = .ok proof ∧
        verifyMembership tree.root slot value proof = .ok true) ∧
    (tree.getEncoded slot = .ok none →
      ∃ proof, tree.proveNonMembership slot = .ok proof ∧
        verifyNonMembership tree.root slot proof = .ok true) := by
  have hmember : ∀ {inputs : List Bytes} {value : Value} {proof : ProfileProof},
      CollisionFree sha256 inputs → hashed ops ⊆ inputs →
      leafPreimage slot.key value.encode ∈ inputs →
      verifyMembership tree.root slot value proof = .ok true →
      tree.getEncoded slot = .ok (some value.encode) := by
    intro inputs value proof hf hops hm hv
    have hg := verifyLeaf_sound hd h hs hf hops value.encode (fun _ => hm) hv
    simpa [encode_ne_nil] using hg
  have habsent : ∀ {proof : ProfileProof}, CollisionFree sha256 (hashed ops) →
      verifyNonMembership tree.root slot proof = .ok true → tree.getEncoded slot = .ok none :=
    fun hf hv => verifyLeaf_sound hd h hs hf (List.Subset.refl _) [] (absurd rfl) hv
  refine ⟨?_, fun proof => habsent, ?_, ?_, ?_, ?_⟩
  · intro value proof hf hv
    exact hmember hf (List.subset_append_left ..) (by simp) hv
  · intro v w proof proof' hf hv hw
    have hgv := hmember hf (List.subset_append_left ..) (by simp) hv
    have hgw := hmember hf (List.subset_append_left ..) (by simp) hw
    rw [hgv, Except.ok.injEq, Option.some.injEq] at hgw
    exact encode_inj hgw
  · intro value proof proof' hf hv hn
    have hg := hmember hf (List.subset_append_left ..) (by simp) hv
    rw [habsent (hf.mono (List.subset_append_left ..)) hn] at hg
    exact nomatch hg
  · intro value hg
    obtain ⟨proof, hp, hv⟩ := prove_complete hd h hc hg
    refine ⟨proof, ?_, ?_⟩
    · exact (proveMembership_of_getEncoded hg).trans hp
    · exact (hv tree.root).trans (by rw [decide_eq_true rfl])
  · intro hg
    obtain ⟨proof, hp, hv⟩ := prove_complete hd h hc hg
    refine ⟨proof, ?_, ?_⟩
    · exact (proveNonMembership_of_getEncoded hg).trans hp
    · exact (hv tree.root).trans (by rw [decide_eq_true rfl])

section Sample

open References

theorem sampleOps_proofs :
    letI := crateOf [built sampleOps]
    let tree : ProfileTree := ⟨built sampleOps⟩
    (∃ proof, tree.proveMembership standard.displayName = .ok proof ∧
      verifyMembership tree.root standard.displayName (.utf8 "Ada") proof = .ok true) ∧
    (∃ proof, tree.proveNonMembership standard.bio = .ok proof ∧
      verifyNonMembership tree.root standard.bio proof = .ok true) ∧
    (∀ proof, verifyMembership tree.root standard.displayName (.utf8 "Bob") proof ≠ .ok true) ∧
    (∀ proof, verifyNonMembership tree.root standard.displayName proof ≠ .ok true) ∧
    (∀ proof, verifyMembership tree.root standard.bio (.utf8 "") proof ≠ .ok true) := by
  let _ := crateOf [built sampleOps]
  have hd := documented [built sampleOps]
  obtain ⟨h, hc, hs⟩ := registered sampleOps
  obtain ⟨_, _, hvalues, hclaims, hname, _⟩ :=
    proofs_sound_and_complete hd h hc hs standard.displayName
  obtain ⟨hbio, _, _, _, _, habsent⟩ := proofs_sound_and_complete hd h hc hs standard.bio
  -- the digests of all that is hashed below, compared once
  have hf : CollisionFree sha256 (hashed sampleOps ++
      [leafPreimage standard.displayName.key (Value.utf8 "Ada").encode,
        leafPreimage standard.displayName.key (Value.utf8 "Bob").encode,
        leafPreimage standard.bio.key (Value.utf8 "").encode]) := by decide +kernel
  obtain ⟨proof, hp, hv⟩ := hname (.utf8 "Ada") (by decide +kernel)
  refine ⟨⟨proof, hp, hv⟩, habsent (by decide +kernel), ?_, ?_, ?_⟩
  · intro proof' hv'
    have hne : Value.utf8 "Ada" ≠ .utf8 "Bob" := by simp
    exact hne (hvalues _ _ _ _ (hf.mono_append (by simp)) hv hv')
  · intro proof'
    exact hclaims _ _ _ (hf.mono_append (by simp)) hv
  · intro proof' hv'
    have hg := hbio _ _ (hf.mono_append (by simp)) hv'
    exact absurd hg (by decide +kernel)

end Sample

end DigIdentity.TreeProofs
