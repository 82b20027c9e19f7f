import DigIdentity.TreeHistories
import DigIdentity.TreeProofs
import DigIdentity.ValueCodec

namespace DigIdentity.RelayedBytes

open ByteStrings Fallible TreeCrate Hashing Errors Slots Values Trees TreeRefinement TreeHistories
  TreeProofs ValueCodec

section Reads

variable [Sha2] [SmtCrate] {ops : List TreeOp} {tree : ProfileTree} {slot : SlotId} {v : Value}

theorem exists_getEncoded (hd : crate.Documented) (h : run ops = .ok tree) (slot : SlotId) :
    ∃ content, tree.getEncoded slot = .ok content :=
  ⟨_, getEncoded_eq hd h slot⟩

theorem get_eq_some_iff (hd : crate.Documented) (h : run ops = .ok tree) :
    tree.get slot = .ok (some v) ↔
      tree.getEncoded slot = .ok (some v.encode) ∧ (payload v).length < 2 ^ 32 := by
  obtain ⟨content, hg⟩ := exists_getEncoded hd h slot
  rw [get_of_getEncoded hg, hg]
  cases content with
  | none => simp [decodeContent]
  | some blob =>
      simp only [decodeContent, Except.ok.injEq, Option.some.injEq, ← decode_eq_ok_iff]
      cases Value.decode blob <;> simp [Except.map]

theorem get_eq_none_iff (hd : crate.Documented) (h : run ops = .ok tree) :
    tree.get slot = .ok none ↔ tree.getEncoded slot = .ok none := by
  obtain ⟨content, hg⟩ := exists_getEncoded hd h slot
  rw [get_of_getEncoded hg, hg]
  cases content with
  | none => simp [decodeContent]
  | some blob => cases hv : Value.decode blob <;> simp [decodeContent, Except.map, hv]

/-- A read fails only over bytes that no value shorter than 2^32 bytes has. -/
theorem get_eq_error_iff (hd : crate.Documented) (h : run ops = .ok tree) {e : Error} :
    tree.get slot = .error e ↔
      ∃ blob, tree.getEncoded slot = .ok (some blob) ∧ Value.decode blob = .error e := by
  obtain ⟨content, hg⟩ := exists_getEncoded hd h slot
  rw [get_of_getEncoded hg, hg]
  cases content with
  | none => simp [decodeContent]
  | some blob => cases hv : Value.decode blob <;> simp [decodeContent, Except.map, hv]

theorem get_of_encode (h : tree.getEncoded slot = .ok (some v.encode)) :
    tree.get slot = if (payload v).length < 2 ^ 32 then .ok (some v)
      else .error (.lengthMismatch ((payload v).length % 2 ^ 32) (payload v).length) := by
  rw [get_of_getEncoded h, decodeContent, decode_encode]
  by_cases hlt : (payload v).length < 2 ^ 32
  · rw [if_pos hlt, if_pos hlt]
    rfl
  · rw [if_neg hlt, if_neg hlt]
    rfl

end Reads

section Proofs

variable [Sha2] [SmtCrate] {ops : List TreeOp} {tree : ProfileTree} {slot : SlotId} {v : Value}

theorem getEncoded_of_verifyMembership (hd : crate.Documented) (h : run ops = .ok tree)
    (hs : crate.Sound tree.smt)
    (hf : CollisionFree sha256 (hashed ops ++ [leafPreimage slot.key v.encode])) {proof : ProfileProof}
    (hv : verifyMembership tree.root slot v proof = .ok true) :
    tree.getEncoded slot = .ok (some v.encode) := by
  have hg := verifyLeaf_sound hd h hs hf (List.subset_append_left ..) v.encode (fun _ => by simp) hv
  simpa [encode_ne_nil] using hg

theorem getEncoded_of_verifyNonMembership (hd : crate.Documented) (h : run ops = .ok tree)
    (hs : crate.Sound tree.smt) (hf : CollisionFree sha256 (hashed ops)) {proof : ProfileProof}
    (hv : verifyNonMembership tree.root slot proof = .ok true) : tree.getEncoded slot = .ok none :=
  verifyLeaf_sound hd h hs hf (List.Subset.refl _) [] (absurd rfl) hv

theorem exists_proveMembership (hd : crate.Documented) (h : run ops = .ok tree)
    (hc : crate.Complete tree.smt) {blob : Bytes} (hg : tree.getEncoded slot = .ok (some blob)) :
    ∃ proof, tree.proveMembership slot = .ok proof ∧
      ∀ root, verifyLeaf root slot (hashLeafValue slot.key blob) proof =
        .ok (decide (root = tree.root)) := by
  obtain ⟨proof, hp, hv⟩ := prove_complete hd h hc hg
  exact ⟨proof, (proveMembership_of_getEncoded hg).trans hp, hv⟩

theorem exists_proveNonMembership (hd : crate.Documented) (h : run ops = .ok tree)
    (hc : crate.Complete tree.smt) (hg : tree.getEncoded slot = .ok none) :
    ∃ proof, tree.proveNonMembership slot = .ok proof ∧
      ∀ root, verifyNonMembership root slot proof = .ok (decide (root = tree.root)) := by
  obtain ⟨proof, hp, hv⟩ := prove_complete hd h hc hg
  exact ⟨proof, (proveNonMembership_of_getEncoded hg).trans hp, hv⟩

end Proofs

/-- A reader of the tree and a verifier who has only its root agree on every
slot, whatever bytes were relayed into the tree. What the reader decodes and
what it finds absent can be proved, against this root only. A slot that it
cannot decode can be proved neither absent nor to hold a value of less than 2^32
bytes, although the prover makes a proof for it. -/
theorem proofs_show_what_reads_return [Sha2] [SmtCrate] (hd : crate.Documented) {ops : List TreeOp}
    {tree : ProfileTree} (h : run ops = .ok tree) (hc : crate.Complete tree.smt)
    (hs : crate.Sound tree.smt) (slot : SlotId) :
    (∀ v, tree.get slot = .ok (some v) → ∃ proof, tree.proveMembership slot = .ok proof ∧
      ∀ root, verifyMembership root slot v proof = .ok (decide (root = tree.root))) ∧
    (tree.get slot = .ok none → ∃ proof, tree.proveNonMembership slot = .ok proof ∧
      ∀ root, verifyNonMembership root slot proof = .ok (decide (root = tree.root))) ∧
    (∀ e, tree.get slot = .error e → tree.proveNonMembership slot = .error (presentSlot slot) ∧
      ∃ proof, tree.proveMembership slot = .ok proof) ∧
    (∀ v proof, CollisionFree sha256 (hashed ops ++ [leafPreimage slot.key v.encode]) →
      verifyMembership tree.root slot v proof = .ok true →
      tree.get slot = if (payload v).length < 2 ^ 32 then .ok (some v)
        else .error (.lengthMismatch ((payload v).length % 2 ^ 32) (payload v).length)) ∧
    (∀ proof, CollisionFree sha256 (hashed ops) →
      verifyNonMembership tree.root slot proof = .ok true → tree.get slot = .ok none) := by
  refine ⟨?_, ?_, ?_, ?_, ?_⟩
  · intro v hv
    exact exists_proveMembership hd h hc ((get_eq_some_iff hd h).mp hv).1
  · intro hn
    exact exists_proveNonMembership hd h hc ((get_eq_none_iff hd h).mp hn)
  · intro e he
    obtain ⟨blob, hg, _⟩ := (get_eq_error_iff hd h).mp he
    obtain ⟨proof, hp, _⟩ := exists_proveMembership hd h hc hg
    exact ⟨proveNonMembership_of_getEncoded hg, proof, hp⟩
  · intro v proof hf hv
    exact get_of_encode (getEncoded_of_verifyMembership hd h hs hf hv)
  · intro proof hf hv
    exact (get_eq_none_iff hd h).mpr (getEncoded_of_verifyNonMembership hd h hs hf hv)

section Sample

open References

/-- A relayed blob that no reader decodes, beside a name. -/
def relayedOps : List TreeOp :=
  [.set standard.displayName (.utf8 "Ada"), .setEncoded standard.bio ((Value.utf8 "hi").encode.take 6)]

theorem relayedBio_unreadable :
    letI := crateOf [built relayedOps]
    let tree : ProfileTree := ⟨built relayedOps⟩
    tree.get standard.bio = .error (.lengthMismatch 2 1) ∧
      (∃ proof, tree.proveMembership standard.bio = .ok proof) ∧
      (∀ proof, verifyNonMembership tree.root standard.bio proof ≠ .ok true) ∧
      (∀ proof, verifyMembership tree.root standard.bio (.utf8 "hi") proof ≠ .ok true) ∧
      ∃ proof, tree.proveMembership standard.displayName = .ok proof ∧
        verifyMembership tree.root standard.displayName (.utf8 "Ada") proof = .ok true := by
  let _ := crateOf [built relayedOps]
  intro tree
  obtain ⟨h, hc, hs⟩ := registered relayedOps
  have hd := documented [built relayedOps]
  obtain ⟨_, _, hunread, hvalues, habsent⟩ := proofs_show_what_reads_return hd h hc hs standard.bio
  obtain ⟨hname, _⟩ := proofs_show_what_reads_return hd h hc hs standard.displayName
  have hbio : tree.get standard.bio = .error (.lengthMismatch 2 1) := by decide +kernel
  have hf : CollisionFree sha256
      (hashed relayedOps ++ [leafPreimage standard.bio.key (Value.utf8 "hi").encode]) := by
    decide +kernel
  refine ⟨hbio, (hunread _ hbio).2, ?_, ?_, ?_⟩
  · intro proof hv
    exact nomatch hbio.symm.trans (habsent proof (hf.mono (List.subset_append_left ..)) hv)
  · intro proof hv
    have hg := hvalues _ proof hf hv
    rw [hbio, if_pos (by decide)] at hg
    exact nomatch hg
  · obtain ⟨proof, hp, hv⟩ := hname (.utf8 "Ada") (by decide +kernel)
    exact ⟨proof, hp, (hv tree.root).trans (by rw [decide_eq_true rfl])⟩

end Sample

end DigIdentity.RelayedBytes
