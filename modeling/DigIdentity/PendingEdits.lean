import DigIdentity.FailedEdits

namespace DigIdentity.PendingEdits

open ByteStrings Fallible TreeCrate Hashing Errors Slots Values Trees Profiles TreeRefinement Addresses
  Dids Pairings IdentityProfiles ProfileLifecycles RootBinding FailedEdits

section Runs

variable [Sha2] [SmtCrate]

/-- The calls up to the last commit that succeeded, and those since: every
commit among these has failed. -/
structure LastCommit (metadata : Profile) (calls before after : List Call) (root : Digest32) :
    Prop where
  split : calls = before ++ after
  commits : before = [] ∨ ∃ earlier, before = earlier ++ [.commitRoot]
  root_eq : (edited metadata before).buildRoot = .ok root
  failed : ∀ mid, mid ++ [.commitRoot] <+: after →
    ∃ e, (edited metadata (before ++ mid)).buildRoot = .error e

variable {metadata : Profile} {calls before after : List Call} {root : Digest32}

theorem LastCommit.set (h : LastCommit metadata calls before after root) (slot : SlotId)
    (value : Value) :
    LastCommit metadata (calls ++ [.set slot value]) before (after ++ [.set slot value]) root := by
  refine ⟨by rw [h.split, List.append_assoc], h.commits, h.root_eq, ?_⟩
  intro mid hmid
  rcases List.prefix_concat_iff.mp hmid with he | hp
  · exact absurd (List.append_inj_right' he rfl) (by simp)
  · exact h.failed mid hp

theorem lastCommit_of_ok {current : Digest32}
    (hb : (edited metadata calls).buildRoot = .ok current) :
    LastCommit metadata (calls ++ [.commitRoot]) (calls ++ [.commitRoot]) [] current := by
  refine ⟨by simp, .inr ⟨calls, rfl⟩, ?_, ?_⟩
  · rw [edited_snoc]
    exact hb
  · intro mid hmid
    exact absurd (List.prefix_nil.mp hmid) (by simp)

theorem LastCommit.fail (h : LastCommit metadata calls before after root) {e : Error}
    (hb : (edited metadata calls).buildRoot = .error e) :
    LastCommit metadata (calls ++ [.commitRoot]) before (after ++ [.commitRoot]) root := by
  refine ⟨by rw [h.split, List.append_assoc], h.commits, h.root_eq, ?_⟩
  intro mid hmid
  rcases List.prefix_concat_iff.mp hmid with he | hp
  · rw [List.append_cancel_right he, ← h.split]
    exact ⟨e, hb⟩
  · exact h.failed mid hp

theorem lastCommit_afterCalls [AddressCodec] {p : IdentityProfile} (h : p.metadata.buildRoot = .ok p.root)
    (calls : List Call) :
    ∃ before after, LastCommit p.metadata calls before after (afterCalls p calls).root := by
  induction calls using List.reverseRecOn with
  | nil => exact ⟨[], [], rfl, .inl rfl, h, fun mid hmid => absurd (List.prefix_nil.mp hmid) (by simp)⟩
  | append_singleton calls call ih =>
      obtain ⟨before, after, hl⟩ := ih
      have hm := (afterCalls_spec p calls).2.2
      rw [afterCalls_snoc]
      cases call with
      | set slot value => exact ⟨before, _, hl.set slot value⟩
      | commitRoot =>
          cases hb : (edited p.metadata calls).buildRoot with
          | ok current =>
              have hc := IdentityProfile.commitRoot_of_ok (hm.symm ▸ hb)
              rw [Call.apply, hc]
              exact ⟨_, _, lastCommit_of_ok hb⟩
          | error e =>
              have hc := IdentityProfile.commitRoot_of_error (hm.symm ▸ hb)
              rw [Call.apply, hc]
              exact ⟨before, _, hl.fail hb⟩

end Runs

/-- The committed root after any calls, failed ones included, is that of the
metadata at the last commit that succeeded. The next one to succeed takes in
every edit, also those whose own calls failed; until then proofs made from the
pending metadata hold against the committed root only if nothing has changed. -/
theorem committed_root_after_any_calls [AddressCodec] [Sha2] [SmtCrate] (hd : crate.Documented)
    {singleton : IdentitySingleton} {store : StoreRecord} {metadata : Profile} {p₀ : IdentityProfile}
    (h₀ : IdentityProfile.resolve singleton store metadata = .ok p₀) (calls : List Call) :
    let p := afterCalls p₀ calls
    ∃ before after, LastCommit metadata calls before after p.root ∧
      (∀ root p', p.commitRoot = (.ok root, p') →
        (edited metadata calls).buildRoot = .ok root ∧ p'.root = root ∧
          p'.metadata = edited metadata calls) ∧
      (∀ slot tree, p.metadata.buildTree = .ok tree → crate.Complete tree.smt →
        CollisionFree sha256 (hashed (profileOps p.metadata) ++ [slot.preimage]) →
        Unforged p.metadata (edited metadata before) →
        ∃ proof, (p.proveField slot = .ok proof ∨ p.proveFieldAbsent slot = .ok proof) ∧
          (verifyContent p.root slot (p.metadata.get slot) proof = .ok true ↔
            edited metadata calls = edited metadata before)) := by
  intro p
  obtain ⟨_, _, hm₀, hr₀⟩ := resolve_eq_ok_iff.mp h₀
  obtain ⟨before, after, hl⟩ := lastCommit_afterCalls (hm₀ ▸ hr₀) calls
  have hm : p.metadata = edited metadata calls := hm₀ ▸ (afterCalls_spec p₀ calls).2.2
  refine ⟨before, after, hm₀ ▸ hl, ?_, ?_⟩
  · intro root p' hc
    cases hb : p.metadata.buildRoot with
    | error e => simp [IdentityProfile.commitRoot_of_error hb] at hc
    | ok current =>
        rw [IdentityProfile.commitRoot_of_ok hb, Prod.mk.injEq, Except.ok.injEq] at hc
        obtain ⟨rfl, rfl⟩ := hc
        exact ⟨hm ▸ hb, rfl, hm⟩
  · intro slot tree ht hc hf hu
    obtain ⟨proof, hprove, hverify⟩ := one_prover_succeeds hd ht hc hf
    refine ⟨proof, hprove.imp And.left And.left, ?_⟩
    have hcurrent := Profile.buildRoot_eq_ok.mpr ⟨tree, ht, rfl⟩
    have hroot : (edited metadata before).buildRoot = .ok p.root := hm₀ ▸ hl.root_eq
    rw [hverify, Except.ok.injEq, decide_eq_true_iff, ← hm]
    constructor
    · intro he
      exact eq_of_buildRoot_eq hd hu hcurrent (he ▸ hroot)
    · intro he
      rw [← he, hcurrent, Except.ok.injEq] at hroot
      exact hroot.symm

section Sample

open References

theorem refusing_documented (key : Digest32) : (refusingCrate key).crate.Documented := by
  have hd := documented []
  refine ⟨hd.get_new, ?_, hd.root_new, hd.root_congr⟩
  intro t t' k v h
  refine hd.get_update ?_
  change (if k = key then .error MerkleProgram.ProofError.corruptedProof else merkle.update t k v) =
    .ok t' at h
  by_cases hk : k = key
  · rw [if_pos hk] at h
    exact nomatch h
  · rw [if_neg hk] at h
    exact h

/-- The second commit fails, so the root stays that of the first. -/
theorem sampleCalls_last_commit :
    letI := refusingCrate standard.bio.key
    let calls : List Call := [.set standard.displayName (.utf8 "Bob"), .commitRoot,
      .set standard.bio (.utf8 "hi"), .commitRoot]
    let p := afterCalls (sampleIdentity sampleProfile) calls
    (∃ before after, LastCommit sampleProfile calls before after p.root) ∧
      p.commitRoot = (.error (.smt "Corrupted proof"), p) ∧
      p.root = rootOf (edited sampleProfile (calls.take 1)) := by
  let _ := refusingCrate standard.bio.key
  intro calls p
  obtain ⟨before, after, hl, _⟩ := committed_root_after_any_calls (refusing_documented standard.bio.key)
    resolve_refusing calls
  refine ⟨⟨before, after, hl⟩, IdentityProfile.commitRoot_of_error ?_, ?_⟩
  · decide +kernel
  · decide +kernel

end Sample

end DigIdentity.PendingEdits
