import DigIdentity.ProfileProofs
import DigIdentity.RootBinding

namespace DigIdentity.ProfileLifecycles

open ByteStrings Fallible TreeCrate Hashing Errors Slots Values Trees Profiles TreeRefinement Addresses
  Dids Pairings IdentityProfiles ProfileProofs RootBinding

inductive Call
  | set (slot : SlotId) (value : Value)
  | commitRoot

def Call.isSet : Call → Bool
  | .set _ _ => true
  | .commitRoot => false

def Call.edit (metadata : Profile) : Call → Profile
  | .set slot value => metadata.set slot value
  | .commitRoot => metadata

/-- The sets of a sequence of calls, applied in order. -/
def edited (metadata : Profile) (calls : List Call) : Profile := calls.foldl Call.edit metadata

/-- The metadata as it stood at the last commit, or at the start. -/
def committed (metadata : Profile) (calls : List Call) : Profile :=
  edited metadata (calls.rdropWhile Call.isSet)

theorem edited_snoc (metadata : Profile) (calls : List Call) (call : Call) :
    edited metadata (calls ++ [call]) = call.edit (edited metadata calls) := by
  simp [edited]

section Runs

variable [AddressCodec] [Sha2] [SmtCrate]

def Call.apply (p : IdentityProfile) : Call → Except Error Digest32 × IdentityProfile
  | .set slot value => p.set slot value
  | .commitRoot => p.commitRoot

/-- A run of calls none of which fails. -/
def runCalls (p : IdentityProfile) (calls : List Call) : Except Error IdentityProfile :=
  calls.foldlM (fun p call => (call.apply p).1.map fun _ => (call.apply p).2) p

variable {singleton : IdentitySingleton} {store : StoreRecord} {metadata : Profile}

/-- What holds after every call of a run. -/
structure Lifecycle (singleton : IdentitySingleton) (store : StoreRecord) (metadata : Profile)
    (calls : List Call) (p : IdentityProfile) : Prop where
  singleton_eq : p.singleton = singleton
  store_eq : p.store = store
  metadata_eq : p.metadata = edited metadata calls
  root_eq : (committed metadata calls).buildRoot = .ok p.root
  builds : ∃ current, p.metadata.buildRoot = .ok current

theorem Lifecycle.step {calls : List Call} {call : Call} {p p' : IdentityProfile}
    (h : Lifecycle singleton store metadata calls p)
    (hstep : (call.apply p).1.map (fun _ => (call.apply p).2) = .ok p') :
    Lifecycle singleton store metadata (calls ++ [call]) p' := by
  cases call with
  | set slot value =>
      cases hb : (p.metadata.set slot value).buildRoot with
      | error e => simp [Call.apply, IdentityProfile.set, hb] at hstep
      | ok current =>
          simp only [Call.apply, IdentityProfile.set, hb, ok_map, Except.ok.injEq] at hstep
          subst hstep
          have hc : committed metadata (calls ++ [.set slot value]) = committed metadata calls := by
            rw [committed, List.rdropWhile_concat_pos _ _ _ rfl, committed]
          refine ⟨h.singleton_eq, h.store_eq, ?_, hc ▸ h.root_eq, current, hb⟩
          rw [edited_snoc, ← h.metadata_eq]
          rfl
  | commitRoot =>
      obtain ⟨current, hb⟩ := h.builds
      simp only [Call.apply, IdentityProfile.commitRoot_of_ok hb, ok_map, Except.ok.injEq] at hstep
      subst hstep
      have he : edited metadata (calls ++ [.commitRoot]) = p.metadata := by
        rw [edited_snoc, ← h.metadata_eq]
        rfl
      have hc : committed metadata (calls ++ [.commitRoot]) = p.metadata := by
        rw [committed, List.rdropWhile_concat_neg _ _ _ (by simp [Call.isSet]), he]
      exact ⟨h.singleton_eq, h.store_eq, he.symm, hc ▸ hb, current, hb⟩

theorem lifecycle_run {p₀ : IdentityProfile}
    (h₀ : IdentityProfile.resolve singleton store metadata = .ok p₀) {calls : List Call}
    {p : IdentityProfile} (h : runCalls p₀ calls = .ok p) :
    Lifecycle singleton store metadata calls p := by
  induction calls using List.reverseRecOn generalizing p with
  | nil =>
      cases h
      obtain ⟨hs, hst, hm, hr⟩ := resolve_eq_ok_iff.mp h₀
      exact ⟨hs, hst, hm, hr, p₀.root, hm ▸ hr⟩
  | append_singleton calls call ih =>
      simp only [runCalls, List.foldlM_append, List.foldlM_cons, List.foldlM_nil, bind_pure] at h
      obtain ⟨mid, hm, hlast⟩ := bind_eq_ok.mp h
      exact (ih hm).step hlast

theorem commitRoot_after_set {p p' : IdentityProfile} {slot : SlotId} {value : Value} {root : Digest32}
    (h : p.set slot value = (.ok root, p')) : p'.commitRoot = (.ok root, { p' with root }) := by
  obtain ⟨hroot, rfl⟩ := Prod.mk.inj h
  exact IdentityProfile.commitRoot_of_ok hroot

/-- Verify a slot's content, where no content is verified as absence. -/
def verifyContent (root : Digest32) (slot : SlotId) (content : Option Value) (proof : ProfileProof) :
    Except Error Bool :=
  match content with
  | some value => verifyMembership root slot value proof
  | none => verifyNonMembership root slot proof

/-- One of the two provers succeeds, with a proof of the slot's content that
verifies against the root of the current metadata alone. -/
theorem one_prover_succeeds (hd : crate.Documented) {p : IdentityProfile} {tree : ProfileTree}
    (ht : p.metadata.buildTree = .ok tree) (hc : crate.Complete tree.smt) {slot : SlotId}
    (hf : CollisionFree sha256 (hashed (profileOps p.metadata) ++ [slot.preimage])) :
    ∃ proof,
      ((p.proveField slot = .ok proof ∧ ∀ other, p.proveFieldAbsent slot ≠ .ok other) ∨
        (p.proveFieldAbsent slot = .ok proof ∧ ∀ other, p.proveField slot ≠ .ok other)) ∧
      ∀ root, verifyContent root slot (p.metadata.get slot) proof = .ok (decide (root = tree.root)) := by
  have hp : hashed (profileOps p.metadata) ⊆ hashed (profileOps p.metadata) ++ [slot.preimage] :=
    List.subset_append_left ..
  have hk : slot.preimage ∈ hashed (profileOps p.metadata) ++ [slot.preimage] := by simp
  have hg := getEncoded_buildTree hf hd ht hp hk
  have hpresent := proveMembership_of_getEncoded hg
  have habsent := proveNonMembership_of_getEncoded hg
  rw [← IdentityProfile.proveField_of_buildTree ht] at hpresent
  rw [← IdentityProfile.proveFieldAbsent_of_buildTree ht] at habsent
  cases hv : p.metadata.get slot with
  | some value =>
      obtain ⟨proof, hprove, hverify⟩ := proveMembership_of_get hd ht hc hf hp hk hv
      refine ⟨proof, .inl ⟨?_, ?_⟩, hverify⟩
      · exact (IdentityProfile.proveField_of_buildTree ht slot).trans hprove
      · simp [habsent, hv]
  | none =>
      obtain ⟨proof, hprove, hverify⟩ := proveNonMembership_of_get hd ht hc hf hp hk hv
      refine ⟨proof, .inr ⟨?_, ?_⟩, hverify⟩
      · exact (IdentityProfile.proveFieldAbsent_of_buildTree ht slot).trans hprove
      · simp [hpresent, hv]

end Runs

/-- What holds of an identity at every point of a run of edits and commits: its
pairing, its two copies of the data, and which of its roots its proofs verify
against. -/
theorem lifecycle_invariant [AddressCodec] [Sha2] [SmtCrate] (hd : crate.Documented)
    {singleton : IdentitySingleton} {store : StoreRecord} {metadata : Profile} {p₀ : IdentityProfile}
    (h₀ : IdentityProfile.resolve singleton store metadata = .ok p₀) {calls : List Call}
    {p : IdentityProfile} (h : runCalls p₀ calls = .ok p) :
    p.singleton = singleton ∧ p.store = store ∧ p.storeBelongs = true ∧
      p.metadata = edited metadata calls ∧
      (committed metadata calls).buildRoot = .ok p.root ∧
      (∀ slot value root p', p.set slot value = (.ok root, p') →
        p'.commitRoot = (.ok root, { p' with root })) ∧
      (∀ slot, CollisionFree sha256 (hashed (profileOps p.metadata) ++ [slot.preimage]) →
        (∀ tree, p.metadata.buildTree = .ok tree → crate.Complete tree.smt) →
        Unforged p.metadata (committed metadata calls) →
        ∃ proof current, p.metadata.buildRoot = .ok current ∧
          ((p.proveField slot = .ok proof ∧ ∀ other, p.proveFieldAbsent slot ≠ .ok other) ∨
            (p.proveFieldAbsent slot = .ok proof ∧ ∀ other, p.proveField slot ≠ .ok other)) ∧
          verifyContent current slot (p.metadata.get slot) proof = .ok true ∧
          (verifyContent p.root slot (p.metadata.get slot) proof = .ok true ↔
            p.metadata = committed metadata calls)) := by
  have hl := lifecycle_run h₀ h
  refine ⟨hl.singleton_eq, hl.store_eq, p.paired, hl.metadata_eq, hl.root_eq,
    fun _ _ _ _ => commitRoot_after_set, ?_⟩
  intro slot hf hc hu
  obtain ⟨current, hcurrent⟩ := hl.builds
  obtain ⟨tree, ht, rfl⟩ := Profile.buildRoot_eq_ok.mp hcurrent
  obtain ⟨proof, hprove, hverify⟩ := one_prover_succeeds hd ht (hc tree ht) hf
  refine ⟨proof, tree.root, hcurrent, hprove, ?_, ?_⟩
  · rw [hverify, decide_eq_true rfl]
  · rw [hverify, Except.ok.injEq, decide_eq_true_iff]
    constructor
    · intro he
      exact eq_of_buildRoot_eq hd hu hcurrent (he ▸ hl.root_eq)
    · intro he
      have hr := hl.root_eq
      rw [← he, hcurrent, Except.ok.injEq] at hr
      exact hr.symm

section Sample

open References

def sampleCalls : List Call :=
  [.set standard.bio (.utf8 "hi"), .commitRoot, .set standard.displayName (.utf8 "Bob")]

theorem runCalls_succeeds (p : IdentityProfile) (calls : List Call) :
    letI := crateOf []
    ∃ p', runCalls p calls = .ok p' := by
  let _ := crateOf []
  induction calls generalizing p with
  | nil => exact ⟨p, rfl⟩
  | cons call calls ih =>
      have hcall : ∃ mid, (call.apply p).1.map (fun _ => (call.apply p).2) = .ok mid := by
        cases call with
        | set slot value => simp [Call.apply, IdentityProfile.set, buildRoot_rootOf []]
        | commitRoot => simp [Call.apply, IdentityProfile.commitRoot_of_ok (buildRoot_rootOf [] _)]
      obtain ⟨mid, hmid⟩ := hcall
      obtain ⟨p', hp⟩ := ih mid
      exact ⟨p', by rw [runCalls, List.foldlM_cons, hmid]; exact hp⟩

theorem sampleCalls_lifecycle :
    letI := crateOf []
    ∃ p, runCalls (sampleIdentity sampleProfile) sampleCalls = .ok p ∧
      p.store = storeAt didText (coinId 1) ∧ p.storeBelongs = true ∧
      p.metadata = edited sampleProfile sampleCalls ∧
      (sampleProfile.set standard.bio (.utf8 "hi")).buildRoot = .ok p.root ∧
      ∃ proof current, p.metadata.buildRoot = .ok current ∧
        verifyContent current standard.displayName (p.metadata.get standard.displayName) proof = .ok true ∧
        verifyContent p.root standard.displayName (p.metadata.get standard.displayName) proof ≠ .ok true := by
  let _ := crateOf []
  obtain ⟨p, hrun⟩ := runCalls_succeeds (sampleIdentity sampleProfile) sampleCalls
  obtain ⟨_, hstore, hpaired, hm, hroot, _, hslots⟩ :=
    lifecycle_invariant (documented []) (resolve_sampleIdentity sampleProfile) hrun
  have hdistinct : rootOf (edited sampleProfile sampleCalls) ≠
      rootOf (committed sampleProfile sampleCalls) := by decide +kernel
  have hf : CollisionFree sha256
      (hashed (profileOps p.metadata) ++ [standard.displayName.preimage]) := by
    rw [hm]
    decide +kernel
  have hu : Unforged p.metadata (committed sampleProfile sampleCalls) := by
    rw [hm]
    exact unforged_of_rootOf (by decide +kernel) fun he => absurd he hdistinct
  obtain ⟨proof, current, hcurrent, _, hverify, hiff⟩ :=
    hslots standard.displayName hf (complete_profile p.metadata) hu
  refine ⟨p, hrun, hstore, hpaired, hm, hroot, proof, current, hcurrent, hverify, ?_⟩
  intro hold
  exact hdistinct (by rw [← hm, hiff.mp hold])

end Sample

end DigIdentity.ProfileLifecycles
