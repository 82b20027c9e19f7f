import DigIdentity.ProfileLifecycles

namespace DigIdentity.FailedEdits

open ByteStrings Fallible TreeCrate Hashing Errors Slots Values Trees Profiles Addresses Dids Pairings
  IdentityProfiles ProfileLifecycles

section Runs

variable [AddressCodec] [Sha2] [SmtCrate]

/-- The identity after a sequence of calls, whichever of them fail. -/
def afterCalls (p : IdentityProfile) (calls : List Call) : IdentityProfile :=
  calls.foldl (fun p call => (call.apply p).2) p

theorem afterCalls_snoc (p : IdentityProfile) (calls : List Call) (call : Call) :
    afterCalls p (calls ++ [call]) = (call.apply (afterCalls p calls)).2 := by
  simp [afterCalls]

theorem commitRoot_error {p p' : IdentityProfile} {e : Error} (h : p.commitRoot = (.error e, p')) :
    p' = p := by
  cases hb : p.metadata.buildRoot with
  | error e' =>
      rw [IdentityProfile.commitRoot_of_error hb] at h
      exact (congrArg Prod.snd h).symm
  | ok root => simp [IdentityProfile.commitRoot_of_ok hb] at h

/-- What one call does to everything but the committed root. -/
theorem apply_spec (p : IdentityProfile) (call : Call) :
    (call.apply p).2.singleton = p.singleton ∧ (call.apply p).2.store = p.store ∧
      (call.apply p).2.metadata = call.edit p.metadata := by
  cases call with
  | set slot value => exact ⟨rfl, rfl, rfl⟩
  | commitRoot =>
      cases hb : p.metadata.buildRoot with
      | error e => simp [Call.apply, IdentityProfile.commitRoot_of_error hb, Call.edit]
      | ok root => simp [Call.apply, IdentityProfile.commitRoot_of_ok hb, Call.edit]

theorem afterCalls_spec (p : IdentityProfile) (calls : List Call) :
    (afterCalls p calls).singleton = p.singleton ∧ (afterCalls p calls).store = p.store ∧
      (afterCalls p calls).metadata = edited p.metadata calls := by
  induction calls using List.reverseRecOn with
  | nil => exact ⟨rfl, rfl, rfl⟩
  | append_singleton calls call ih =>
      obtain ⟨hs, hst, hm⟩ := ih
      obtain ⟨hs', hst', hm'⟩ := apply_spec (afterCalls p calls) call
      rw [afterCalls_snoc, edited_snoc]
      exact ⟨hs'.trans hs, hst'.trans hst, hm'.trans (congrArg call.edit hm)⟩

omit [AddressCodec] in
theorem buildTree_of_buildRoot {p : Profile} {e : Error} (h : p.buildRoot = .error e) :
    p.buildTree = .error e := by
  cases ht : p.buildTree with
  | error e' => simpa [Profile.buildRoot, ht] using h
  | ok tree => simp [Profile.buildRoot, ht] at h

theorem provers_of_error {p : IdentityProfile} {e : Error} (h : p.metadata.buildRoot = .error e)
    (slot : SlotId) : p.proveField slot = .error e ∧ p.proveFieldAbsent slot = .error e := by
  have ht := buildTree_of_buildRoot h
  constructor
  · rw [IdentityProfile.proveField, ht, error_bind]
  · rw [IdentityProfile.proveFieldAbsent, ht, error_bind]

theorem set_eq_self_iff (p : IdentityProfile) (slot : SlotId) (value : Value) :
    (p.set slot value).2 = p ↔ p.metadata.get slot = some value := by
  constructor
  · intro h
    have hm : p.metadata.set slot value = p.metadata := congrArg IdentityProfile.metadata h
    rw [← hm, Profile.get_set, if_pos rfl]
  · intro h
    have hm : p.metadata.set slot value = p.metadata := by
      ext s : 1
      rw [Profile.get_set]
      by_cases hs : s = slot
      · rw [if_pos hs, hs, h]
      · rw [if_neg hs]
    exact IdentityProfile.ext rfl rfl hm rfl

theorem set_set (p : IdentityProfile) (slot : SlotId) (value other : Value) :
    (p.set slot value).2.set slot other = p.set slot other := by
  have hm : (p.metadata.set slot value).set slot other = p.metadata.set slot other := by
    ext s : 1
    simp only [Profile.get_set]
    by_cases hs : s = slot <;> simp [hs]
  simp [IdentityProfile.set, hm]

end Runs

/-- A failed commit leaves an identity as it was. A failed edit leaves all but
the metadata as it was; the edit stays pending there, and the identity can
neither commit nor prove until another edit replaces it. -/
theorem failed_calls [AddressCodec] [Sha2] [SmtCrate] {singleton : IdentitySingleton}
    {store : StoreRecord} {metadata : Profile} {p₀ : IdentityProfile}
    (h₀ : IdentityProfile.resolve singleton store metadata = .ok p₀) (calls : List Call) :
    let p := afterCalls p₀ calls
    p.singleton = singleton ∧ p.store = store ∧ p.metadata = edited metadata calls ∧
    (∀ e p', p.commitRoot = (.error e, p') → p' = p) ∧
    (∀ slot value e p', p.set slot value = (.error e, p') →
      (p'.root = p.root ∧ p'.singleton = p.singleton ∧ p'.store = p.store) ∧
      p'.metadata = p.metadata.set slot value ∧
      (p' = p ↔ p.metadata.get slot = some value) ∧
      p'.commitRoot = (.error e, p') ∧
      (∀ s, p'.proveField s = .error e ∧ p'.proveFieldAbsent s = .error e) ∧
      (∀ other, p'.set slot other = p.set slot other)) := by
  intro p
  obtain ⟨hs₀, hst₀, hm₀, _⟩ := resolve_eq_ok_iff.mp h₀
  obtain ⟨hs, hst, hm⟩ := afterCalls_spec p₀ calls
  refine ⟨hs.trans hs₀, hst.trans hst₀, hm₀ ▸ hm, fun _ _ => commitRoot_error, ?_⟩
  intro slot value e p' h
  obtain ⟨hroot, rfl⟩ := Prod.mk.inj h
  refine ⟨⟨rfl, rfl, rfl⟩, rfl, set_eq_self_iff p slot value,
    IdentityProfile.commitRoot_of_error hroot, provers_of_error hroot, set_set p slot value⟩

section Sample

open References

/-- A crate whose backing store refuses to write at one key. -/
@[reducible] def refusingCrate (key : Digest32) : SmtCrate where
  crate := { merkle with
    update := fun t k v => if k = key then .error .corruptedProof else .ok (t.update k v) }

theorem resolve_refusing :
    letI := refusingCrate standard.bio.key
    IdentityProfile.resolve ⟨sampleDid, sampleLineage⟩ (storeAt didText (coinId 1)) sampleProfile =
      .ok (sampleIdentity sampleProfile) := by
  let _ := refusingCrate standard.bio.key
  refine resolve_eq_ok_iff.mpr ⟨rfl, rfl, rfl, ?_⟩
  decide +kernel

/-- The edit of a slot that cannot be written is kept, and takes down the
commit and the proofs of the slots that can. -/
theorem failed_set_keeps_edit :
    letI := refusingCrate standard.bio.key
    let p := sampleIdentity sampleProfile
    let p' := (p.set standard.bio (.utf8 "hi")).2
    IdentityProfile.resolve ⟨sampleDid, sampleLineage⟩ (storeAt didText (coinId 1)) sampleProfile =
        .ok p ∧
      (p.set standard.bio (.utf8 "hi")).1 = .error (.smt "Corrupted proof") ∧
      p.metadata.bio = none ∧ p'.metadata.bio = some "hi" ∧
      p.commitRoot = (.ok p.root, p) ∧ p'.commitRoot = (.error (.smt "Corrupted proof"), p') ∧
      (p.proveField standard.displayName).isOk = true ∧
      p'.proveField standard.displayName = .error (.smt "Corrupted proof") := by
  let _ := refusingCrate standard.bio.key
  intro p p'
  have hroot : p.metadata.buildRoot = .ok p.root := (resolve_eq_ok_iff.mp resolve_refusing).2.2.2
  have hset : p'.metadata.buildRoot = .error (.smt "Corrupted proof") := by decide +kernel
  exact ⟨resolve_refusing, hset, by decide +kernel, by decide +kernel,
    IdentityProfile.commitRoot_of_committed hroot, IdentityProfile.commitRoot_of_error hset,
    by decide +kernel, (provers_of_error hset _).1⟩

theorem sampleCalls_failed :
    letI := refusingCrate standard.bio.key
    let p := afterCalls (sampleIdentity sampleProfile)
      [.set standard.displayName (.utf8 "Bob"), .commitRoot]
    let p' := (p.set standard.bio (.utf8 "hi")).2
    p.metadata.displayName = some "Bob" ∧ p.store = storeAt didText (coinId 1) ∧
      p'.root = p.root ∧ p' ≠ p ∧
      p'.set standard.bio (.utf8 "hello") = p.set standard.bio (.utf8 "hello") := by
  let _ := refusingCrate standard.bio.key
  intro p p'
  obtain ⟨_, hstore, hm, _, hset⟩ := failed_calls resolve_refusing
    [.set standard.displayName (.utf8 "Bob"), .commitRoot]
  have hname : (edited sampleProfile
      [.set standard.displayName (.utf8 "Bob"), .commitRoot]).displayName = some "Bob" := by
    decide +kernel
  have hfail : p.set standard.bio (.utf8 "hi") = (.error (.smt "Corrupted proof"), p') := by
    apply Prod.ext
    · decide +kernel
    · rfl
  obtain ⟨⟨hroot, _⟩, _, hsame, _, _, hother⟩ := hset _ _ _ _ hfail
  refine ⟨(congrArg Profile.displayName hm).trans hname, hstore, hroot, ?_, hother _⟩
  intro h
  exact absurd (hsame.mp h) (by decide +kernel)

end Sample

end DigIdentity.FailedEdits
