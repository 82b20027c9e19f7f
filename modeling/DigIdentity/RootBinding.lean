import DigIdentity.References

namespace DigIdentity.RootBinding

open ByteStrings Fallible TreeCrate Hashing Errors Slots Values Trees Profiles TreeRefinement Addresses
  Dids Pairings IdentityProfiles UniqueMatch Resolvers

section Profiles

variable [Sha2] [SmtCrate]

/-- The assumptions under which the roots of two profiles are compared: the
strings hashed for either do not collide, and their two roots do not. -/
structure Unforged (p q : Profile) : Prop where
  collisionFree : CollisionFree sha256 (hashed (profileOps p) ++ hashed (profileOps q))
  binding : ∀ t u, p.buildTree = .ok t → q.buildTree = .ok u → crate.Binding t.smt u.smt

theorem get_eq_of_leaves (hd : crate.Documented) {p q : Profile} (hu : Unforged p q)
    {t u : ProfileTree} (ht : p.buildTree = .ok t) (hq : q.buildTree = .ok u) {slot : SlotId}
    (hl : crate.leaf t.smt slot.key = crate.leaf u.smt slot.key) : p.get slot = q.get slot := by
  by_cases hs : slot.preimage ∈ hashed (profileOps p) ++ hashed (profileOps q)
  · have hgp := getEncoded_buildTree hu.collisionFree hd ht (List.subset_append_left ..) hs
    have hgq := getEncoded_buildTree hu.collisionFree hd hq (List.subset_append_right ..) hs
    have hmem {r : Profile} (hr : hashed (profileOps r) ⊆ hashed (profileOps p) ++ hashed (profileOps q))
        (hne : ((r.get slot).map Value.encode).getD [] ≠ []) :
        leafPreimage slot.key (((r.get slot).map Value.encode).getD []) ∈
          hashed (profileOps p) ++ hashed (profileOps q) := by
      cases hv : r.get slot with
      | none => simp [hv] at hne
      | some value => exact hr (leaf_mem_profile hv)
    rw [leaf_of_getEncoded hd (run_of_buildTree ht) hgp,
      leaf_of_getEncoded hd (run_of_buildTree hq) hgq, Except.ok.injEq] at hl
    have he := hashLeafValue_inj hu.collisionFree (hmem (List.subset_append_left ..))
      (hmem (List.subset_append_right ..)) hl
    rcases hp : p.get slot with _ | v <;> rcases hw : q.get slot with _ | w <;>
      simp only [hp, hw, Option.map_none, Option.map_some, Option.getD_none, Option.getD_some] at he
    · rfl
    · exact absurd he.symm (encode_ne_nil w)
    · exact absurd he (encode_ne_nil v)
    · rw [encode_inj he]
  · rw [List.mem_append, not_or] at hs
    rw [not_not.mp (mt key_mem_profile hs.1), not_not.mp (mt key_mem_profile hs.2)]

theorem eq_of_buildRoot_eq (hd : crate.Documented) {p q : Profile} (hu : Unforged p q)
    {root : Digest32} (hp : p.buildRoot = .ok root) (hq : q.buildRoot = .ok root) : p = q := by
  obtain ⟨t, ht, htr⟩ := Profile.buildRoot_eq_ok.mp hp
  obtain ⟨u, hqu, hur⟩ := Profile.buildRoot_eq_ok.mp hq
  ext slot : 1
  exact get_eq_of_leaves hd hu ht hqu (hu.binding t u ht hqu (htr.trans hur.symm) slot.key)

end Profiles

/-- A root commits to the whole profile, so a chain source that answers with
another body cannot change what a resolution returns. -/
theorem root_commits_to_profile [AddressCodec] [Sha2] [SmtCrate] (hd : crate.Documented) :
    (∀ (p q : Profile) r s, p.buildRoot = .ok r → q.buildRoot = .ok s → Unforged p q →
      (r = s ↔ p = q)) ∧
    (∀ (E : Type) [ToString E] (didUri : String) (source source' : ChainSource E) a b,
      (∀ did, Did.parse didUri = some did →
        source.resolveSingletonLineage did.launcherId = source'.resolveSingletonLineage did.launcherId ∧
        source.findStoresForDid did = source'.findStoresForDid did) →
      resolveIdentityProfile didUri source = .ok a → resolveIdentityProfile didUri source' = .ok b →
      Unforged a.metadata b.metadata → a = b) := by
  constructor
  · intro p q r s hp hq hu
    constructor
    · rintro rfl
      exact eq_of_buildRoot_eq hd hu hp hq
    · rintro rfl
      rwa [hp, Except.ok.injEq] at hq
  · intro E _ didUri source source' a b hagree ha hb hu
    obtain ⟨hpa, hla, _, hca, hsa, _, hra⟩ := resolveIdentityProfile_eq_ok_iff.mp ha
    obtain ⟨hpb, hlb, _, hcb, hsb, _, hrb⟩ := resolveIdentityProfile_eq_ok_iff.mp hb
    have hdid : a.did = b.did := Option.some.inj (hpa.symm.trans hpb)
    obtain ⟨hlineage, hstores⟩ := hagree a.did hpa
    have hsingleton : a.singleton = b.singleton := by
      rw [hlineage, hdid, hlb, Except.ok.injEq, Option.some.injEq] at hla
      exact IdentitySingleton.ext hdid hla.symm
    rw [hstores, hdid, hcb, Except.ok.injEq] at hca
    rw [← hca, hsingleton, hsb, Selection.only.injEq, ChainStoreState.mk.injEq] at hsa
    have hmetadata : a.metadata = b.metadata := eq_of_buildRoot_eq hd hu (hsa.2 ▸ hra) hrb
    exact IdentityProfile.ext hsingleton hsa.1.symm hmetadata hsa.2.symm

section Sample

open References

theorem unforged_of_rootOf {p q : Profile}
    (hf : CollisionFree sha256 (hashed (profileOps p) ++ hashed (profileOps q)))
    (hr : rootOf p = rootOf q → p = q) :
    letI := crateOf []
    Unforged p q := by
  let _ := crateOf []
  refine ⟨hf, ?_⟩
  intro t u ht hu hroot
  cases (buildTree_built [] p).symm.trans ht
  cases (buildTree_built [] q).symm.trans hu
  cases hr hroot
  exact fun _ => rfl

theorem publishedProfile_commits :
    letI := crateOf []
    (rootOf publishedProfile = rootOf sampleProfile ↔ publishedProfile = sampleProfile) ∧
      ∃ a b, resolveIdentityProfile didText
          (sampleSource publishedProfile fun _ _ => .ok publishedProfile) = .ok a ∧
        resolveIdentityProfile didText (sampleSource publishedProfile fun store _ =>
          if store.description = didText then .ok publishedProfile else .error "offline") = .ok b ∧
        a = b := by
  let _ := crateOf []
  have hdistinct : rootOf publishedProfile ≠ rootOf sampleProfile := by decide +kernel
  obtain ⟨hprofiles, hsources⟩ := root_commits_to_profile (documented [])
  constructor
  · exact hprofiles _ _ _ _ (buildRoot_rootOf [] _) (buildRoot_rootOf [] _)
      (unforged_of_rootOf (by decide +kernel) fun he => absurd he hdistinct)
  · have ha := resolve_sampleSource [] publishedProfile (fun _ _ => .ok publishedProfile) rfl
    have hb := resolve_sampleSource [] publishedProfile (fun store _ =>
      if store.description = didText then .ok publishedProfile else .error "offline") (if_pos rfl)
    refine ⟨_, _, ha, hb, hsources String didText _ _ _ _ ?_ ha hb ?_⟩
    · exact fun _ _ => ⟨rfl, rfl⟩
    · exact unforged_of_rootOf (by decide +kernel) fun _ => rfl

end Sample

end DigIdentity.RootBinding
