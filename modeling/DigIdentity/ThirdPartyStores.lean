import DigIdentity.References

namespace DigIdentity.ThirdPartyStores

open ByteStrings Fallible Hashing Errors Trees Profiles Addresses Dids Pairings IdentityProfiles
  UniqueMatch Resolvers

section Sources

variable [AddressCodec] {E : Type}

/-- Two answers to the store scan: one and the same failure, or lists that
differ by their order and by stores that are not the singleton's. -/
inductive SameStores (singleton : IdentitySingleton) :
    Except E (List ChainStoreState) → Except E (List ChainStoreState) → Prop
  | failed (e : E) : SameStores singleton (.error e) (.error e)
  | listed (l m : List ChainStoreState) :
      Rearranged (fun c => isAuthoritativeProfile c.store singleton) l m →
      SameStores singleton (.ok l) (.ok m)

variable [ToString E] [Sha2] [SmtCrate]

theorem settle_congr {source source' : ChainSource E} (h : source.fetchProfile = source'.fetchProfile)
    (singleton : IdentitySingleton) (selection : Selection ChainStoreState) :
    settle source singleton selection = settle source' singleton selection := by
  cases selection with
  | nothing => rfl
  | several => rfl
  | only chosen => rw [settle, settle, bindBody, bindBody, h]

end Sources

/-- Stores that are not the DID's, wherever they stand in the scan and however
many there are, change neither what a resolution returns nor how it fails. -/
theorem foreign_stores_are_inert [AddressCodec] [Sha2] [SmtCrate] {E : Type} [ToString E]
    {didUri : String} {source source' : ChainSource E}
    (hlineage : ∀ did, Did.parse didUri = some did →
      source.resolveSingletonLineage did.launcherId = source'.resolveSingletonLineage did.launcherId)
    (hfetch : source.fetchProfile = source'.fetchProfile)
    (hstores : ∀ did lineage, Did.parse didUri = some did →
      source.resolveSingletonLineage did.launcherId = .ok (some lineage) →
      SameStores ⟨did, lineage⟩ (source.findStoresForDid did) (source'.findStoresForDid did)) :
    resolveIdentityProfile didUri source = resolveIdentityProfile didUri source' ∧
      resolveDidKeys didUri source = resolveDidKeys didUri source' ∧
      resolveBlsPublicKey didUri source = resolveBlsPublicKey didUri source' := by
  have hprofile : resolveIdentityProfile didUri source = resolveIdentityProfile didUri source' := by
    rw [resolveIdentityProfile_eq, resolveIdentityProfile_eq]
    cases hp : Did.parse didUri with
    | none => rfl
    | some did =>
        simp only [← hlineage did hp]
        rcases hl : source.resolveSingletonLineage did.launcherId with e | _ | lineage
        · rfl
        · rfl
        · have hsame := hstores did lineage hp hl
          revert hsame
          generalize source.findStoresForDid did = answer
          generalize source'.findStoresForDid did = answer'
          intro hsame
          cases hsame with
          | failed e => rfl
          | listed l m hr =>
              have hsel : select (authenticate ⟨did, lineage⟩) l = select (authenticate ⟨did, lineage⟩) m :=
                select_rearranged hr
              simp only [hsel, settle_congr hfetch]
  have hkeys : resolveDidKeys didUri source = resolveDidKeys didUri source' := by
    rw [resolveDidKeys, resolveDidKeys, hprofile]
  refine ⟨hprofile, hkeys, ?_⟩
  rw [resolveBlsPublicKey, resolveBlsPublicKey, hkeys]

section Sample

open References

def noisyCandidates (p : Profile) : List ChainStoreState :=
  [⟨storeAt didText (coinId 1), rootOf p⟩, ⟨storeAt "not a DID" (coinId 1), rootOf p⟩,
    ⟨storeAt didText (coinId 66), coinId 0⟩]

theorem noisy_rejected :
    isAuthoritativeProfile (storeAt "not a DID" (coinId 1)) ⟨sampleDid, sampleLineage⟩ = false := by
  decide +kernel

theorem noisyCandidates_inert :
    letI := crateOf []
    let source := sampleSource publishedProfile fun _ _ => .ok publishedProfile
    let noisy : ChainSource String :=
      { source with findStoresForDid := fun _ => .ok (noisyCandidates publishedProfile) }
    resolveIdentityProfile didText source = resolveIdentityProfile didText noisy ∧
      resolveDidKeys didText source = resolveDidKeys didText noisy ∧
      resolveBlsPublicKey didText source = resolveBlsPublicKey didText noisy := by
  let _ := crateOf []
  apply foreign_stores_are_inert
  · exact fun _ _ => rfl
  · rfl
  · intro did lineage hp hl
    have hdid : did = sampleDid := Option.some.inj (hp.symm.trans parse_didText)
    subst hdid
    have hlineage : sampleLineage = lineage := by
      have hs : Except.ok (some sampleLineage) = Except.ok (some lineage) := hl
      simpa using hs
    subst hlineage
    refine .listed _ _ (.trans (.reorder (List.Perm.swap ..)) (.insert [_] [_] _ ?_))
    exact noisy_rejected

end Sample

end DigIdentity.ThirdPartyStores
