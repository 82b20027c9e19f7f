import DigIdentity.References

namespace DigIdentity.ResolutionOutcomes

open ByteStrings Fallible Hashing Errors Trees Profiles Addresses Dids Pairings IdentityProfiles
  UniqueMatch Resolvers

section Outcomes

variable [AddressCodec] {E : Type} [ToString E] [Sha2] [SmtCrate]

def OnlyPasses (singleton : IdentitySingleton) (candidates : List ChainStoreState)
    (chosen : ChainStoreState) : Prop :=
  isAuthoritativeProfile chosen.store singleton = true ∧
    ∃ before after, candidates = before ++ chosen :: after ∧
      ∀ other ∈ before ++ after, isAuthoritativeProfile other.store singleton = false

/-- Two entries at different positions of the list pass; they may be equal. -/
def TwoPass (singleton : IdentitySingleton) (candidates : List ChainStoreState) : Prop :=
  ∃ before between after first second,
    candidates = before ++ first :: between ++ second :: after ∧
      isAuthoritativeProfile first.store singleton = true ∧
      isAuthoritativeProfile second.store singleton = true

/-- The outcomes of a resolution, one rule for each way it can end. -/
inductive Outcome (didUri : String) (source : ChainSource E) :
    Except ResolveError IdentityProfile → Prop
  | invalidDid :
      Did.parse didUri = none → Outcome didUri source (.error .invalidDid)
  | lineageFailed (did : Did) (e : E) :
      Did.parse didUri = some did →
      source.resolveSingletonLineage did.launcherId = .error e →
      Outcome didUri source (.error (.chain (toString e)))
  | noIdentitySingleton (did : Did) :
      Did.parse didUri = some did →
      source.resolveSingletonLineage did.launcherId = .ok none →
      Outcome didUri source (.error .noIdentitySingleton)
  | scanFailed (did : Did) (lineage : SingletonLineage) (e : E) :
      Did.parse didUri = some did →
      source.resolveSingletonLineage did.launcherId = .ok (some lineage) →
      source.findStoresForDid did = .error e →
      Outcome didUri source (.error (.chain (toString e)))
  | noProfile (did : Did) (lineage : SingletonLineage) (candidates : List ChainStoreState) :
      Did.parse didUri = some did →
      source.resolveSingletonLineage did.launcherId = .ok (some lineage) →
      source.findStoresForDid did = .ok candidates →
      (∀ c ∈ candidates, isAuthoritativeProfile c.store ⟨did, lineage⟩ = false) →
      Outcome didUri source (.error .noProfile)
  | ambiguousProfile (did : Did) (lineage : SingletonLineage) (candidates : List ChainStoreState) :
      Did.parse didUri = some did →
      source.resolveSingletonLineage did.launcherId = .ok (some lineage) →
      source.findStoresForDid did = .ok candidates →
      TwoPass ⟨did, lineage⟩ candidates →
      Outcome didUri source (.error .ambiguousProfile)
  | fetchFailed (did : Did) (lineage : SingletonLineage) (candidates : List ChainStoreState)
      (chosen : ChainStoreState) (e : E) :
      Did.parse didUri = some did →
      source.resolveSingletonLineage did.launcherId = .ok (some lineage) →
      source.findStoresForDid did = .ok candidates →
      OnlyPasses ⟨did, lineage⟩ candidates chosen →
      source.fetchProfile chosen.store chosen.rootHash = .error e →
      Outcome didUri source (.error (.chain (toString e)))
  | formatError (did : Did) (lineage : SingletonLineage) (candidates : List ChainStoreState)
      (chosen : ChainStoreState) (body : Profile) (e : Error) :
      Did.parse didUri = some did →
      source.resolveSingletonLineage did.launcherId = .ok (some lineage) →
      source.findStoresForDid did = .ok candidates →
      OnlyPasses ⟨did, lineage⟩ candidates chosen →
      source.fetchProfile chosen.store chosen.rootHash = .ok body →
      body.buildRoot = .error e →
      Outcome didUri source (.error (.format e))
  | staleOrTamperedRoot (did : Did) (lineage : SingletonLineage) (candidates : List ChainStoreState)
      (chosen : ChainStoreState) (body : Profile) (root : Digest32) :
      Did.parse didUri = some did →
      source.resolveSingletonLineage did.launcherId = .ok (some lineage) →
      source.findStoresForDid did = .ok candidates →
      OnlyPasses ⟨did, lineage⟩ candidates chosen →
      source.fetchProfile chosen.store chosen.rootHash = .ok body →
      body.buildRoot = .ok root → root ≠ chosen.rootHash →
      Outcome didUri source (.error .staleOrTamperedRoot)
  | resolved (did : Did) (lineage : SingletonLineage) (candidates : List ChainStoreState)
      (chosen : ChainStoreState) (p : IdentityProfile) :
      Did.parse didUri = some did →
      source.resolveSingletonLineage did.launcherId = .ok (some lineage) →
      source.findStoresForDid did = .ok candidates →
      OnlyPasses ⟨did, lineage⟩ candidates chosen →
      source.fetchProfile chosen.store chosen.rootHash = .ok p.metadata →
      p.metadata.buildRoot = .ok chosen.rootHash →
      p.singleton = ⟨did, lineage⟩ → p.store = chosen.store → p.root = chosen.rootHash →
      Outcome didUri source (.ok p)

omit [Sha2] [SmtCrate] in
theorem select_nothing_iff_none_passes {singleton : IdentitySingleton}
    {candidates : List ChainStoreState} :
    select (authenticate singleton) candidates = .nothing ↔
      ∀ c ∈ candidates, isAuthoritativeProfile c.store singleton = false :=
  select_nothing_iff ..

omit [Sha2] [SmtCrate] in
theorem select_only_iff_onlyPasses {singleton : IdentitySingleton}
    {candidates : List ChainStoreState} {chosen : ChainStoreState} :
    select (authenticate singleton) candidates = .only chosen ↔
      OnlyPasses singleton candidates chosen :=
  select_only_iff ..

omit [Sha2] [SmtCrate] in
theorem select_several_iff_twoPass {singleton : IdentitySingleton}
    {candidates : List ChainStoreState} :
    select (authenticate singleton) candidates = .several ↔ TwoPass singleton candidates :=
  select_several_iff ..

/-- An outcome is what the resolver returns, so no two outcomes overlap. -/
theorem resolve_of_outcome {didUri : String} {source : ChainSource E}
    {r : Except ResolveError IdentityProfile} (h : Outcome didUri source r) :
    resolveIdentityProfile didUri source = r := by
  rw [resolveIdentityProfile_eq]
  cases h with
  | invalidDid hp => simp [hp]
  | lineageFailed did e hp hl => simp [hp, hl, chainError]
  | noIdentitySingleton did hp hl => simp [hp, hl]
  | scanFailed did lineage e hp hl hs => simp [hp, hl, hs, chainError]
  | noProfile did lineage candidates hp hl hs hn =>
      simp [hp, hl, hs, select_nothing_iff_none_passes.mpr hn, settle]
  | ambiguousProfile did lineage candidates hp hl hs ht =>
      simp [hp, hl, hs, select_several_iff_twoPass.mpr ht, settle]
  | fetchFailed did lineage candidates chosen e hp hl hs ho hf =>
      simp [hp, hl, hs, select_only_iff_onlyPasses.mpr ho, settle, bindBody, hf, chainError]
  | formatError did lineage candidates chosen body e hp hl hs ho hf hr =>
      simp [hp, hl, hs, select_only_iff_onlyPasses.mpr ho, settle, bindBody, hf, hr]
  | staleOrTamperedRoot did lineage candidates chosen body root hp hl hs ho hf hr hne =>
      simp [hp, hl, hs, select_only_iff_onlyPasses.mpr ho, settle, bindBody, hf, hr, hne]
  | resolved did lineage candidates chosen p hp hl hs ho hf hr hsingleton hstore hroot =>
      simp only [hp, hl, hs, select_only_iff_onlyPasses.mpr ho, settle]
      rw [← hstore, ← hroot] at hf
      rw [← hroot] at hr
      refine bindBody_eq_ok_iff.mpr ⟨hsingleton, ?_, hf, hr⟩
      rw [hstore, hroot]

theorem outcome_exists (didUri : String) (source : ChainSource E) :
    ∃ r, Outcome didUri source r := by
  cases hp : Did.parse didUri with
  | none => exact ⟨_, .invalidDid hp⟩
  | some did =>
      rcases hl : source.resolveSingletonLineage did.launcherId with e | _ | lineage
      · exact ⟨_, .lineageFailed did e hp hl⟩
      · exact ⟨_, .noIdentitySingleton did hp hl⟩
      · cases hs : source.findStoresForDid did with
        | error e => exact ⟨_, .scanFailed did lineage e hp hl hs⟩
        | ok candidates =>
            cases hc : select (authenticate ⟨did, lineage⟩) candidates with
            | nothing => exact ⟨_, .noProfile did lineage candidates hp hl hs
                (select_nothing_iff_none_passes.mp hc)⟩
            | several => exact ⟨_, .ambiguousProfile did lineage candidates hp hl hs
                (select_several_iff_twoPass.mp hc)⟩
            | only chosen =>
                have ho := select_only_iff_onlyPasses.mp hc
                cases hf : source.fetchProfile chosen.store chosen.rootHash with
                | error e => exact ⟨_, .fetchFailed did lineage candidates chosen e hp hl hs ho hf⟩
                | ok body =>
                    cases hr : body.buildRoot with
                    | error e =>
                        exact ⟨_, .formatError did lineage candidates chosen body e hp hl hs ho hf hr⟩
                    | ok root =>
                        by_cases he : root = chosen.rootHash
                        · subst he
                          exact ⟨_, .resolved did lineage candidates chosen
                            ⟨⟨did, lineage⟩, chosen.store, body, chosen.rootHash, ho.1⟩
                            hp hl hs ho hf hr rfl rfl rfl⟩
                        · exact ⟨_, .staleOrTamperedRoot did lineage candidates chosen body root
                            hp hl hs ho hf hr he⟩

end Outcomes

/-- A resolution ends in exactly the outcome the three answers decide, and an
ambiguous one is settled before any body is fetched. -/
theorem resolveIdentityProfile_outcome [AddressCodec] [Sha2] [SmtCrate] {E : Type} [ToString E]
    (didUri : String) (source : ChainSource E) :
    (∀ r, resolveIdentityProfile didUri source = r ↔ Outcome didUri source r) ∧
    (∀ fetchProfile, resolveIdentityProfile didUri source = .error .ambiguousProfile ↔
      resolveIdentityProfile didUri { source with fetchProfile } = .error .ambiguousProfile) := by
  have hiff (source : ChainSource E) (r : Except ResolveError IdentityProfile) :
      resolveIdentityProfile didUri source = r ↔ Outcome didUri source r := by
    constructor
    · rintro rfl
      obtain ⟨r, h⟩ := outcome_exists didUri source
      rwa [resolve_of_outcome h]
    · exact resolve_of_outcome
  refine ⟨hiff source, ?_⟩
  intro fetchProfile
  rw [hiff, hiff]
  constructor
  · rintro (_ | _ | _ | _ | _ | ⟨did, lineage, candidates, hp, hl, hs, ht⟩)
    exact .ambiguousProfile did lineage candidates hp hl hs ht
  · rintro (_ | _ | _ | _ | _ | ⟨did, lineage, candidates, hp, hl, hs, ht⟩)
    exact .ambiguousProfile did lineage candidates hp hl hs ht

end DigIdentity.ResolutionOutcomes
