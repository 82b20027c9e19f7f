import DigIdentity.IdentityProfiles
import DigIdentity.UniqueMatch

namespace DigIdentity.Resolvers

open ByteStrings Fallible Hashing Errors Trees Profiles Addresses Dids Pairings IdentityProfiles UniqueMatch

structure ChainStoreState where
  store : StoreRecord
  rootHash : Bytes32
deriving DecidableEq

variable [AddressCodec]

/-- The caller's view of the chain, as the answers to the three queries. -/
structure ChainSource (E : Type) where
  resolveSingletonLineage : Bytes32 → Except E (Option SingletonLineage)
  findStoresForDid : Did → Except E (List ChainStoreState)
  fetchProfile : StoreRecord → Bytes32 → Except E Profile

inductive ResolveError
  | invalidDid
  | noIdentitySingleton
  | noProfile
  | ambiguousProfile
  | staleOrTamperedRoot
  | noIdentityKey
  | format (error : Error)
  | chain (message : String)
deriving DecidableEq

variable {E : Type} [ToString E] [Sha2] [SmtCrate]

omit [AddressCodec] [Sha2] [SmtCrate] in
def chainError (error : E) : ResolveError := .chain (toString error)

def authenticate (singleton : IdentitySingleton) (candidate : ChainStoreState) : Bool :=
  isAuthoritativeProfile candidate.store singleton

def resolveIdentityProfile (didUri : String) (source : ChainSource E) :
    Except ResolveError IdentityProfile := do
  let some did := Did.parse didUri | throw .invalidDid
  let some lineage ← (source.resolveSingletonLineage did.launcherId).mapError chainError
    | throw .noIdentitySingleton
  let singleton : IdentitySingleton := ⟨did, lineage⟩
  let candidates ← (source.findStoresForDid did).mapError chainError
  let some (chosen, remaining) := next (authenticate singleton) candidates | throw .noProfile
  if (next (authenticate singleton) remaining).isSome then throw .ambiguousProfile
  let content ← (source.fetchProfile chosen.store chosen.rootHash).mapError chainError
  if (← content.buildRoot.mapError .format) ≠ chosen.rootHash then throw .staleOrTamperedRoot
  (IdentityProfile.resolve singleton chosen.store content).mapError .format

def resolveDidKeys (didUri : String) (source : ChainSource E) : Except ResolveError DidKeys := do
  return (← resolveIdentityProfile didUri source).keys

def resolveBlsPublicKey (didUri : String) (source : ChainSource E) :
    Except ResolveError (Vector UInt8 48) := do
  match (← resolveDidKeys didUri source).blsG1PublicKey with
  | some key => return key
  | none => throw .noIdentityKey

def bindBody (source : ChainSource E) (singleton : IdentitySingleton) (chosen : ChainStoreState) :
    Except ResolveError IdentityProfile := do
  let content ← (source.fetchProfile chosen.store chosen.rootHash).mapError chainError
  if (← content.buildRoot.mapError .format) ≠ chosen.rootHash then throw .staleOrTamperedRoot
  (IdentityProfile.resolve singleton chosen.store content).mapError .format

def settle (source : ChainSource E) (singleton : IdentitySingleton) :
    Selection ChainStoreState → Except ResolveError IdentityProfile
  | .nothing => .error .noProfile
  | .several => .error .ambiguousProfile
  | .only chosen => bindBody source singleton chosen

/-- The resolver as its three queries in order, where the list of candidates
matters only through the selection made from it. -/
theorem resolveIdentityProfile_eq (didUri : String) (source : ChainSource E) :
    resolveIdentityProfile didUri source =
      match Did.parse didUri with
      | none => .error .invalidDid
      | some did =>
          match source.resolveSingletonLineage did.launcherId with
          | .error e => .error (chainError e)
          | .ok none => .error .noIdentitySingleton
          | .ok (some lineage) =>
              match source.findStoresForDid did with
              | .error e => .error (chainError e)
              | .ok candidates =>
                  settle source ⟨did, lineage⟩ (select (authenticate ⟨did, lineage⟩) candidates) := by
  unfold resolveIdentityProfile
  cases Did.parse didUri with
  | none => rfl
  | some did =>
      rcases hl : source.resolveSingletonLineage did.launcherId with e | _ | lineage
      · simp [hl]
      · simp [hl]
      · cases hs : source.findStoresForDid did with
        | error e => simp [hl, hs]
        | ok candidates =>
            simp only [hl, hs, ok_mapError, ok_bind, select]
            rcases next (authenticate ⟨did, lineage⟩) candidates with _ | ⟨chosen, remaining⟩
            · rfl
            · cases hr : (next (authenticate ⟨did, lineage⟩) remaining).isSome <;>
                simp [hr, settle, bindBody]

theorem bindBody_eq_ok_iff {source : ChainSource E} {singleton : IdentitySingleton}
    {chosen : ChainStoreState} {p : IdentityProfile} :
    bindBody source singleton chosen = .ok p ↔
      p.singleton = singleton ∧ chosen = ⟨p.store, p.root⟩ ∧
        source.fetchProfile p.store p.root = .ok p.metadata ∧ p.metadata.buildRoot = .ok p.root := by
  unfold bindBody
  constructor
  · intro h
    obtain ⟨content, hfetch, h⟩ := bind_eq_ok.mp h
    obtain ⟨root, hroot, h⟩ := bind_eq_ok.mp h
    rw [mapError_eq_ok] at hfetch hroot
    by_cases hne : root = chosen.rootHash
    · obtain ⟨hs, hstore, hm, hr⟩ := resolve_eq_ok_iff.mp (mapError_eq_ok.mp (by simpa [hne] using h))
      rw [hroot, Except.ok.injEq] at hr
      have hc : chosen = ⟨p.store, p.root⟩ := by rw [hstore, ← hr, hne]
      subst hc
      rw [hm, hroot, hne]
      exact ⟨hs, rfl, hfetch, rfl⟩
    · simp [hne] at h
  · rintro ⟨hs, rfl, hfetch, hroot⟩
    have hr := resolve_eq_ok_iff.mpr ⟨hs, rfl, rfl, hroot⟩
    simp [hfetch, hroot, hr]

/-- The resolver's successes, read off the resolved profile: its store and root
are the one authentic candidate, and its body hashes to that root. -/
theorem resolveIdentityProfile_eq_ok_iff {didUri : String} {source : ChainSource E}
    {p : IdentityProfile} :
    resolveIdentityProfile didUri source = .ok p ↔
      Did.parse didUri = some p.did ∧
        source.resolveSingletonLineage p.did.launcherId = .ok (some p.singleton.lineage) ∧
        ∃ candidates, source.findStoresForDid p.did = .ok candidates ∧
          select (authenticate p.singleton) candidates = .only ⟨p.store, p.root⟩ ∧
          source.fetchProfile p.store p.root = .ok p.metadata ∧
          p.metadata.buildRoot = .ok p.root := by
  rw [resolveIdentityProfile_eq]
  constructor
  · intro h
    cases hp : Did.parse didUri with
    | none => simp [hp] at h
    | some did =>
        rcases hl : source.resolveSingletonLineage did.launcherId with e | _ | lineage
        · simp [hp, hl] at h
        · simp [hp, hl] at h
        · cases hs : source.findStoresForDid did with
          | error e => simp [hp, hl, hs] at h
          | ok candidates =>
              simp only [hp, hl, hs] at h
              cases hc : select (authenticate ⟨did, lineage⟩) candidates with
              | nothing => simp [hc, settle] at h
              | several => simp [hc, settle] at h
              | only chosen =>
                  rw [hc] at h
                  obtain ⟨hsingleton, rfl, hfetch, hroot⟩ := bindBody_eq_ok_iff.mp h
                  rw [← hsingleton] at hc
                  have hdid : p.did = did := congrArg IdentitySingleton.did hsingleton
                  have hlineage : p.singleton.lineage = lineage :=
                    congrArg IdentitySingleton.lineage hsingleton
                  subst hdid hlineage
                  exact ⟨rfl, hl, candidates, hs, hc, hfetch, hroot⟩
  · rintro ⟨hp, hl, candidates, hs, hc, hfetch, hroot⟩
    have hsingleton : (⟨p.did, p.singleton.lineage⟩ : IdentitySingleton) = p.singleton := rfl
    simp only [hp, hl, hs, hsingleton, hc, settle]
    exact bindBody_eq_ok_iff.mpr ⟨rfl, rfl, hfetch, hroot⟩

end DigIdentity.Resolvers
