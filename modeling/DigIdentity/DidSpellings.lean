import DigIdentity.ResolutionOutcomes

namespace DigIdentity.DidSpellings

open ByteStrings Fallible Hashing Errors Trees Profiles Addresses Dids Pairings IdentityProfiles
  UniqueMatch Resolvers ResolutionOutcomes

section Spellings

variable [AddressCodec] {E : Type}

/-- A source that looks at the launcher id of a DID and not at its text. -/
def ByLauncherId (source : ChainSource E) : Prop :=
  ∀ did did' : Did, did.launcherId = did'.launcherId →
    source.findStoresForDid did = source.findStoresForDid did'

theorem parse_text {s : String} {did : Did} (h : Did.parse s = some did) : did.text = trim s :=
  ((parse_eq_some_iff s did).mp h).symm

theorem text_eq_of_authoritative {store : StoreRecord} {did did' : Did}
    {lineage lineage' : SingletonLineage} (h : isAuthoritativeProfile store ⟨did, lineage⟩ = true)
    (h' : isAuthoritativeProfile store ⟨did', lineage'⟩ = true) : did.text = did'.text :=
  ((authoritative_iff _ _).mp h).1.symm.trans ((authoritative_iff _ _).mp h').1

variable [ToString E] [Sha2] [SmtCrate]

theorem resolve_eq_of_trim_eq {s t : String} (h : trim s = trim t) (source : ChainSource E) :
    resolveIdentityProfile s source = resolveIdentityProfile t source := by
  have hp : Did.parse s = Did.parse t := by
    ext did
    rw [Did.parse, Did.parse, parse_eq_some_iff, parse_eq_some_iff, h]
  rw [resolveIdentityProfile_eq, resolveIdentityProfile_eq, hp]

/-- Up to the selection of a candidate two spellings take the same steps. -/
theorem resolve_eq_of_no_scan {s t : String} {did did' : Did} (hs : Did.parse s = some did)
    (ht : Did.parse t = some did') (hid : did.launcherId = did'.launcherId) {source : ChainSource E}
    (hsource : ByLauncherId source)
    (hscan : ∀ lineage candidates, source.resolveSingletonLineage did.launcherId = .ok (some lineage) →
      source.findStoresForDid did ≠ .ok candidates) :
    resolveIdentityProfile s source = resolveIdentityProfile t source := by
  rw [resolveIdentityProfile_eq, resolveIdentityProfile_eq]
  simp only [hs, ht, ← hid, ← hsource did did' hid]
  rcases hl : source.resolveSingletonLineage did.launcherId with e | _ | lineage
  · rfl
  · rfl
  · cases hc : source.findStoresForDid did with
    | error e => rfl
    | ok candidates => exact absurd hc (hscan lineage candidates hl)

end Spellings

/-- A DID is its trimmed text. Whitespace around a DID never matters; another
spelling of the launcher id is another DID, with stores of its own. -/
theorem same_did_iff_same_text [AddressCodec] [Sha2] [SmtCrate] {s t : String} {did did' : Did}
    (hs : Did.parse s = some did) (ht : Did.parse t = some did')
    (hid : did.launcherId = did'.launcherId) :
    (∀ (store : StoreRecord) (singleton : IdentitySingleton), store.description = t →
      singleton.did = did →
      ((evaluatePairing store singleton).discoveryMatches = true ↔ trim s = trim t)) ∧
    (∀ (E : Type) [ToString E] (source : ChainSource E), ByLauncherId source →
      (trim s = trim t → resolveIdentityProfile s source = resolveIdentityProfile t source) ∧
      ((∀ lineage candidates, source.resolveSingletonLineage did.launcherId = .ok (some lineage) →
          source.findStoresForDid did ≠ .ok candidates) →
        resolveIdentityProfile s source = resolveIdentityProfile t source) ∧
      (∀ p q, resolveIdentityProfile s source = .ok p → resolveIdentityProfile t source = .ok q →
        (p.store = q.store ↔ trim s = trim t)) ∧
      (∀ lineage candidates, source.resolveSingletonLineage did.launcherId = .ok (some lineage) →
        source.findStoresForDid did = .ok candidates → TwoPass ⟨did, lineage⟩ candidates →
        trim s = trim t →
        resolveIdentityProfile s source = .error .ambiguousProfile ∧
          resolveIdentityProfile t source = .error .ambiguousProfile)) := by
  refine ⟨?_, ?_⟩
  · rintro store singleton rfl rfl
    rw [discovery_iff, parse_text hs]
    exact eq_comm
  · intro E _ source hsource
    refine ⟨fun h => resolve_eq_of_trim_eq h source, resolve_eq_of_no_scan hs ht hid hsource, ?_, ?_⟩
    · intro p q hp hq
      constructor
      · intro hstore
        have hpd := (resolveIdentityProfile_eq_ok_iff.mp hp).1
        have hqd := (resolveIdentityProfile_eq_ok_iff.mp hq).1
        have htext : p.did.text = q.did.text := text_eq_of_authoritative p.paired (hstore ▸ q.paired)
        rwa [parse_text hpd, parse_text hqd] at htext
      · intro h
        rw [resolve_eq_of_trim_eq h source, hq] at hp
        rw [Except.ok.inj hp]
    · intro lineage candidates hl hc htwo h
      have ha := resolve_of_outcome (.ambiguousProfile did lineage candidates hs hl hc htwo)
      exact ⟨ha, resolve_eq_of_trim_eq h source ▸ ha⟩

section Sample

open References

def bothSpellings (p : Profile) : ChainSource String where
  resolveSingletonLineage _ := .ok (some sampleLineage)
  findStoresForDid _ :=
    .ok [⟨storeAt didText (coinId 1), rootOf p⟩, ⟨storeAt didUpper (coinId 2), rootOf p⟩]
  fetchProfile _ _ := .ok p

def upperIdentity (p : Profile) : IdentityProfile where
  singleton := ⟨upperDid, sampleLineage⟩
  store := storeAt didUpper (coinId 2)
  metadata := p
  root := rootOf p
  paired := (authoritative_iff _ _).mpr ⟨upperDid.trimmed, by decide +kernel⟩

theorem upper_not_lower :
    isAuthoritativeProfile (storeAt didUpper (coinId 2)) ⟨sampleDid, sampleLineage⟩ = false := by
  decide +kernel

theorem lower_not_upper :
    isAuthoritativeProfile (storeAt didText (coinId 1)) ⟨upperDid, sampleLineage⟩ = false := by
  decide +kernel

theorem resolve_didText (p : Profile) :
    letI := crateOf []
    resolveIdentityProfile didText (bothSpellings p) = .ok (sampleIdentity p) := by
  let _ := crateOf []
  refine resolveIdentityProfile_eq_ok_iff.mpr
    ⟨parse_didText, rfl, _, rfl, ?_, rfl, buildRoot_rootOf [] p⟩
  rw [select_only_iff]
  refine ⟨(sampleIdentity p).paired, [], [⟨storeAt didUpper (coinId 2), rootOf p⟩], rfl, ?_⟩
  intro other ho
  rw [List.nil_append, List.mem_singleton] at ho
  rw [ho]
  exact upper_not_lower

theorem resolve_didUpper (p : Profile) :
    letI := crateOf []
    resolveIdentityProfile didUpper (bothSpellings p) = .ok (upperIdentity p) := by
  let _ := crateOf []
  refine resolveIdentityProfile_eq_ok_iff.mpr
    ⟨parse_didUpper, rfl, _, rfl, ?_, rfl, buildRoot_rootOf [] p⟩
  rw [select_only_iff]
  refine ⟨(upperIdentity p).paired, [⟨storeAt didText (coinId 1), rootOf p⟩], [], rfl, ?_⟩
  intro other ho
  rw [List.append_nil, List.mem_singleton] at ho
  rw [ho]
  exact lower_not_upper

/-- Two spellings of one launcher id do not discover each other's store, and
each resolves a store of its own from one and the same chain. -/
theorem two_spellings_two_stores :
    letI := crateOf []
    Did.parse didText = some sampleDid ∧ Did.parse didUpper = some upperDid ∧
      sampleDid.launcherId = upperDid.launcherId ∧
      (evaluatePairing (storeAt didUpper (coinId 2)) ⟨sampleDid, sampleLineage⟩).discoveryMatches =
        false ∧
      ByLauncherId (bothSpellings sampleProfile) ∧
      resolveIdentityProfile didText (bothSpellings sampleProfile) =
        .ok (sampleIdentity sampleProfile) ∧
      resolveIdentityProfile didUpper (bothSpellings sampleProfile) =
        .ok (upperIdentity sampleProfile) ∧
      (sampleIdentity sampleProfile).store ≠ (upperIdentity sampleProfile).store := by
  let _ := crateOf []
  refine ⟨parse_didText, parse_didUpper, rfl, by decide +kernel, fun _ _ _ => rfl, ?_, ?_, ?_⟩
  · exact resolve_didText sampleProfile
  · exact resolve_didUpper sampleProfile
  · decide +kernel

theorem didText_spellings :
    letI := crateOf []
    ((evaluatePairing (storeAt didUpper (coinId 2)) ⟨sampleDid, sampleLineage⟩).discoveryMatches =
        true ↔ trim didText = trim didUpper) ∧
      ((sampleIdentity sampleProfile).store = (upperIdentity sampleProfile).store ↔
        trim didText = trim didUpper) := by
  let _ := crateOf []
  obtain ⟨hdiscovery, hsources⟩ := same_did_iff_same_text parse_didText parse_didUpper rfl
  obtain ⟨_, _, hstores, _⟩ := hsources String (bothSpellings sampleProfile) fun _ _ _ => rfl
  exact ⟨hdiscovery _ ⟨sampleDid, sampleLineage⟩ rfl rfl,
    hstores _ _ (resolve_didText sampleProfile) (resolve_didUpper sampleProfile)⟩

end Sample

end DigIdentity.DidSpellings
