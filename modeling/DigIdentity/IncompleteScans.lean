import DigIdentity.Interference

namespace DigIdentity.IncompleteScans

open ByteStrings Fallible Hashing Errors Trees Profiles Addresses Dids Pairings IdentityProfiles
  UniqueMatch Resolvers Authorities Runs ChainWorlds WorldSources Provenance ThirdPartyStores
  Interference

section Scans

variable [AddressCodec] {E : Type} {walks scan : World} {source : ChainSource E} {did : Did}
  {lineage : SingletonLineage}

/-- A source that may miss stores, as a lagging index does: the stores it lists
that name the DID are some of those in the world `scan`. -/
structure Omits (walks scan : World) (source : ChainSource E) : Prop where
  lineage : ∀ launcherId answer, source.resolveSingletonLineage launcherId = .ok answer →
    answer = walks.lineage launcherId
  stores : ∀ did found, source.findStoresForDid did = .ok found →
    (found.filter (names did)).Subperm ((scan.stores.map StoreSingleton.state).filter (names did))

theorem matches_subperm (hl : walks.lineage did.launcherId = some lineage) {found : List ChainStoreState}
    (hf : (found.filter (names did)).Subperm
      ((scan.stores.map StoreSingleton.state).filter (names did))) :
    (found.filter (authenticate ⟨did, lineage⟩)).Subperm
      (published scan.stores (walks.walk did.launcherId) did) := by
  rw [filter_authenticate hl, published_eq_filter]
  exact hf.filter _

variable [ToString E] [Sha2] [SmtCrate] {didUri : String}

theorem published_of_resolve (ho : Omits walks scan source) {p : IdentityProfile}
    (h : resolveIdentityProfile didUri source = .ok p) :
    ⟨p.store, p.root⟩ ∈ published scan.stores (walks.walk p.did.launcherId) p.did := by
  obtain ⟨_, hl, found, hs, hselect, _⟩ := resolveIdentityProfile_eq_ok_iff.mp h
  have hlineage := (ho.lineage _ _ hl).symm
  refine (matches_subperm hlineage (ho.stores _ _ hs)).subset ?_
  rw [show (⟨p.did, p.singleton.lineage⟩ : IdentitySingleton) = p.singleton from rfl]
  rw [select_eq_ofMatches, ofMatches_eq_only_iff] at hselect
  rw [hselect]
  exact List.mem_singleton_self _

end Scans

/-- What a source that misses stores can do: hide the profile, or hide that the
DID has several. It never makes a profile of a store that no spend of the DID in
the run launched, or that somebody unauthorized has written last. -/
theorem omissions_only_hide [AddressCodec] [Sha2] [SmtCrate] {E : Type} [ToString E]
    {walks scan : World} {past since : Log} (hwalks : Trace Step .genesis past walks)
    (hscan : Trace Step walks since scan) {source lagging : ChainSource E}
    (hr : Reports walks scan source) (ha : Answers source) (ho : Omits walks scan lagging)
    (ha' : Answers lagging) (hbody : lagging.fetchProfile = source.fetchProfile) (didUri : String) :
    (resolveIdentityProfile didUri lagging = resolveIdentityProfile didUri source ∨
      resolveIdentityProfile didUri lagging = .error .noProfile ∨
      resolveIdentityProfile didUri source = .error .ambiguousProfile) ∧
    (∀ p, resolveIdentityProfile didUri lagging = .ok p →
      LaunchedIn p.did.launcherId p.store.launcherCoin (past ++ since) ∧
      WrittenIn p.did.launcherId ⟨p.store, p.root⟩ .genesis (past ++ since)) := by
  constructor
  · cases hp : Did.parse didUri with
    | none =>
        left
        rw [resolveIdentityProfile_eq, resolveIdentityProfile_eq, hp]
    | some did =>
        obtain ⟨answer, hl⟩ := ha'.lineage did.launcherId
        obtain ⟨found, hs⟩ := ha'.stores did
        rw [resolve_eq hr ha hp, resolveIdentityProfile_eq]
        simp only [hp, hl, hs]
        rw [ho.lineage _ _ hl]
        cases hw : walks.lineage did.launcherId with
        | none => exact .inl rfl
        | some lineage =>
            dsimp only
            rw [select_eq_ofMatches, settle_congr hbody]
            rcases ofMatches_subperm (matches_subperm hw (ho.stores _ _ hs)) with h | h | h
            · exact .inl (by rw [h])
            · exact .inr (.inl (by rw [h, settle]))
            · exact .inr (.inr (by rw [h, settle]))
  · intro p h
    exact provenance_of_standing (hwalks.append hscan)
      (standing_of_published hscan.run (published_of_resolve ho h))

section Sample

open References

def spoofedLog (p : Profile) : Log :=
  publishedLog p ++
    [(.launchStore ⟨⟨storeAt didText (coinId 66), coinId 0⟩, coinId 66, []⟩, spoofedWorld p)]

/-- A source that has not seen the spoofed store yet. -/
theorem laggingSource_provenance :
    letI := crateOf []
    let body : StoreRecord → Bytes32 → Except String Profile := fun _ _ => .ok sampleProfile
    ∃ q, resolveIdentityProfile didText (honest (publishedWorld sampleProfile) body) = .ok q ∧
      LaunchedIn (coinId 42) ⟨coinId 1, coinId 9, 1⟩ (spoofedLog sampleProfile) ∧
      WrittenIn (coinId 42) ⟨storeAt didText (coinId 1), rootOf sampleProfile⟩ .genesis
        (spoofedLog sampleProfile) := by
  let _ := crateOf []
  intro body
  have ho : Omits (spoofedWorld sampleProfile) (spoofedWorld sampleProfile)
      (honest (publishedWorld sampleProfile) body) := by
    refine ⟨fun _ _ h => (Except.ok.inj h).symm, fun did found h => ?_⟩
    cases h
    rw [spoofedWorld, List.map_append, List.filter_append]
    exact (List.sublist_append_left _ _).subperm
  have hlaunch := Trace.single (launch_spoofedWorld sampleProfile)
  obtain ⟨q, hq, hdid, hstore, _, hroot⟩ := resolve_publishedWorld sampleProfile
  obtain ⟨_, hfound⟩ := omissions_only_hide ((trace_publishedWorld sampleProfile).append hlaunch) (.nil _)
    (honest_reports (spoofedWorld sampleProfile) body) (honest_answers ..) ho (honest_answers ..) rfl
    didText
  obtain ⟨hlaunched, hwritten⟩ := hfound q hq
  rw [hdid, hstore, List.append_nil] at hlaunched
  rw [hdid, hstore, hroot, List.append_nil] at hwritten
  exact ⟨q, hq, hlaunched, hwritten⟩

end Sample

end DigIdentity.IncompleteScans
