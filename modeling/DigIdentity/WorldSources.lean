import DigIdentity.ChainWorlds

namespace DigIdentity.WorldSources

open ByteStrings Fallible Hashing Errors Trees Profiles Addresses Dids Pairings IdentityProfiles
  UniqueMatch Resolvers ChainWorlds

variable [AddressCodec] {E : Type}

def names (did : Did) (c : ChainStoreState) : Bool :=
  decide (parseDidFromDescription c.store.description = some did)

/-- An honest source: what it tells of a DID is true in the world `walks`, and
the stores it lists are those of the world `scan`. It may fail, list stores that
name some other DID, and serve any body. -/
structure Reports (walks scan : World) (source : ChainSource E) : Prop where
  lineage : ∀ launcherId answer, source.resolveSingletonLineage launcherId = .ok answer →
    answer = walks.lineage launcherId
  stores : ∀ did found, source.findStoresForDid did = .ok found →
    (found.filter (names did)).Perm ((scan.stores.map StoreSingleton.state).filter (names did))

structure Answers (source : ChainSource E) : Prop where
  lineage : ∀ launcherId, ∃ answer, source.resolveSingletonLineage launcherId = .ok answer
  stores : ∀ did, ∃ found, source.findStoresForDid did = .ok found

/-- A source that tells all of the chain and leaves the bodies to a server. -/
def honest (w : World) (body : StoreRecord → Bytes32 → Except E Profile) : ChainSource E where
  resolveSingletonLineage launcherId := .ok (w.lineage launcherId)
  findStoresForDid _ := .ok (w.stores.map StoreSingleton.state)
  fetchProfile := body

theorem honest_reports (w : World) (body : StoreRecord → Bytes32 → Except E Profile) :
    Reports w w (honest w body) where
  lineage _ _ h := (Except.ok.inj h).symm
  stores _ _ h := by
    cases h
    exact .refl _

theorem honest_answers (w : World) (body : StoreRecord → Bytes32 → Except E Profile) :
    Answers (honest w body) := ⟨fun _ => ⟨_, rfl⟩, fun _ => ⟨_, rfl⟩⟩

/-- The stores that name the DID and were launched from one of the coins. -/
def published (stores : List StoreSingleton) (walk : List Bytes32) (did : Did) :
    List ChainStoreState :=
  (stores.map StoreSingleton.state).filter fun c =>
    names did c && walk.contains c.store.launcherCoin.parentCoinInfo

theorem mem_published_iff {stores : List StoreSingleton} {walk : List Bytes32} {did : Did}
    {c : ChainStoreState} :
    c ∈ published stores walk did ↔
      ∃ s ∈ stores, s.state = c ∧ names did c = true ∧ s.parent ∈ walk := by
  simp only [published, List.mem_filter, List.mem_map, Bool.and_eq_true, List.contains_iff_mem]
  constructor
  · rintro ⟨⟨s, hs, rfl⟩, hn, hp⟩
    exact ⟨s, hs, rfl, hn, hp⟩
  · rintro ⟨s, hs, rfl, hn, hp⟩
    exact ⟨⟨s, hs, rfl⟩, hn, hp⟩

theorem published_append (stores stores' : List StoreSingleton) (walk : List Bytes32) (did : Did) :
    published (stores ++ stores') walk did = published stores walk did ++ published stores' walk did := by
  simp [published]

theorem published_eq_nil_iff {stores : List StoreSingleton} {walk : List Bytes32} {did : Did} :
    published stores walk did = [] ↔ ∀ s ∈ stores, names did s.state = true → s.parent ∉ walk := by
  rw [List.eq_nil_iff_forall_not_mem]
  simp only [mem_published_iff, not_exists, not_and]
  constructor
  · intro h s hs hn hp
    exact h s.state s hs rfl hn hp
  · rintro h _ s hs rfl hn hp
    exact h s hs hn hp

theorem published_singleton {s : StoreSingleton} {walk : List Bytes32} {did : Did}
    (hn : names did s.state = true) (hp : s.parent ∈ walk) : published [s] walk did = [s.state] := by
  have hp' : s.state.store.launcherCoin.parentCoinInfo ∈ walk := hp
  simp [published, hn, hp']

/-- Fewer coins publish fewer stores, and leave those whose parents remain. -/
theorem published_mono {stores : List StoreSingleton} {walk walk' : List Bytes32} (did : Did)
    (h : walk ⊆ walk') :
    published stores walk did = (published stores walk' did).filter fun c =>
      walk.contains c.store.launcherCoin.parentCoinInfo := by
  rw [published, published, List.filter_filter]
  refine List.filter_congr ?_
  intro c _
  by_cases hc : c.store.launcherCoin.parentCoinInfo ∈ walk
  · simp [hc, h hc]
  · simp [hc]

theorem published_congr {stores : List StoreSingleton} {walk walk' : List Bytes32} (did : Did)
    (h : ∀ s ∈ stores, s.parent ∈ walk ↔ s.parent ∈ walk') :
    published stores walk did = published stores walk' did := by
  refine List.filter_congr ?_
  intro c hc
  obtain ⟨s, hs, rfl⟩ := List.mem_map.mp hc
  refine congrArg (names did s.state && ·) (Bool.eq_iff_iff.mpr ?_)
  rw [List.contains_iff_mem, List.contains_iff_mem]
  exact h s hs

section Selection

variable {walks scan : World} {did : Did} {lineage : SingletonLineage}

theorem authenticate_eq (hl : walks.lineage did.launcherId = some lineage) (c : ChainStoreState) :
    authenticate ⟨did, lineage⟩ c =
      (names did c && (walks.walk did.launcherId).contains c.store.launcherCoin.parentCoinInfo) := by
  rw [Bool.eq_iff_iff, authenticate, authoritative_iff, ← parse_eq_some_iff, contains_of_lineage hl,
    Bool.and_eq_true, names, decide_eq_true_iff, List.contains_iff_mem]

theorem filter_authenticate (hl : walks.lineage did.launcherId = some lineage)
    (l : List ChainStoreState) :
    l.filter (authenticate ⟨did, lineage⟩) = (l.filter (names did)).filter fun c =>
      (walks.walk did.launcherId).contains c.store.launcherCoin.parentCoinInfo := by
  rw [List.filter_filter]
  exact List.filter_congr fun c _ => (authenticate_eq hl c).trans (Bool.and_comm ..)

theorem published_eq_filter (stores : List StoreSingleton) (walk : List Bytes32) (did : Did) :
    published stores walk did = ((stores.map StoreSingleton.state).filter (names did)).filter fun c =>
      walk.contains c.store.launcherCoin.parentCoinInfo := by
  rw [published, List.filter_filter]
  exact List.filter_congr fun _ _ => Bool.and_comm ..

/-- Only the stores that name the DID matter to the selection, so an honest scan
may list the others as it likes. -/
theorem select_scan (hl : walks.lineage did.launcherId = some lineage) {found : List ChainStoreState}
    (hf : (found.filter (names did)).Perm ((scan.stores.map StoreSingleton.state).filter (names did))) :
    select (authenticate ⟨did, lineage⟩) found =
      ofMatches (published scan.stores (walks.walk did.launcherId) did) := by
  rw [select_eq_ofMatches, filter_authenticate hl, published_eq_filter]
  exact ofMatches_perm (hf.filter _)

end Selection

section Resolution

variable [ToString E] [Sha2] [SmtCrate] {walks scan : World} {source : ChainSource E} {didUri : String}

/-- A resolution that asks an honest and answering source: all it depends on is
the DID's lineage, its published stores and the bodies served. -/
theorem resolve_eq (hr : Reports walks scan source) (ha : Answers source) {did : Did}
    (hp : Did.parse didUri = some did) :
    resolveIdentityProfile didUri source =
      match walks.lineage did.launcherId with
      | none => .error .noIdentitySingleton
      | some lineage => settle source ⟨did, lineage⟩
          (ofMatches (published scan.stores (walks.walk did.launcherId) did)) := by
  obtain ⟨answer, hl⟩ := ha.lineage did.launcherId
  obtain ⟨found, hs⟩ := ha.stores did
  rw [resolveIdentityProfile_eq]
  simp only [hp, hl, hs]
  rw [hr.lineage _ _ hl]
  cases hw : walks.lineage did.launcherId with
  | none => rfl
  | some lineage =>
      dsimp only
      rw [select_scan hw (hr.stores did found hs)]

/-- What a success says about the worlds that were read. -/
theorem of_resolve (hr : Reports walks scan source) {p : IdentityProfile}
    (h : resolveIdentityProfile didUri source = .ok p) :
    Did.parse didUri = some p.did ∧ walks.lineage p.did.launcherId = some p.singleton.lineage ∧
      published scan.stores (walks.walk p.did.launcherId) p.did = [⟨p.store, p.root⟩] ∧
      source.fetchProfile p.store p.root = .ok p.metadata ∧ p.metadata.buildRoot = .ok p.root := by
  obtain ⟨hp, hl, found, hs, hselect, hfetch, hroot⟩ := resolveIdentityProfile_eq_ok_iff.mp h
  have hlineage := (hr.lineage _ _ hl).symm
  have hsel := select_scan hlineage (hr.stores _ _ hs)
  rw [show (⟨p.did, p.singleton.lineage⟩ : IdentitySingleton) = p.singleton from rfl, hselect, eq_comm,
    ofMatches_eq_only_iff] at hsel
  exact ⟨hp, hlineage, hsel, hfetch, hroot⟩

/-- The converse, for a source that answers: one published store and a body that
hashes to its root. -/
theorem resolve_of_published (hr : Reports walks scan source) (ha : Answers source) {did : Did}
    {lineage : SingletonLineage} {c : ChainStoreState} {body : Profile}
    (hp : Did.parse didUri = some did) (hl : walks.lineage did.launcherId = some lineage)
    (hone : published scan.stores (walks.walk did.launcherId) did = [c])
    (hfetch : source.fetchProfile c.store c.rootHash = .ok body) (hroot : body.buildRoot = .ok c.rootHash) :
    ∃ p, resolveIdentityProfile didUri source = .ok p ∧ p.singleton = ⟨did, lineage⟩ ∧
      p.store = c.store ∧ p.metadata = body ∧ p.root = c.rootHash := by
  have hmem : c ∈ published scan.stores (walks.walk did.launcherId) did := by simp [hone]
  have hauth : authenticate ⟨did, lineage⟩ c = true := by
    rw [authenticate_eq hl]
    exact (List.mem_filter.mp hmem).2
  refine ⟨⟨⟨did, lineage⟩, c.store, body, c.rootHash, hauth⟩, ?_, rfl, rfl, rfl, rfl⟩
  rw [resolve_eq hr ha hp, hl, hone]
  exact bindBody_eq_ok_iff.mpr ⟨rfl, rfl, hfetch, hroot⟩

end Resolution

end DigIdentity.WorldSources
