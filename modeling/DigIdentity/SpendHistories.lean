import DigIdentity.References

namespace DigIdentity.SpendHistories

open ByteStrings Fallible Hashing Errors Trees Profiles Addresses Dids Pairings IdentityProfiles
  UniqueMatch Resolvers

section Walks

variable {walk members : List Bytes32} {k : Nat}

/-- A listing of the walk up to time `k`, in any order and with repetitions;
the tip at time `k` may be left out. -/
structure Lists (walk : List Bytes32) (k : Nat) (members : List Bytes32) : Prop where
  sound : ∀ c ∈ members, c ∈ walk.take (k + 1)
  complete : ∀ c ∈ walk.take k, c ∈ members

theorem contains_iff_take (hk : k < walk.length) (hl : Lists walk k members) (c : Bytes32) :
    (SingletonLineage.new walk[k] members).contains c = true ↔ c ∈ walk.take (k + 1) := by
  rw [contains_new_iff]
  constructor
  · rintro (rfl | hc)
    · exact List.mem_take_iff_getElem.mpr ⟨k, by omega, rfl⟩
    · exact hl.sound c hc
  · intro hc
    rw [List.take_add_one, List.getElem?_eq_getElem hk] at hc
    rcases List.mem_append.mp hc with hc | hc
    · exact .inr (hl.complete c hc)
    · exact .inl (by simpa using hc)

theorem contains_getElem_iff (hw : walk.Nodup) (hk : k < walk.length) (hl : Lists walk k members)
    {i : Nat} (hi : i < walk.length) :
    (SingletonLineage.new walk[k] members).contains walk[i] = true ↔ i ≤ k := by
  rw [contains_iff_take hk hl, List.mem_take_iff_getElem]
  constructor
  · rintro ⟨j, hj, he⟩
    have hji := hw.getElem_inj_iff.mp he
    omega
  · intro hik
    exact ⟨i, by omega, rfl⟩

end Walks

section Stores

variable [AddressCodec] {walk members : List Bytes32} {k : Nat}

theorem authoritative_at_iff (hk : k < walk.length) (hl : Lists walk k members) (did : Did)
    (store : StoreRecord) :
    isAuthoritativeProfile store ⟨did, .new walk[k] members⟩ = true ↔
      parseDidFromDescription store.description = some did ∧
        store.launcherCoin.parentCoinInfo ∈ walk.take (k + 1) := by
  rw [authoritative_iff, parse_eq_some_iff, contains_iff_take hk hl]

theorem authoritative_later {m : Nat} (hk : k < walk.length) (hm : m < walk.length) (hkm : k ≤ m)
    {members' : List Bytes32} (hl : Lists walk k members) (hl' : Lists walk m members') (did : Did)
    (store : StoreRecord)
    (hnew : parseDidFromDescription store.description = some did → ∀ j (_ : j < walk.length),
      k < j → j ≤ m → store.launcherCoin.parentCoinInfo ≠ walk[j]) :
    isAuthoritativeProfile store ⟨did, .new walk[m] members'⟩ =
      isAuthoritativeProfile store ⟨did, .new walk[k] members⟩ := by
  rw [Bool.eq_iff_iff, authoritative_at_iff hm hl', authoritative_at_iff hk hl]
  apply and_congr_right
  intro hp
  rw [List.mem_take_iff_getElem, List.mem_take_iff_getElem]
  constructor
  · rintro ⟨j, hj, he⟩
    have hjk : ¬k < j := fun hkj => hnew hp j (by omega) hkj (by omega) he.symm
    exact ⟨j, by omega, he⟩
  · rintro ⟨j, hj, he⟩
    exact ⟨j, by omega, he⟩

end Stores

/-- Spending the DID keeps the authority of every store its coins launched, and
gives none to a store that none of them launched; a resolution that succeeded
once goes on succeeding with the same profile. -/
theorem spending_keeps_authority [AddressCodec] [Sha2] [SmtCrate] {walk : List Bytes32}
    (hw : walk.Nodup) :
    (∀ k (hk : k < walk.length) members, Lists walk k members → ∀ (did : Did) (store : StoreRecord),
      (∀ i (hi : i < walk.length), parseDidFromDescription store.description = some did →
        store.launcherCoin.parentCoinInfo = walk[i] →
        (isAuthoritativeProfile store ⟨did, .new walk[k] members⟩ = true ↔ i ≤ k)) ∧
      (store.launcherCoin.parentCoinInfo ∉ walk →
        isAuthoritativeProfile store ⟨did, .new walk[k] members⟩ = false)) ∧
    (∀ (E : Type) [ToString E] (didUri : String) (source later : ChainSource E) (p : IdentityProfile)
      k m (hk : k < walk.length) (hm : m < walk.length) members members' candidates,
      k ≤ m → Lists walk k members → Lists walk m members' →
      source.resolveSingletonLineage p.did.launcherId = .ok (some (.new walk[k] members)) →
      later.resolveSingletonLineage p.did.launcherId = .ok (some (.new walk[m] members')) →
      source.findStoresForDid p.did = .ok candidates → later.findStoresForDid p.did = .ok candidates →
      source.fetchProfile = later.fetchProfile →
      (∀ c ∈ candidates, parseDidFromDescription c.store.description = some p.did →
        c.store ≠ p.store → ∀ j (_ : j < walk.length), k < j → j ≤ m →
        c.store.launcherCoin.parentCoinInfo ≠ walk[j]) →
      resolveIdentityProfile didUri source = .ok p →
      ∃ p', resolveIdentityProfile didUri later = .ok p' ∧ p'.store = p.store ∧
        p'.metadata = p.metadata ∧ p'.keys = p.keys ∧ p'.root = p.root ∧
        p'.singleton.coinId = walk[m]) := by
  constructor
  · intro k hk members hl did store
    constructor
    · intro i hi hp hparent
      rw [authoritative_at_iff hk hl, hparent, ← contains_iff_take hk hl, contains_getElem_iff hw hk hl hi]
      simp [hp]
    · intro hout
      rw [← Bool.not_eq_true, authoritative_at_iff hk hl]
      exact fun h => hout (List.mem_of_mem_take h.2)
  · intro E _ didUri source later p k m hk hm members members' candidates hkm hl hl' hsource hlater
      hstores hstores' hfetch hothers h
    obtain ⟨hp, hlineage, _, hc, hselect, hbody, hroot⟩ := resolveIdentityProfile_eq_ok_iff.mp h
    rw [hsource, Except.ok.injEq, Option.some.injEq] at hlineage
    rw [hstores, Except.ok.injEq] at hc
    subst hc
    have hsingleton : p.singleton = ⟨p.did, .new walk[k] members⟩ := by
      rw [hlineage]
      rfl
    have hpaired : isAuthoritativeProfile p.store ⟨p.did, .new walk[k] members⟩ = true :=
      hsingleton ▸ p.paired
    -- the chosen store's own coin was spent by time k, so it is not launched again
    have hown : ∀ j (_ : j < walk.length), k < j → p.store.launcherCoin.parentCoinInfo ≠ walk[j] := by
      intro j hj hkj he
      have hin := ((authoritative_at_iff hk hl _ _).mp hpaired).2
      rw [he, ← contains_iff_take hk hl, contains_getElem_iff hw hk hl hj] at hin
      omega
    have hsame : ∀ c ∈ candidates, authenticate ⟨p.did, .new walk[m] members'⟩ c =
        authenticate p.singleton c := by
      intro c hc
      rw [hsingleton]
      refine authoritative_later hk hm hkm hl hl' p.did c.store ?_
      intro hparse j hj hkj hjm
      by_cases hstore : c.store = p.store
      · rw [hstore]
        exact hown j hj hkj
      · exact hothers c hc hparse hstore j hj hkj hjm
    have hpaired' : isAuthoritativeProfile p.store ⟨p.did, .new walk[m] members'⟩ = true := by
      rw [authoritative_later hk hm hkm hl hl' p.did p.store fun _ j hj hkj _ => hown j hj hkj]
      exact hpaired
    refine ⟨⟨⟨p.did, .new walk[m] members'⟩, p.store, p.metadata, p.root, hpaired'⟩, ?_, rfl, rfl, rfl,
      rfl, rfl⟩
    refine resolveIdentityProfile_eq_ok_iff.mpr ⟨hp, hlater, candidates, hstores', ?_, ?_, hroot⟩
    · exact (select_congr hsame).trans hselect
    · exact hfetch ▸ hbody

section Sample

open References

def sampleWalk : List Bytes32 := [coinId 1, coinId 2, coinId 3]

theorem sampleWalk_keeps_authority :
    letI := crateOf []
    let source := sampleSource publishedProfile fun _ _ => .ok publishedProfile
    let later : ChainSource String := { source with
      resolveSingletonLineage := fun _ =>
        .ok (some (.new (coinId 3) [coinId 2, coinId 1, coinId 2])) }
    isAuthoritativeProfile (storeAt didText (coinId 1)) ⟨sampleDid, .new (coinId 2) [coinId 1]⟩ = true ∧
      isAuthoritativeProfile (storeAt didText (coinId 3)) ⟨sampleDid, .new (coinId 2) [coinId 1]⟩ = false ∧
      isAuthoritativeProfile (storeAt didText (coinId 66)) ⟨sampleDid, .new (coinId 2) [coinId 1]⟩ =
        false ∧
      ∃ p, resolveIdentityProfile didText later = .ok p ∧ p.store = storeAt didText (coinId 1) ∧
        p.metadata = publishedProfile ∧ p.singleton.coinId = coinId 3 := by
  let _ := crateOf []
  have hnames (parent : Bytes32) :
      parseDidFromDescription (storeAt didText parent).description = some sampleDid := parse_didText
  have hnow : Lists sampleWalk 1 [coinId 1] := ⟨by decide +kernel, by decide +kernel⟩
  have hlater : Lists sampleWalk 2 [coinId 2, coinId 1, coinId 2] :=
    ⟨by decide +kernel, by decide +kernel⟩
  have hw : sampleWalk.Nodup := by decide +kernel
  obtain ⟨hstores, hresolver⟩ := spending_keeps_authority hw
  have hat := hstores 1 (by decide) [coinId 1] hnow sampleDid
  refine ⟨?_, ?_, ?_, ?_⟩
  · exact ((hat (storeAt didText (coinId 1))).1 0 (by decide) (hnames _) rfl).mpr (by decide)
  · rw [← Bool.not_eq_true]
    exact fun h => absurd (((hat (storeAt didText (coinId 3))).1 2 (by decide) (hnames _) rfl).mp h)
      (by decide)
  · exact (hat (storeAt didText (coinId 66))).2 (by decide +kernel)
  · have h := resolve_sampleSource [] publishedProfile (fun _ _ => .ok publishedProfile) rfl
    obtain ⟨p, hp, hstore, hmetadata, _, _, htip⟩ := hresolver String didText
      (sampleSource publishedProfile fun _ _ => .ok publishedProfile)
      { sampleSource publishedProfile (fun _ _ => .ok publishedProfile) with
        resolveSingletonLineage := fun _ =>
          .ok (some (.new (coinId 3) [coinId 2, coinId 1, coinId 2])) }
      (sampleIdentity publishedProfile) 1 2 (by decide) (by decide) [coinId 1]
      [coinId 2, coinId 1, coinId 2] (sampleCandidates publishedProfile) (by decide) hnow hlater rfl rfl
      rfl rfl rfl (by decide +kernel) h
    exact ⟨p, hp, hstore, hmetadata, htip⟩

end Sample

end DigIdentity.SpendHistories
