import DigIdentity.Interference

namespace DigIdentity.PairingHistories

open ByteStrings Profiles Addresses Dids Pairings Resolvers Runs ChainWorlds WorldSources Provenance
  Interference

/-- Some spend of the DID launched a store with this launcher coin. -/
def LaunchedBy (launcherId : Bytes32) (launcher : Coin) (w : World) : Prop :=
  ∃ u v next launched s, Run .genesis u ∧ Step u (.spendDid launcherId next launched) v ∧ Run v w ∧
    s ∈ launched ∧ s.launcherCoin = launcher

def Present (launcher : Coin) (w : World) : Prop := ∃ s ∈ w.stores, s.launcherCoin = launcher

section Walks

variable {w w' : World} {launcherId : Bytes32} {launcher : Coin}

theorem launchedBy_of_launched (hw : Run .genesis w) (h : Launched launcherId launcher w) :
    LaunchedBy launcherId launcher w := by
  obtain ⟨log, hlog⟩ := exists_trace hw
  obtain ⟨next, launched, v, s, hin, hs, hcoin⟩ :=
    launchedIn_of_trace hlog disjoint_genesis (not_launched_genesis _) h
  obtain ⟨before, after, rfl⟩ := List.append_of_mem hin
  obtain ⟨u, hu, hstep, hv⟩ := hlog.split
  exact ⟨u, v, next, launched, s, hu.run, hstep, hv.run, hs, hcoin⟩

theorem parent_mem_of_launchedBy (h : LaunchedBy launcherId launcher w) :
    launcher.parentCoinInfo ∈ w.walk launcherId := by
  obtain ⟨u, v, next, launched, s, _, hstep, hv, hs, rfl⟩ := h
  refine walk_mono_run hv (walk_mono hstep ?_)
  cases hstep with
  | spendDid _ d _ _ hd _ _ hparents =>
      have htip : s.parent = d.tip := hparents s hs
      rw [walk_of_some hd]
      change s.parent ∈ d.walk
      rw [htip]
      exact List.mem_cons_self ..

/-- The walk of a DID holds the parents of the stores it launched and of no
others. -/
theorem launchedBy_iff (hw : Run .genesis w) (h : Present launcher w) :
    LaunchedBy launcherId launcher w ↔ launcher.parentCoinInfo ∈ w.walk launcherId := by
  obtain ⟨s, hs, hcoin⟩ := h
  exact ⟨parent_mem_of_launchedBy, fun hp => launchedBy_of_launched hw ⟨s, hs, hcoin, hp⟩⟩

/-- As long as a store is there, no DID comes to be its launcher that was not. -/
theorem parent_mem_keeping (h : Keeping Next (Present launcher) w w') :
    launcher.parentCoinInfo ∈ w'.walk launcherId ↔ launcher.parentCoinInfo ∈ w.walk launcherId := by
  constructor
  · intro hp
    induction h with
    | refl => exact hp
    | tail _ hstep ih =>
        obtain ⟨⟨e, he⟩, ⟨s, hs, rfl⟩, _⟩ := hstep
        exact ih (parent_mem_of_mem_step he hs hp)
  · exact walk_mono_run h.run

end Walks

/-- What the two links of a pairing say when the lineage is the chain's own: the
authority link holds for the stores that the DID launched, for no store of any
other DID, and never changes. On a lineage of the producer's choice every store
that names the DID verifies. -/
theorem pairing_tells_history [AddressCodec] {w : World} (hw : Run .genesis w) {did : Did}
    {lineage : SingletonLineage} (hl : w.lineage did.launcherId = some lineage) {s : StoreSingleton}
    (hs : s ∈ w.stores) :
    let proof : StoreOwnershipProof := ⟨⟨did, lineage⟩, s.state.store⟩
    (proof.outcome.authorityMatches = true ↔ LaunchedBy did.launcherId s.launcherCoin w) ∧
    (proof.verify = true ↔
      trim s.state.store.description = did.text ∧ LaunchedBy did.launcherId s.launcherCoin w) ∧
    (∀ (did' : Did) lineage', w.lineage did'.launcherId = some lineage' →
      (StoreOwnershipProof.mk ⟨did', lineage'⟩ s.state.store).outcome.authorityMatches = true →
      proof.outcome.authorityMatches = true → did'.launcherId = did.launcherId) ∧
    (∀ w' lineage' (s' : StoreSingleton), Keeping Next (Present s.launcherCoin) w w' →
      w'.lineage did.launcherId = some lineage' → s'.launcherCoin = s.launcherCoin →
      (StoreOwnershipProof.mk ⟨did, lineage'⟩ s'.state.store).outcome.authorityMatches =
        proof.outcome.authorityMatches) ∧
    (trim s.state.store.description = did.text →
      ∃ forged, (StoreOwnershipProof.mk ⟨did, forged⟩ s.state.store).verify = true) := by
  intro proof
  have hpresent : Present s.launcherCoin w := ⟨s, hs, rfl⟩
  have hauthority : proof.outcome.authorityMatches = true ↔ s.parent ∈ w.walk did.launcherId :=
    contains_of_lineage hl
  refine ⟨hauthority.trans (launchedBy_iff hw hpresent).symm, ?_, ?_, ?_, ?_⟩
  · rw [launchedBy_iff hw hpresent]
    exact (authoritative_iff _ _).trans (and_congr_right fun _ => hauthority)
  · intro did' lineage' hl' h' h
    exact disjoint_run hw disjoint_genesis _ _ _ ((contains_of_lineage hl').mp h') (hauthority.mp h)
  · intro w' lineage' s' hkeep hl' hcoin
    have hlater : (StoreOwnershipProof.mk ⟨did, lineage'⟩ s'.state.store).outcome.authorityMatches = true ↔
        s'.parent ∈ w'.walk did.launcherId := contains_of_lineage hl'
    rw [Bool.eq_iff_iff, hlater, hauthority, StoreSingleton.parent, hcoin]
    exact parent_mem_keeping hkeep
  · intro hname
    refine ⟨.new s.parent [], (authoritative_iff _ _).mpr ⟨hname, ?_⟩⟩
    exact (contains_new_iff ..).mpr (.inl rfl)

section Sample

open References

/-- A spoofed store beside the DID's own: only the latter's link holds, though
the spoofer can make a bundle that verifies. -/
theorem spoofedStore_history :
    let own : StoreOwnershipProof :=
      ⟨⟨sampleDid, .new (coinId 2) [coinId 1, coinId 42]⟩, (sampleStore sampleProfile).state.store⟩
    let spoof : StoreRecord := storeAt didText (coinId 66)
    own.verify = true ∧
      (StoreOwnershipProof.mk own.singleton spoof).outcome.authorityMatches = false ∧
      ∃ forged, (StoreOwnershipProof.mk ⟨sampleDid, forged⟩ spoof).verify = true := by
  intro own spoof
  have hrun : Run .genesis (spoofedWorld sampleProfile) :=
    (run_publishedWorld sampleProfile).trans (run_spoofedWorld sampleProfile)
  have hl : (spoofedWorld sampleProfile).lineage sampleDid.launcherId =
      some (.new (coinId 2) [coinId 1, coinId 42]) := lineage_eq_some_iff.mpr ⟨_, rfl, rfl, rfl⟩
  have hname : trim didText = sampleDid.text := (parse_eq_some_iff _ _).mp parse_didText
  have hin : sampleStore sampleProfile ∈ (spoofedWorld sampleProfile).stores := by
    simp [spoofedWorld, publishedWorld]
  obtain ⟨_, hverify, _⟩ := pairing_tells_history hrun hl hin
  obtain ⟨hspoof, _, _, _, htrap⟩ := pairing_tells_history hrun hl
    (s := ⟨⟨storeAt didText (coinId 66), coinId 0⟩, coinId 66, []⟩) (by simp [spoofedWorld])
  refine ⟨?_, ?_, htrap hname⟩
  · have hparent : (sampleStore sampleProfile).launcherCoin.parentCoinInfo ∈
        (spoofedWorld sampleProfile).walk sampleDid.launcherId :=
      walk_mono_run (run_spoofedWorld sampleProfile) (parent_mem_publishedWorld sampleProfile)
    exact hverify.mpr ⟨hname, (launchedBy_iff hrun ⟨_, hin, rfl⟩).mpr hparent⟩
  · rw [Bool.eq_false_iff]
    intro h
    have hparent : coinId 66 ∈ [coinId 2, coinId 1, coinId 42] := parent_mem_of_launchedBy (hspoof.mp h)
    exact absurd hparent (by decide +kernel)

end Sample

end DigIdentity.PairingHistories
