import DigIdentity.RootBinding
import DigIdentity.WorldSources

namespace DigIdentity.Provenance

open ByteStrings Fallible TreeCrate Hashing Errors Slots Values Trees Profiles TreeRefinement Addresses
  Dids Pairings IdentityProfiles UniqueMatch Resolvers RootBinding Authorities Runs ChainWorlds
  WorldSources

/-- A store launched from a coin of the DID, with the given launcher coin. -/
def Launched (launcherId : Bytes32) (launcher : Coin) (w : World) : Prop :=
  ∃ s ∈ w.stores, s.launcherCoin = launcher ∧ launcher.parentCoinInfo ∈ w.walk launcherId

/-- A store launched from a coin of the DID stands as `state` says. -/
def Standing (launcherId : Bytes32) (state : ChainStoreState) (w : World) : Prop :=
  ∃ s ∈ w.stores, s.state = state ∧ state.store.launcherCoin.parentCoinInfo ∈ w.walk launcherId

/-- The events that write the state of a DID's store: the spend of the DID that
launches it, or a spend of the store by a caller who is authorized just then and
has the right to that change. -/
inductive Writes (launcherId : Bytes32) (state : ChainStoreState) (w : World) : Event → Prop
  | launched (next : Option Bytes32) (launched : List StoreSingleton) (s : StoreSingleton) :
      s ∈ launched → s.state = state → Writes launcherId state w (.spendDid launcherId next launched)
  | spent (old s : StoreSingleton) (caller : Bytes32) :
      old ∈ w.stores → old.launcherCoin = state.store.launcherCoin → old.state ≠ state →
      s.state = state → (old.authority w.height).authorizes caller = true →
      old.Permits w.height caller (some s) → Writes launcherId state w (.spendStore old (some s) caller)

/-- One of the recorded events is a spend of the DID that launched the store. -/
def LaunchedIn (launcherId : Bytes32) (launcher : Coin) (log : Log) : Prop :=
  ∃ next launched v s, (.spendDid launcherId next launched, v) ∈ log ∧ s ∈ launched ∧
    s.launcherCoin = launcher

/-- One of the events recorded since the world `start` wrote the state, which
did not stand just before and has stood in every recorded world after. -/
def WrittenIn (launcherId : Bytes32) (state : ChainStoreState) (start : World) (log : Log) : Prop :=
  ∃ before e v after u, log = before ++ (e, v) :: after ∧ Trace Step start before u ∧
    Writes launcherId state u e ∧ ¬Standing launcherId state u ∧
    ∀ x ∈ (e, v) :: after, Standing launcherId state x.2

section Steps

variable {w w' : World} {e : Event} {launcherId : Bytes32} {s : StoreSingleton}

/-- No coin of a DID becomes the parent of a store that was there before: the
parents of the stores are never fresh. -/
theorem parent_mem_of_mem_step (h : Step w e w') (hs : s ∈ w.stores)
    (hp : s.parent ∈ w'.walk launcherId) : s.parent ∈ w.walk launcherId := by
  by_contra hout
  exact (fresh_of_joined h hp hout).2.parents s hs rfl

/-- A store that arrives with a coin of the DID as its parent was launched by
the DID, or was the DID's already. -/
theorem arrives_from_did (h : Step w e w') (hw : w.Disjoint) (ha : Arrives w s e)
    (hp : s.parent ∈ w'.walk launcherId) :
    (∃ next launched, e = .spendDid launcherId next launched ∧ s ∈ launched) ∨
      ∃ old caller, e = .spendStore old (some s) caller ∧ old ∈ w.stores ∧
        s.launcherCoin = old.launcherCoin ∧ old.parent ∈ w.walk launcherId ∧
        old.Permits w.height caller (some s) := by
  cases ha with
  | launched id d next launched hd hs htip =>
      left
      have htip' : s.parent ∈ w.walk id := by
        rw [walk_of_some hd, htip]
        exact List.mem_cons_self ..
      have hid : id = launcherId := by
        by_cases hold : s.parent ∈ w.walk launcherId
        · exact hw id launcherId s.parent htip' hold
        · exact absurd htip' ((fresh_of_joined h hp hold).2.walks id)
      subst hid
      exact ⟨next, launched, rfl, hs⟩
  | foreign hforeign =>
      have hjoined := fresh_of_joined h hp (hforeign launcherId)
      exact nomatch hjoined.1
  | spent old caller hold hpermits =>
      right
      have hcoin : s.launcherCoin = old.launcherCoin := hpermits.launcherCoin s rfl
      have hparent : s.parent = old.parent := congrArg Coin.parentCoinInfo hcoin
      refine ⟨old, caller, rfl, hold, hcoin, ?_, hpermits⟩
      rw [hparent] at hp
      exact parent_mem_of_mem_step h hold hp

theorem launched_step (h : Step w e w') (hw : w.Disjoint) {launcher : Coin}
    (hbefore : ¬Launched launcherId launcher w) (hafter : Launched launcherId launcher w') :
    ∃ next launched s, e = .spendDid launcherId next launched ∧ s ∈ launched ∧
      s.launcherCoin = launcher := by
  obtain ⟨s, hs, rfl, hp⟩ := hafter
  rcases arrives_of_mem h hs with hold | harrives
  · exact absurd ⟨s, hold, rfl, parent_mem_of_mem_step h hold hp⟩ hbefore
  · rcases arrives_from_did h hw harrives hp with ⟨next, launched, he, hin⟩ |
      ⟨old, _, _, hold, hcoin, hparent, _⟩
    · exact ⟨next, launched, s, he, hin, rfl⟩
    · exact absurd ⟨old, hold, hcoin.symm, hcoin ▸ hparent⟩ hbefore

theorem standing_step (h : Step w e w') (hw : w.Disjoint) {state : ChainStoreState}
    (hbefore : ¬Standing launcherId state w) (hafter : Standing launcherId state w') :
    Writes launcherId state w e := by
  obtain ⟨s, hs, rfl, hp⟩ := hafter
  rcases arrives_of_mem h hs with hold | harrives
  · exact absurd ⟨s, hold, rfl, parent_mem_of_mem_step h hold hp⟩ hbefore
  · rcases arrives_from_did h hw harrives hp with ⟨next, launched, rfl, hin⟩ |
      ⟨old, caller, rfl, hold, hcoin, hparent, hpermits⟩
    · exact .launched next launched s hin rfl
    · refine .spent old s caller hold hcoin.symm ?_ rfl hpermits.authorizes hpermits
      intro he
      exact hbefore ⟨old, hold, he, he ▸ hparent⟩

end Steps

section Runs

variable {w : World} {launcherId : Bytes32}

theorem not_launched_genesis (launcher : Coin) : ¬Launched launcherId launcher .genesis := by
  rintro ⟨_, hs, _⟩
  exact nomatch hs

theorem not_standing_genesis (state : ChainStoreState) : ¬Standing launcherId state .genesis := by
  rintro ⟨_, hs, _⟩
  exact nomatch hs

theorem launchedIn_of_trace {start : World} {log : Log} (h : Trace Step start log w)
    (hstart : start.Disjoint) {launcher : Coin} (hbefore : ¬Launched launcherId launcher start)
    (hafter : Launched launcherId launcher w) : LaunchedIn launcherId launcher log := by
  obtain ⟨before, e, v, after, u, rfl, hu, hstep, hnot, hsince⟩ := h.last_established hbefore hafter
  have hv : Launched launcherId launcher v := hsince (e, v) (List.mem_cons_self ..)
  obtain ⟨next, launched, s, rfl, hs, hcoin⟩ := launched_step hstep (disjoint_run hu.run hstart) hnot hv
  exact ⟨next, launched, v, s, List.mem_append_right _ (List.mem_cons_self ..), hs, hcoin⟩

/-- A state that stands at the end of a run and not at its start was written in
it, and no world between the two lacks it. -/
theorem writtenIn_of_trace {start : World} {log : Log} (h : Trace Step start log w)
    (hstart : start.Disjoint) {state : ChainStoreState} (hbefore : ¬Standing launcherId state start)
    (hafter : Standing launcherId state w) : WrittenIn launcherId state start log := by
  obtain ⟨before, e, v, after, u, rfl, hu, hstep, hnot, hsince⟩ := h.last_established hbefore hafter
  have hv : Standing launcherId state v := hsince (e, v) (List.mem_cons_self ..)
  exact ⟨before, e, v, after, u, rfl, hu, standing_step hstep (disjoint_run hu.run hstart) hnot hv, hnot,
    hsince⟩

/-- What was written late in a run was written in the run. -/
theorem WrittenIn.prepend {start u : World} {earlier log : Log} {state : ChainStoreState}
    (h : WrittenIn launcherId state u log) (hu : Trace Step start earlier u) :
    WrittenIn launcherId state start (earlier ++ log) := by
  obtain ⟨before, e, v, after, x, rfl, hx, hwrites, hnot, hsince⟩ := h
  exact ⟨earlier ++ before, e, v, after, x, (List.append_assoc ..).symm, hu.append hx, hwrites, hnot, hsince⟩

theorem Standing.launched {state : ChainStoreState} (h : Standing launcherId state w) :
    Launched launcherId state.store.launcherCoin w := by
  obtain ⟨s, hs, rfl, hp⟩ := h
  exact ⟨s, hs, rfl, hp⟩

/-- What stands on the chain was launched and written in the run that led there. -/
theorem provenance_of_standing {log : Log} (h : Trace Step .genesis log w) {state : ChainStoreState}
    (hs : Standing launcherId state w) :
    LaunchedIn launcherId state.store.launcherCoin log ∧ WrittenIn launcherId state .genesis log :=
  ⟨launchedIn_of_trace h disjoint_genesis (not_launched_genesis _) hs.launched,
    writtenIn_of_trace h disjoint_genesis (not_standing_genesis _) hs⟩

/-- What a reader finds published, which learns the DID's coins first and scans
the stores later, stands when they are scanned. -/
theorem standing_of_published [AddressCodec] {walks scan : World} (hscan : Run walks scan) {did : Did}
    {state : ChainStoreState} (hin : state ∈ published scan.stores (walks.walk did.launcherId) did) :
    Standing did.launcherId state scan := by
  obtain ⟨s, hs, rfl, _, hparent⟩ := mem_published_iff.mp hin
  exact ⟨s, hs, rfl, walk_mono_run hscan hparent⟩

end Runs

/-- Where a resolved profile comes from, whatever has happened on the chain and
between the two reads of it: a spend of the DID launched the store, a caller
with the right to it last wrote its description and root, they have stood in
every world of the run since, and only one body has that root. -/
theorem resolved_profile_provenance [AddressCodec] [Sha2] [SmtCrate] {E : Type} [ToString E]
    (hd : crate.Documented) {walks scan : World} {past since : Log}
    (hwalks : Trace Step .genesis past walks) (hscan : Trace Step walks since scan)
    {source : ChainSource E} (hr : Reports walks scan source) {didUri : String} {p : IdentityProfile}
    (h : resolveIdentityProfile didUri source = .ok p) :
    Did.parse didUri = some p.did ∧
      (∃ d, walks.dids p.did.launcherId = some d ∧ d.live = true ∧ d.tip = p.singleton.coinId) ∧
      LaunchedIn p.did.launcherId p.store.launcherCoin (past ++ since) ∧
      WrittenIn p.did.launcherId ⟨p.store, p.root⟩ .genesis (past ++ since) ∧
      (∀ q, q.buildRoot = .ok p.root → Unforged p.metadata q → p.metadata = q) := by
  obtain ⟨hp, hl, hone, _, hroot⟩ := of_resolve hr h
  have hstanding : Standing p.did.launcherId ⟨p.store, p.root⟩ scan :=
    standing_of_published hscan.run (hone ▸ List.mem_singleton_self _)
  obtain ⟨hlaunched, hwritten⟩ := provenance_of_standing (hwalks.append hscan) hstanding
  refine ⟨hp, ?_, hlaunched, hwritten, fun q hq hu => eq_of_buildRoot_eq hd hu hroot hq⟩
  obtain ⟨d, hdid, hlive, hlineage⟩ := lineage_eq_some_iff.mp hl
  exact ⟨d, hdid, hlive, congrArg SingletonLineage.tip hlineage⟩

section Sample

open References

def sampleStore (p : Profile) : StoreSingleton :=
  ⟨⟨storeAt didText (coinId 1), rootOf p⟩, coinId 77, []⟩

theorem sampleStore_root {p : Profile} : (sampleStore p).state.rootHash = rootOf p := rfl

def bornWorld : World := World.genesis.withDid (coinId 42) ⟨coinId 1, [coinId 42], true⟩

/-- The DID's first spend has launched a store that holds the root of `p`. -/
def publishedWorld (p : Profile) : World :=
  { bornWorld.withDid (coinId 42) ⟨coinId 2, [coinId 1, coinId 42], true⟩ with
    stores := [sampleStore p] }

theorem fresh_genesis (c : Bytes32) : World.genesis.Fresh c :=
  ⟨fun _ => by simp [World.walk, World.genesis], nofun⟩

theorem fresh_withDid {w : World} {c : Bytes32} (h : w.Fresh c) {d : DidSingleton} (hd : c ∉ d.walk)
    (launcherId : Bytes32) : (w.withDid launcherId d).Fresh c := by
  refine ⟨fun id => ?_, h.parents⟩
  rw [World.walk, withDid_dids]
  by_cases hid : id = launcherId
  · rw [if_pos hid]
    exact hd
  · rw [if_neg hid]
    exact h.walks id

def publishedLog (p : Profile) : Log :=
  [(.launchDid (coinId 42) (coinId 1), bornWorld),
    (.spendDid (coinId 42) (some (coinId 2)) [sampleStore p], publishedWorld p)]

theorem trace_publishedWorld (p : Profile) :
    Trace Step .genesis (publishedLog p) (publishedWorld p) := by
  have hborn : Step .genesis (.launchDid (coinId 42) (coinId 1)) bornWorld :=
    .launchDid _ _ _ rfl (fresh_genesis _) (fresh_genesis _) (by decide +kernel)
  refine .cons hborn (.single (.spendDid bornWorld (coinId 42) ⟨coinId 1, [coinId 42], true⟩ _ _ rfl rfl
    ?_ ?_))
  · intro c hc
    cases hc
    exact fresh_withDid (fresh_genesis _) (by decide +kernel) _
  · intro s hs
    rw [List.mem_singleton.mp hs]
    rfl

theorem run_publishedWorld (p : Profile) : Run .genesis (publishedWorld p) :=
  (trace_publishedWorld p).run

theorem parent_mem_publishedWorld (p : Profile) :
    (sampleStore p).parent ∈ (publishedWorld p).walk sampleDid.launcherId := by
  change coinId 1 ∈ [coinId 2, coinId 1, coinId 42]
  decide +kernel

theorem published_publishedWorld (p : Profile) :
    published (publishedWorld p).stores ((publishedWorld p).walk sampleDid.launcherId) sampleDid =
      [(sampleStore p).state] :=
  published_singleton (decide_eq_true parse_didText) (parent_mem_publishedWorld p)

theorem resolve_publishedWorld (p : Profile) :
    letI := crateOf []
    ∃ q, resolveIdentityProfile didText
        (honest (publishedWorld p) fun _ _ => .ok p : ChainSource String) = .ok q ∧
      q.did = sampleDid ∧ q.store = storeAt didText (coinId 1) ∧ q.metadata = p ∧ q.root = rootOf p := by
  let _ := crateOf []
  obtain ⟨q, hq, hsingleton, hstore, hmetadata, hroot⟩ := resolve_of_published
    (E := String) (honest_reports (publishedWorld p) fun _ _ => .ok p) (honest_answers ..) parse_didText
    (lineage_eq_some_iff.mpr ⟨_, rfl, rfl, rfl⟩) (published_publishedWorld p) rfl (buildRoot_rootOf [] p)
  exact ⟨q, hq, congrArg IdentitySingleton.did hsingleton, hstore, hmetadata, hroot⟩

theorem sampleProfile_provenance :
    letI := crateOf []
    ∃ q, resolveIdentityProfile didText
        (honest (publishedWorld sampleProfile) fun _ _ => .ok sampleProfile : ChainSource String) =
          .ok q ∧
      LaunchedIn (coinId 42) ⟨coinId 1, coinId 9, 1⟩ (publishedLog sampleProfile) ∧
      WrittenIn (coinId 42) ⟨storeAt didText (coinId 1), rootOf sampleProfile⟩ .genesis
        (publishedLog sampleProfile) ∧
      (∀ r, r.buildRoot = .ok q.root → Unforged q.metadata r → q.metadata = r) := by
  let _ := crateOf []
  obtain ⟨q, hq, hdid, hstore, _, hroot⟩ := resolve_publishedWorld sampleProfile
  obtain ⟨_, _, hlaunched, hwritten, hbody⟩ := resolved_profile_provenance (documented [])
    (trace_publishedWorld sampleProfile) (.nil _) (honest_reports ..) hq
  rw [hdid, hstore, List.append_nil] at hlaunched
  rw [hdid, hstore, hroot, List.append_nil] at hwritten
  exact ⟨q, hq, hlaunched, hwritten, hbody⟩

end Sample

end DigIdentity.Provenance
