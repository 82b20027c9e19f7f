import DigIdentity.Interference
import DigIdentity.ProfileLifecycles

namespace DigIdentity.Publishing

open ByteStrings Fallible TreeCrate Hashing Errors Slots Values Trees Profiles TreeRefinement Addresses
  Dids Pairings IdentityProfiles UniqueMatch Resolvers RootBinding ProfileLifecycles Authorities Runs
  ChainWorlds WorldSources Provenance Interference

section Spends

variable [AddressCodec] {did : Did} {w w' : World} {s s' : StoreSingleton} {caller : Bytes32}

/-- Spending the only published store with its description unchanged publishes
the new state in its place. -/
theorem published_spendStore (h : Step w (.spendStore s (some s') caller) w')
    (hone : published w.stores (w.walk did.launcherId) did = [s.state])
    (hstore : s'.state.store = s.state.store) :
    published w'.stores (w'.walk did.launcherId) did = [s'.state] := by
  have hwalk : w'.walk did.launcherId = w.walk did.launcherId :=
    walk_congr (dids_step h (by simp [Event.did]))
  have hmem : s.state ∈ published w.stores (w.walk did.launcherId) did := by simp [hone]
  obtain ⟨old, _, hold, hn, hp⟩ := mem_published_iff.mp hmem
  have hparent : s.parent ∈ w.walk did.launcherId := by
    rwa [StoreSingleton.parent, StoreSingleton.launcherCoin, ← hold]
  have hs := published_singleton hn hparent
  have hs' : published [s'] (w.walk did.launcherId) did = [s'.state] := by
    refine published_singleton ?_ ?_
    · rw [names, hstore]
      exact hn
    · rwa [StoreSingleton.parent, StoreSingleton.launcherCoin, hstore]
  cases h with
  | spendStore before after _ _ _ hstores =>
      rw [hstores, ← List.singleton_append, published_append, published_append, hs] at hone
      have hlength := congrArg List.length hone
      simp only [List.length_append, List.length_singleton] at hlength
      have hbefore : published before (w.walk did.launcherId) did = [] :=
        List.eq_nil_of_length_eq_zero (by omega)
      have hafter : published after (w.walk did.launcherId) did = [] :=
        List.eq_nil_of_length_eq_zero (by omega)
      rw [hwalk, Option.toList_some, published_append, published_append, hbefore, hafter, hs']
      rfl

/-- The published store as a reader sees it that learns the DID's coins first
and scans the stores later. -/
theorem published_read {walks scan : World} (hw : w.Disjoint) (hwalks : QuietRun did w walks)
    (hscan : QuietRun did walks scan) {c : ChainStoreState}
    (hone : published w.stores (w.walk did.launcherId) did = [c]) :
    published scan.stores (walks.walk did.launcherId) did = [c] := by
  obtain ⟨hdisjoint, _, hpub⟩ := quiet_run hwalks hw
  obtain ⟨_, _, hpub'⟩ := quiet_run hscan hdisjoint
  have hin : c ∈ published walks.stores (walks.walk did.launcherId) did := by simp [hpub, hone]
  obtain ⟨s, _, rfl, _, hparent⟩ := mem_published_iff.mp hin
  have hparent' : s.state.store.launcherCoin.parentCoinInfo ∈ walks.walk did.launcherId := hparent
  have hmono : walks.walk did.launcherId ⊆ scan.walk did.launcherId :=
    fun _ hc => walk_mono_run (quietRun_run hscan) hc
  rw [published_mono did hmono, hpub', hpub, hone]
  simp [hparent']

end Spends

/-- What readers of the one published store find: the profile, if it is served
to them, and no other. -/
theorem readers_find [AddressCodec] [Sha2] [SmtCrate] {E : Type} [ToString E] (hd : crate.Documented)
    {walks scan : World} {source : ChainSource E} (hr : Reports walks scan source) (ha : Answers source)
    {didUri : String} {did : Did} (hp : Did.parse didUri = some did) {lineage : SingletonLineage}
    (hl : walks.lineage did.launcherId = some lineage) {store : StoreRecord} {root : Digest32}
    (hread : published scan.stores (walks.walk did.launcherId) did = [⟨store, root⟩])
    {metadata : Profile} (hbuild : metadata.buildRoot = .ok root) :
    (source.fetchProfile store root = .ok metadata →
      ∃ q, resolveIdentityProfile didUri source = .ok q ∧ q.singleton = ⟨did, lineage⟩ ∧
        q.store = store ∧ q.metadata = metadata ∧ q.root = root) ∧
    (∀ q, resolveIdentityProfile didUri source = .ok q → Unforged q.metadata metadata →
      q.metadata = metadata) := by
  refine ⟨fun hfetch => resolve_of_published hr ha hp hl hread hfetch hbuild, ?_⟩
  intro q hq hu
  obtain ⟨hp', _, hone, _, hroot⟩ := of_resolve hr hq
  rw [← Option.some.inj (hp.symm.trans hp'), hread, List.singleton_inj, ChainStoreState.mk.injEq] at hone
  rw [← hone.2] at hroot
  exact eq_of_buildRoot_eq hd hu hroot hbuild

section Edits

variable [AddressCodec] [Sha2] [SmtCrate] {E : Type} [ToString E] {w w' walks scan : World}
  {source : ChainSource E} {didUri : String} {p edits pub : IdentityProfile} {calls : List Call}
  {root : Digest32} {s s' : StoreSingleton} {caller : Bytes32}

/-- What a run of calls and a commit make of a resolved profile. -/
theorem commit_of_calls (hroot : p.metadata.buildRoot = .ok p.root) (hcalls : runCalls p calls = .ok edits)
    (hcommit : edits.commitRoot = (.ok root, pub)) :
    pub.store = p.store ∧ pub.root = root ∧ pub.metadata = edited p.metadata calls ∧
      pub.metadata.buildRoot = .ok pub.root := by
  have hlife := lifecycle_run (resolve_eq_ok_iff.mpr ⟨rfl, rfl, rfl, hroot⟩) hcalls
  obtain ⟨current, hcurrent⟩ := hlife.builds
  rw [IdentityProfile.commitRoot_of_ok hcurrent, Prod.mk.injEq, Except.ok.injEq] at hcommit
  obtain ⟨rfl, rfl⟩ := hcommit
  exact ⟨hlife.store_eq, rfl, hlife.metadata_eq, hcurrent⟩

/-- What a committed edit is once its root has been written to the store, and
what later readers find. -/
theorem published_edit (hw : Run .genesis w) (hr : Reports w w source)
    (h : resolveIdentityProfile didUri source = .ok p) (hcalls : runCalls p calls = .ok edits)
    (hcommit : edits.commitRoot = (.ok root, pub))
    (hspend : Step w (.spendStore s (some s') caller) w') (hs : s.state = ⟨p.store, p.root⟩)
    (hs' : s'.state = ⟨pub.store, pub.root⟩) (hwalks : QuietRun p.did w' walks)
    (hscan : QuietRun p.did walks scan) :
    (Did.parse didUri = some p.did ∧ pub.store = p.store ∧ pub.root = root ∧
      pub.metadata = edited p.metadata calls ∧ pub.metadata.buildRoot = .ok pub.root) ∧
    (∃ lineage, walks.lineage p.did.launcherId = some lineage) ∧
    published scan.stores (walks.walk p.did.launcherId) p.did = [⟨pub.store, pub.root⟩] := by
  obtain ⟨hp, hl, hone, _, hroot⟩ := of_resolve hr h
  have hpub := commit_of_calls hroot hcalls hcommit
  refine ⟨⟨hp, hpub⟩, ?_⟩
  have hdisjoint := disjoint_step ⟨_, hspend⟩ (disjoint_run hw disjoint_genesis)
  have hspent : published w'.stores (w'.walk p.did.launcherId) p.did = [s'.state] := by
    refine published_spendStore hspend (hs ▸ hone) ?_
    rw [hs, hs']
    exact hpub.1
  have hlive : (walks.lineage p.did.launcherId).isSome := by
    refine (quiet_run hwalks hdisjoint).2.1 ?_
    rw [lineage_congr (dids_step hspend (by simp [Event.did])), hl]
    rfl
  exact ⟨Option.isSome_iff_exists.mp hlive, hs' ▸ published_read hdisjoint hwalks hscan hspent⟩

end Edits

/-- An edit that is committed and whose root is written to the store reaches
every reader: after any number of steps by others and of further spends of the
DID, resolution returns the edited profile or nothing, and calls every other
body stale. -/
theorem published_edits_reach_readers [AddressCodec] [Sha2] [SmtCrate] {E : Type} [ToString E]
    (hd : crate.Documented) {w w' walks scan : World} (hw : Run .genesis w)
    {source : ChainSource E} (hr : Reports w w source) {didUri : String} {p edits pub : IdentityProfile}
    (h : resolveIdentityProfile didUri source = .ok p) {calls : List Call} {root : Digest32}
    (hcalls : runCalls p calls = .ok edits) (hcommit : edits.commitRoot = (.ok root, pub))
    {s s' : StoreSingleton} {caller : Bytes32} (hspend : Step w (.spendStore s (some s') caller) w')
    (hs : s.state = ⟨p.store, p.root⟩) (hs' : s'.state = ⟨pub.store, pub.root⟩)
    (hwalks : QuietRun p.did w' walks) (hscan : QuietRun p.did walks scan)
    {later : ChainSource E} (hr' : Reports walks scan later) (ha' : Answers later) :
    (later.fetchProfile pub.store pub.root = .ok pub.metadata →
      ∃ q d, resolveIdentityProfile didUri later = .ok q ∧ q.store = p.store ∧
        q.metadata = edited p.metadata calls ∧ q.keys = pub.keys ∧ q.root = root ∧
        walks.dids p.did.launcherId = some d ∧ q.singleton.coinId = d.tip) ∧
    (∀ q, resolveIdentityProfile didUri later = .ok q → Unforged q.metadata pub.metadata →
      q.metadata = edited p.metadata calls) ∧
    (∀ body r, later.fetchProfile pub.store pub.root = .ok body → body.buildRoot = .ok r → r ≠ root →
      resolveIdentityProfile didUri later = .error .staleOrTamperedRoot) := by
  obtain ⟨⟨hp, hstore, hroot, hmetadata, hbuild⟩, ⟨lineage, hlineage⟩, hread⟩ :=
    published_edit hw hr h hcalls hcommit hspend hs hs' hwalks hscan
  obtain ⟨d, hdid, _, htip⟩ := lineage_eq_some_iff.mp hlineage
  obtain ⟨hserved, honly⟩ := readers_find hd hr' ha' hp hlineage hread hbuild
  refine ⟨?_, ?_, ?_⟩
  · intro hfetch
    obtain ⟨q, hq, hsingleton, hqstore, hqmetadata, hqroot⟩ := hserved hfetch
    refine ⟨q, d, hq, hqstore.trans hstore, hqmetadata.trans hmetadata, ?_, hqroot.trans hroot, hdid, ?_⟩
    · rw [IdentityProfile.keys, hqmetadata]
      rfl
    · rw [IdentitySingleton.coinId, hsingleton, ← htip]
      rfl
  · intro q hq hu
    exact (honly q hq hu).trans hmetadata
  · intro body r hfetch hr hne
    rw [← hroot] at hne
    rw [resolve_eq hr' ha' hp, hlineage, hread]
    simp [settle, bindBody, ofMatches, hfetch, hr, hne]

section Sample

open References

def bioCalls : List Call := [.set standard.bio (.utf8 "hi")]

def bioProfile : Profile := sampleProfile.set standard.bio (.utf8 "hi")

/-- The owner has written the root of `p` to the store, and the DID has been
spent once more. -/
def editedWorld (p : Profile) : World :=
  { (publishedWorld p).withDid (coinId 42) ⟨coinId 3, [coinId 2, coinId 1, coinId 42], true⟩ with
    stores := [sampleStore p] ++ [] }

theorem spend_sampleStore (p q : Profile) :
    Step (publishedWorld p) (.spendStore (sampleStore p) (some (sampleStore q)) (coinId 77))
      (publishedWorld q) := by
  refine .spendStore (publishedWorld p) [] [] _ _ _ rfl (.own _ (beq_iff_eq.mpr rfl) ?_)
  intro s' hs'
  cases hs'
  rfl

theorem quiet_editedWorld (p : Profile) : QuietRun sampleDid (publishedWorld p) (editedWorld p) := by
  refine .single (.inr ⟨coinId 3, [],
    .spendDid (publishedWorld p) (coinId 42) ⟨coinId 2, [coinId 1, coinId 42], true⟩ _ _ rfl rfl ?_ nofun,
    nofun⟩)
  intro c hc
  cases hc
  have hfresh : (bornWorld.withDid (coinId 42) ⟨coinId 2, [coinId 1, coinId 42], true⟩).Fresh (coinId 3) :=
    fresh_withDid (fresh_withDid (fresh_genesis _) (by decide +kernel) _) (by decide +kernel) _
  refine ⟨hfresh.walks, fun s hs => ?_⟩
  rw [List.mem_singleton.mp hs]
  change coinId 1 ≠ coinId 3
  decide +kernel

/-- A writer of the store: what it finds, edits and commits, and the states of
the store before and after. -/
theorem edit_sampleStore (p : Profile) (calls : List Call) :
    letI := crateOf []
    ∃ q edits pub, resolveIdentityProfile didText
        (honest (publishedWorld p) fun _ _ => .ok p : ChainSource String) = .ok q ∧
      q.did = sampleDid ∧ q.metadata = p ∧ runCalls q calls = .ok edits ∧
      edits.commitRoot = (.ok (rootOf (edited p calls)), pub) ∧ pub.metadata = edited p calls ∧
      (sampleStore p).state = ⟨q.store, q.root⟩ ∧
      (sampleStore (edited p calls)).state = ⟨pub.store, pub.root⟩ := by
  let _ := crateOf []
  obtain ⟨q, hq, hdid, hstore, hmetadata, hroot⟩ := resolve_publishedWorld p
  obtain ⟨edits, hcalls⟩ := runCalls_succeeds q calls
  have hbefore : q.metadata.buildRoot = .ok q.root := by
    rw [hmetadata, hroot]
    exact buildRoot_rootOf [] _
  have hlife := lifecycle_run (resolve_eq_ok_iff.mpr ⟨rfl, rfl, rfl, hbefore⟩) hcalls
  have hbuild : edits.metadata.buildRoot = .ok (rootOf (edited p calls)) := by
    rw [hlife.metadata_eq, hmetadata]
    exact buildRoot_rootOf [] _
  obtain ⟨pub, hcommit⟩ : ∃ pub, edits.commitRoot = (.ok (rootOf (edited p calls)), pub) :=
    ⟨_, IdentityProfile.commitRoot_of_ok hbuild⟩
  obtain ⟨hpstore, hproot, hpmetadata, _⟩ := commit_of_calls hbefore hcalls hcommit
  refine ⟨q, edits, pub, hq, hdid, hmetadata, hcalls, hcommit, ?_, ?_, ?_⟩
  · rw [hpmetadata, hmetadata]
  · rw [hstore, hroot, sampleStore]
  · rw [hpstore, hstore, hproot, sampleStore]

theorem bioCalls_reach_readers :
    letI := crateOf []
    (∃ q, resolveIdentityProfile didText
        (honest (editedWorld bioProfile) fun _ _ => .ok bioProfile : ChainSource String) = .ok q ∧
      q.metadata = bioProfile ∧ q.singleton.coinId = coinId 3) ∧
    resolveIdentityProfile didText
        (honest (editedWorld bioProfile) fun _ _ => .ok sampleProfile : ChainSource String) =
      .error .staleOrTamperedRoot := by
  let _ := crateOf []
  obtain ⟨p, edits, pub, hp, hdid, hmetadata, hcalls, hcommit, hpub, hs, hs'⟩ :=
    edit_sampleStore sampleProfile bioCalls
  have hquiet : QuietRun p.did (publishedWorld bioProfile) (editedWorld bioProfile) := by
    rw [hdid]
    exact quiet_editedWorld bioProfile
  have hreach (body : Profile) := published_edits_reach_readers (documented [])
    (run_publishedWorld sampleProfile) (honest_reports ..) hp hcalls hcommit
    (spend_sampleStore sampleProfile bioProfile) hs hs' hquiet .refl
    (honest_reports (editedWorld bioProfile) fun _ _ => (.ok body : Except String Profile))
    (honest_answers ..)
  constructor
  · have hserved : (.ok bioProfile : Except String Profile) = .ok pub.metadata := by
      rw [hpub]
      rfl
    obtain ⟨q, d, hq, _, hm, _, _, hd, htip⟩ := (hreach bioProfile).1 hserved
    rw [hdid] at hd
    cases hd
    exact ⟨q, hq, by rw [hm, hmetadata]; rfl, htip⟩
  · have hdistinct : rootOf sampleProfile ≠ rootOf bioProfile := by decide +kernel
    exact (hreach sampleProfile).2.2 sampleProfile _ rfl (buildRoot_rootOf [] _) hdistinct

end Sample

end DigIdentity.Publishing
