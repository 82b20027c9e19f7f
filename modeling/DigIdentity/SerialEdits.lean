import DigIdentity.Publishing

namespace DigIdentity.SerialEdits

open ByteStrings Fallible TreeCrate Hashing Errors Slots Values Trees Profiles TreeRefinement Addresses
  Dids Pairings IdentityProfiles UniqueMatch Resolvers RootBinding ProfileLifecycles Authorities Runs
  ChainWorlds WorldSources Provenance Interference Publishing

section Writers

variable [AddressCodec] [Sha2] [SmtCrate]

/-- A profile as some source has let it be resolved, at any time and from any
bodies. -/
def Found (p : IdentityProfile) : Prop :=
  ∃ (E : Type) (_ : ToString E) (didUri : String) (source : ChainSource E),
    resolveIdentityProfile didUri source = .ok p

/-- A writer edits the profile it has found, commits, and spends the store as it
found it. The root that stands is not that of two bodies. -/
inductive Publishes (did : Did) (standing : Profile) (w : World) (calls : List Call) (w' : World) :
    Prop
  | mk (p edits pub : IdentityProfile) (root : Digest32) (s s' : StoreSingleton) (caller : Bytes32) :
      Found p → p.did = did → Unforged p.metadata standing → runCalls p calls = .ok edits →
      edits.commitRoot = (.ok root, pub) → s.state = ⟨p.store, p.root⟩ →
      s'.state = ⟨pub.store, pub.root⟩ → s.parent ∈ w.walk did.launcherId →
      Step w (.spendStore s (some s') caller) w' → Publishes did standing w calls w'

/-- Any number of writers, one publication after the other, between which others
act and the DID is spent. -/
inductive Written (did : Did) (metadata : Profile) (w : World) : World → List Call → Prop
  | start : Written did metadata w w []
  | quiet {u v : World} {calls : List Call} :
      Written did metadata w u calls → Quiet did u v → Written did metadata w v calls
  | publish {u v : World} {calls more : List Call} :
      Written did metadata w u calls → Publishes did (edited metadata calls) u more v →
      Written did metadata w v (calls ++ more)

/-- One store of the DID is published, with the root of the profile. -/
def Holds (did : Did) (store : StoreRecord) (metadata : Profile) (w : World) : Prop :=
  ∃ root, metadata.buildRoot = .ok root ∧
    published w.stores (w.walk did.launcherId) did = [⟨store, root⟩]

variable {did : Did} {store : StoreRecord} {metadata : Profile} {w w' : World}

omit [AddressCodec] [Sha2] [SmtCrate] in
theorem edited_append (metadata : Profile) (calls more : List Call) :
    edited metadata (calls ++ more) = edited (edited metadata calls) more :=
  List.foldl_append ..

omit [Sha2] [SmtCrate] in
theorem names_of_paired {p : IdentityProfile} : names p.did ⟨p.store, p.root⟩ = true := by
  have hpaired : isAuthoritativeProfile p.store p.singleton = true := p.paired
  exact decide_eq_true ((parse_eq_some_iff _ _).mpr ((authoritative_iff _ _).mp hpaired).1)

theorem buildRoot_of_found {p : IdentityProfile} (h : Found p) : p.metadata.buildRoot = .ok p.root := by
  obtain ⟨E, _, didUri, source, hp⟩ := h
  obtain ⟨_, _, _, _, _, _, hroot⟩ := resolveIdentityProfile_eq_ok_iff.mp hp
  exact hroot

/-- Whoever finds the store as it stands has found the profile that stands, from
whatever source: an older body with an older root is of no use. -/
theorem metadata_of_standing (hd : crate.Documented) (h : Holds did store metadata w)
    {p : IdentityProfile} (hp : Found p) (hdid : p.did = did) (hu : Unforged p.metadata metadata)
    {s : StoreSingleton} (hs : s ∈ w.stores) (hstate : s.state = ⟨p.store, p.root⟩)
    (hparent : s.parent ∈ w.walk did.launcherId) :
    p.metadata = metadata ∧ p.store = store ∧
      published w.stores (w.walk did.launcherId) did = [s.state] := by
  obtain ⟨root, hbuild, hone⟩ := h
  have hnames : names did s.state = true := by
    rw [hstate, ← hdid]
    exact names_of_paired
  have hin : s.state ∈ published w.stores (w.walk did.launcherId) did :=
    mem_published_iff.mpr ⟨s, hs, rfl, hnames, hparent⟩
  rw [hone, List.mem_singleton] at hin
  obtain ⟨hstore, hroot⟩ := ChainStoreState.mk.inj (hstate.symm.trans hin)
  refine ⟨?_, hstore, hin ▸ hone⟩
  exact eq_of_buildRoot_eq hd hu (hroot ▸ buildRoot_of_found hp) hbuild

omit [AddressCodec] [Sha2] [SmtCrate] in
theorem mem_of_spendStore {s : StoreSingleton} {next : Option StoreSingleton} {caller : Bytes32}
    (h : Step w (.spendStore s next caller) w') : s ∈ w.stores := by
  cases h with
  | spendStore before after _ _ _ hstores => simp [hstores]

/-- What one publication does: the store that stood is spent, and the profile
that stood is edited. -/
theorem publishes_step (hd : crate.Documented) {calls : List Call} (hw : Holds did store metadata w)
    (h : Publishes did metadata w calls w') :
    (∃ s next caller, Step w (.spendStore s next caller) w') ∧
      Holds did store (edited metadata calls) w' := by
  obtain ⟨p, edits, pub, root, s, s', caller, hp, hdid, hu, hcalls, hcommit, hs, hs', hparent, hstep⟩ := h
  refine ⟨⟨s, _, caller, hstep⟩, ?_⟩
  obtain ⟨rfl, rfl, hone⟩ := metadata_of_standing hd hw hp hdid hu (mem_of_spendStore hstep) hs hparent
  obtain ⟨hstore, _, hmetadata, hbuild⟩ := commit_of_calls (buildRoot_of_found hp) hcalls hcommit
  have hpublished : published w'.stores (w'.walk did.launcherId) did = [s'.state] := by
    refine published_spendStore hstep hone ?_
    rw [hs', hs]
    exact hstore
  refine ⟨pub.root, hmetadata ▸ hbuild, ?_⟩
  rw [hpublished, hs', hstore]

theorem quiet_holds (hw : w.Disjoint) (h : Holds did store metadata w) (hq : Quiet did w w') :
    Holds did store metadata w' := by
  obtain ⟨root, hbuild, hone⟩ := h
  exact ⟨root, hbuild, (quiet_step hq hw).2.2.trans hone⟩

/-- Publications follow one another as edits of one profile, however they are
interleaved with the steps of others. -/
theorem written_run (hd : crate.Documented) {start : World} (hs : start.Disjoint)
    (h₀ : Holds did store metadata start) {calls : List Call}
    (h : Written did metadata start w calls) :
    Run start w ∧ Holds did store (edited metadata calls) w ∧
      ((start.lineage did.launcherId).isSome → (w.lineage did.launcherId).isSome) := by
  induction h with
  | start => exact ⟨.refl, h₀, id⟩
  | quiet _ hquiet ih =>
      obtain ⟨hrun, hholds, hlive⟩ := ih
      have hdisjoint := disjoint_run hrun hs
      refine ⟨hrun.trans (quietRun_run (.single hquiet)), quiet_holds hdisjoint hholds hquiet, ?_⟩
      exact fun hl => (quiet_step hquiet hdisjoint).2.1 (hlive hl)
  | publish _ hpublishes ih =>
      obtain ⟨hrun, hholds, hlive⟩ := ih
      obtain ⟨⟨s, next, caller, hstep⟩, hholds'⟩ := publishes_step hd hholds hpublishes
      refine ⟨hrun.tail ⟨_, hstep⟩, (edited_append ..) ▸ hholds', ?_⟩
      rw [lineage_congr (dids_step hstep (by simp [Event.did]))]
      exact hlive

end Writers

/-- No update is lost. However many writers edit what they found, from sources
honest or not and current or not, the profile that stands after their
publications is that of all their calls in the order of the publications: a
writer who can still publish has found it with every edit so far, and it is what
readers get, or nothing. -/
theorem edits_are_serialised [AddressCodec] [Sha2] [SmtCrate] (hd : crate.Documented) {start w : World}
    (hstart : Run .genesis start) {E : Type} [ToString E] {source : ChainSource E}
    (hr : Reports start start source) {didUri : String} {p₀ : IdentityProfile}
    (h₀ : resolveIdentityProfile didUri source = .ok p₀) {calls : List Call}
    (h : Written p₀.did p₀.metadata start w calls) :
    (∀ (p : IdentityProfile) (s : StoreSingleton), Found p → p.did = p₀.did →
      Unforged p.metadata (edited p₀.metadata calls) → s ∈ w.stores →
      s.parent ∈ w.walk p₀.did.launcherId → s.state = ⟨p.store, p.root⟩ →
      p.metadata = edited p₀.metadata calls) ∧
    ∃ root, (edited p₀.metadata calls).buildRoot = .ok root ∧
      ∀ (walks scan : World) (E' : Type) [ToString E'] (later : ChainSource E'),
        QuietRun p₀.did w walks → QuietRun p₀.did walks scan → Reports walks scan later →
        Answers later →
        (later.fetchProfile p₀.store root = .ok (edited p₀.metadata calls) →
          ∃ q, resolveIdentityProfile didUri later = .ok q ∧ q.store = p₀.store ∧
            q.metadata = edited p₀.metadata calls) ∧
        (∀ q, resolveIdentityProfile didUri later = .ok q →
          Unforged q.metadata (edited p₀.metadata calls) → q.metadata = edited p₀.metadata calls) := by
  obtain ⟨hp, hl, hone, _, hroot⟩ := of_resolve hr h₀
  have hdisjoint := disjoint_run hstart disjoint_genesis
  obtain ⟨hrun, hholds, hlive⟩ := written_run hd hdisjoint ⟨p₀.root, hroot, hone⟩ h
  refine ⟨?_, ?_⟩
  · intro p s hfound hdid hu hs hparent hstate
    exact (metadata_of_standing hd hholds hfound hdid hu hs hstate hparent).1
  · obtain ⟨root, hbuild, hpublished⟩ := hholds
    refine ⟨root, hbuild, ?_⟩
    intro walks scan E' _ later hwalks hscan hr' ha'
    have hdisjoint' := disjoint_run hrun hdisjoint
    have hlive' : (walks.lineage p₀.did.launcherId).isSome :=
      (quiet_run hwalks hdisjoint').2.1 (hlive (by rw [hl]; rfl))
    obtain ⟨lineage, hlineage⟩ := Option.isSome_iff_exists.mp hlive'
    have hread := published_read hdisjoint' hwalks hscan hpublished
    obtain ⟨hserved, honly⟩ := readers_find hd hr' ha' hp hlineage hread hbuild
    refine ⟨fun hfetch => ?_, honly⟩
    obtain ⟨q, hq, _, hstore, hmetadata, _⟩ := hserved hfetch
    exact ⟨q, hq, hstore, hmetadata⟩

section Sample

open References

theorem publishes_sampleStore (p : Profile) (calls : List Call)
    (hf : CollisionFree sha256 (hashed (profileOps p) ++ hashed (profileOps p))) :
    letI := crateOf []
    Publishes sampleDid p (publishedWorld p) calls (publishedWorld (edited p calls)) := by
  let _ := crateOf []
  obtain ⟨q, edits, pub, hq, hdid, hmetadata, hcalls, hcommit, _, hs, hs'⟩ := edit_sampleStore p calls
  refine .mk q edits pub _ (sampleStore p) (sampleStore (edited p calls)) (coinId 77)
    ⟨String, _, _, _, hq⟩ hdid ?_ hcalls hcommit hs hs' (parent_mem_publishedWorld p)
    (spend_sampleStore p _)
  rw [hmetadata]
  exact unforged_of_rootOf hf fun _ => rfl

def nameCalls : List Call := [.set standard.displayName (.utf8 "Bob")]

/-- One writer adds a bio and the next changes the name. -/
theorem bioAndName_serialised :
    letI := crateOf []
    let final := edited sampleProfile (bioCalls ++ nameCalls)
    ∃ q, resolveIdentityProfile didText
        (honest (publishedWorld final) fun _ _ => .ok final : ChainSource String) = .ok q ∧
      q.metadata.get standard.bio = some (.utf8 "hi") ∧
      q.metadata.get standard.displayName = some (.utf8 "Bob") := by
  let _ := crateOf []
  intro final
  obtain ⟨p, hp, hdid, _, hmetadata, _⟩ := resolve_publishedWorld sampleProfile
  have hwritten : Written p.did p.metadata (publishedWorld sampleProfile) (publishedWorld final)
      ([] ++ bioCalls ++ nameCalls) := by
    rw [hdid, hmetadata]
    refine .publish (.publish .start ?_) (publishes_sampleStore _ nameCalls (by decide +kernel))
    exact publishes_sampleStore _ bioCalls (by decide +kernel)
  obtain ⟨_, root, _, hreaders⟩ := edits_are_serialised (documented []) (run_publishedWorld sampleProfile)
    (honest_reports ..) hp hwritten
  obtain ⟨hserved, _⟩ := hreaders _ _ String (honest (publishedWorld final) fun _ _ => .ok final) .refl
    .refl (honest_reports ..) (honest_answers ..)
  obtain ⟨q, hq, _, hq'⟩ := hserved (by rw [hmetadata]; rfl)
  rw [hmetadata] at hq'
  refine ⟨q, hq, ?_, ?_⟩
  · rw [hq']
    decide +kernel
  · rw [hq']
    decide +kernel

end Sample

end DigIdentity.SerialEdits
