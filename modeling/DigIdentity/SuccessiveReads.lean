import DigIdentity.Publishing

namespace DigIdentity.SuccessiveReads

open ByteStrings Fallible TreeCrate Hashing Errors Trees Profiles TreeRefinement Addresses Dids Pairings
  IdentityProfiles UniqueMatch Resolvers RootBinding Authorities Runs ChainWorlds WorldSources
  Provenance Interference Publishing

/-- The DID has been launched and has no unspent coin any more. -/
def Melted (launcherId : Bytes32) (w : World) : Prop :=
  ∃ d, w.dids launcherId = some d ∧ d.live = false

section Melting

variable {w w' : World} {launcherId : Bytes32}

theorem melted_congr (h : w'.dids launcherId = w.dids launcherId) :
    Melted launcherId w' ↔ Melted launcherId w := by
  rw [Melted, Melted, h]

/-- A launcher id is launched once and a melted coin is not spent, so a melted
DID stays so. -/
theorem melted_step (h : Next w w') (hm : Melted launcherId w) : Melted launcherId w' := by
  obtain ⟨e, h⟩ := h
  refine (melted_congr (dids_step h ?_)).mpr hm
  obtain ⟨d, hd, hdead⟩ := hm
  intro he
  cases h with
  | launchDid id coin hnone =>
      cases he
      exact nomatch hnone.symm.trans hd
  | spendDid id d' next launched hd' hlive =>
      cases he
      cases hd'.symm.trans hd
      exact nomatch hlive.symm.trans hdead
  | launchStore | spendStore | advance => exact nomatch he

/-- Only the DID's own spend melts it. -/
theorem melts_step {e : Event} (h : Step w e w') (hbefore : ¬Melted launcherId w)
    (hafter : Melted launcherId w') : ∃ launched, e = .spendDid launcherId none launched := by
  by_cases he : e.did = some launcherId
  · obtain ⟨d', hd', hdead⟩ := hafter
    cases h with
    | launchDid id coin hnone =>
        cases he
        cases ((withDid_dids _ _).trans (if_pos rfl)).symm.trans hd'
        exact nomatch hdead
    | spendDid id d next launched hd hlive =>
        cases he
        cases next with
        | none => exact ⟨launched, rfl⟩
        | some coin =>
            have hnew : (World.withDid w launcherId (d.spend (some coin))).dids launcherId = some d' := hd'
            cases ((withDid_dids _ _).trans (if_pos rfl)).symm.trans hnew
            exact nomatch hdead
    | launchStore | spendStore | advance => exact nomatch he
  · exact absurd ((melted_congr (dids_step h he)).mp hafter) hbefore

/-- A DID that had an unspent coin and has none now has been melted. -/
theorem melted_of_lineage (h : Run w w') {lineage : SingletonLineage}
    (hl : w.lineage launcherId = some lineage) (hl' : w'.lineage launcherId = none) :
    Melted launcherId w' := by
  obtain ⟨d, hd, _, _⟩ := lineage_eq_some_iff.mp hl
  have htip : d.tip ∈ w'.walk launcherId := by
    refine walk_mono_run h ?_
    rw [walk_of_some hd]
    exact List.mem_cons_self ..
  cases hd' : w'.dids launcherId with
  | none => simp [walk_of_none hd'] at htip
  | some d' =>
      refine ⟨d', hd', Bool.eq_false_iff.mpr fun hlive => ?_⟩
      have hsome := lineage_eq_some_iff.mpr ⟨d', hd', hlive, rfl⟩
      exact nomatch hl'.symm.trans hsome

theorem lineage_of_melted (h : Melted launcherId w) : w.lineage launcherId = none := by
  obtain ⟨d, hd, hdead⟩ := h
  simp [World.lineage, hd, DidSingleton.lineage, hdead]

theorem melted_in_trace {log : Log} (h : Trace Step w log w') {lineage : SingletonLineage}
    (hl : w.lineage launcherId = some lineage) (hm : Melted launcherId w') :
    ∃ launched v, (.spendDid launcherId none launched, v) ∈ log := by
  have hbefore : ¬Melted launcherId w := fun hm => nomatch (lineage_of_melted hm).symm.trans hl
  obtain ⟨before, e, v, after, u, rfl, _, hstep, hnot, hsince⟩ := h.last_established hbefore hm
  obtain ⟨launched, rfl⟩ := melts_step hstep hnot (hsince (e, v) (List.mem_cons_self ..))
  exact ⟨launched, v, List.mem_append_right _ (List.mem_cons_self ..)⟩

end Melting

section Writes

variable [AddressCodec]

/-- A later success that differs from an earlier one was written in between: the
store that the later reader found stood at the time of the first read only if
the first reader found it as well. -/
theorem same_or_written {walks scan walks' scan' : World} {since between since' : Log}
    (hwalks : Run .genesis walks) (hscan : Trace Step walks since scan)
    (hwalks' : Trace Step scan between walks') (hscan' : Trace Step walks' since' scan') {did : Did}
    {state state' : ChainStoreState}
    (hone : published scan.stores (walks.walk did.launcherId) did = [state])
    (hin : state' ∈ published scan'.stores (walks'.walk did.launcherId) did) :
    state' = state ∨ WrittenIn did.launcherId state' walks (since ++ (between ++ since')) := by
  have hstanding := standing_of_published hscan'.run hin
  have hlater := hwalks'.append hscan'
  have hdisjoint := disjoint_run hwalks disjoint_genesis
  by_cases hfirst : Standing did.launcherId state' walks
  · by_cases hsecond : Standing did.launcherId state' scan
    · left
      obtain ⟨s, hs, hstate, _⟩ := hsecond
      obtain ⟨_, _, _, hparent⟩ := hfirst
      obtain ⟨_, _, _, hname, _⟩ := mem_published_iff.mp hin
      have hmem : state' ∈ published scan.stores (walks.walk did.launcherId) did := by
        refine mem_published_iff.mpr ⟨s, hs, hstate, hname, ?_⟩
        rwa [StoreSingleton.parent, StoreSingleton.launcherCoin, hstate]
      rwa [hone, List.mem_singleton] at hmem
    · right
      have hwritten := writtenIn_of_trace hlater (disjoint_run hscan.run hdisjoint) hsecond hstanding
      exact hwritten.prepend hscan
  · exact .inr (writtenIn_of_trace (hscan.append hlater) hdisjoint hfirst hstanding)

end Writes

section Reads

variable [AddressCodec] [Sha2] [SmtCrate] {E : Type} [ToString E] {walks scan : World}
  {source : ChainSource E} {didUri : String}

theorem settle_ne_noIdentitySingleton (singleton : IdentitySingleton)
    (selection : Selection ChainStoreState) :
    settle source singleton selection ≠ .error .noIdentitySingleton := by
  cases selection with
  | nothing | several => simp [settle]
  | only chosen =>
      intro h
      rw [settle, bindBody] at h
      cases hf : source.fetchProfile chosen.store chosen.rootHash with
      | error e => simp [hf, chainError] at h
      | ok content =>
          cases hb : content.buildRoot with
          | error e => simp [hf, hb] at h
          | ok root =>
              by_cases hne : root = chosen.rootHash
              · cases hi : IdentityProfile.resolve singleton chosen.store content <;>
                  simp [hf, hb, hne, hi] at h
              · simp [hf, hb, hne] at h

/-- A reader is told that there is no singleton just when the DID has no unspent
coin. -/
theorem noIdentitySingleton_iff (hr : Reports walks scan source) (ha : Answers source) {did : Did}
    (hp : Did.parse didUri = some did) :
    resolveIdentityProfile didUri source = .error .noIdentitySingleton ↔
      walks.lineage did.launcherId = none := by
  rw [resolve_eq hr ha hp]
  cases walks.lineage did.launcherId with
  | none => simp
  | some lineage => simpa using settle_ne_noIdentitySingleton _ _

end Reads

/-- Two reads of one DID, the second one later. When both find a profile it is
the same, or one of the events between them is a write of the second by the
DID's own spend or an authorized caller, and it has stood since: no answer comes
back of itself. When the second finds no singleton, one of the events is the
spend of the DID that melted it, and every read from then on fails alike. -/
theorem successive_reads [AddressCodec] [Sha2] [SmtCrate] {E : Type} [ToString E]
    (hd : crate.Documented) {walks scan walks' scan' : World} {since between since' : Log}
    (hwalks : Run .genesis walks) (hscan : Trace Step walks since scan)
    (hwalks' : Trace Step scan between walks') (hscan' : Trace Step walks' since' scan')
    {source source' : ChainSource E} (hr : Reports walks scan source)
    (hr' : Reports walks' scan' source') {didUri didUri' : String} {p : IdentityProfile}
    (h : resolveIdentityProfile didUri source = .ok p) :
    (∀ q, resolveIdentityProfile didUri' source' = .ok q → q.did = p.did →
      (q.store = p.store ∧ q.root = p.root ∧ (Unforged q.metadata p.metadata → q.metadata = p.metadata)) ∨
      WrittenIn p.did.launcherId ⟨q.store, q.root⟩ walks (since ++ (between ++ since'))) ∧
    (∀ did, Did.parse didUri' = some did → did.launcherId = p.did.launcherId → Answers source' →
      resolveIdentityProfile didUri' source' = .error .noIdentitySingleton →
      (∃ launched v, (.spendDid p.did.launcherId none launched, v) ∈ since ++ between) ∧
      ∀ (walks'' scan'' : World) (source'' : ChainSource E) (didUri'' : String) (did'' : Did),
        Run walks' walks'' → Reports walks'' scan'' source'' → Answers source'' →
        Did.parse didUri'' = some did'' → did''.launcherId = p.did.launcherId →
        resolveIdentityProfile didUri'' source'' = .error .noIdentitySingleton) := by
  obtain ⟨_, hl, hone, _, hroot⟩ := of_resolve hr h
  constructor
  · intro q hq hdid
    obtain ⟨_, _, hone', _, hroot'⟩ := of_resolve hr' hq
    rw [hdid] at hone'
    rcases same_or_written hwalks hscan hwalks' hscan' hone (hone' ▸ List.mem_singleton_self _) with
      hsame | hwritten
    · obtain ⟨hstore, hr⟩ := ChainStoreState.mk.inj hsame
      exact .inl ⟨hstore, hr, fun hu => eq_of_buildRoot_eq hd hu (hr ▸ hroot') hroot⟩
    · exact .inr hwritten
  · intro did hp hid ha hnone
    have hl' := (noIdentitySingleton_iff hr' ha hp).mp hnone
    rw [hid] at hl'
    have hbetween := hscan.append hwalks'
    have hmelted := melted_of_lineage hbetween.run hl hl'
    refine ⟨melted_in_trace hbetween hl hmelted, ?_⟩
    intro walks'' scan'' source'' didUri'' did'' hrun hr'' ha'' hp'' hid''
    refine (noIdentitySingleton_iff hr'' ha'' hp'').mpr ?_
    rw [hid'']
    exact lineage_of_melted (preserved (fun _ _ => melted_step) hrun hmelted)

section Sample

open References

/-- The DID has been melted after its store was written. -/
def meltedWorld (p : Profile) : World :=
  { (publishedWorld p).withDid (coinId 42) ⟨coinId 2, [coinId 1, coinId 42], false⟩ with
    stores := [sampleStore p] ++ [] }

def editLog : Log :=
  [(.spendStore (sampleStore sampleProfile) (some (sampleStore bioProfile)) (coinId 77),
    publishedWorld bioProfile)]

def meltLog : Log := editLog ++ [(.spendDid (coinId 42) none [], meltedWorld bioProfile)]

theorem trace_edit : Trace Step (publishedWorld sampleProfile) editLog (publishedWorld bioProfile) :=
  .single (spend_sampleStore sampleProfile bioProfile)

theorem trace_melt : Trace Step (publishedWorld sampleProfile) meltLog (meltedWorld bioProfile) :=
  trace_edit.append (.single (.spendDid (publishedWorld bioProfile) (coinId 42)
    ⟨coinId 2, [coinId 1, coinId 42], true⟩ none [] rfl rfl nofun nofun))

/-- A reader finds the first profile, then the edited one, then no singleton. -/
theorem sampleReads_successive :
    letI := crateOf []
    WrittenIn (coinId 42) ⟨storeAt didText (coinId 1), rootOf bioProfile⟩ (publishedWorld sampleProfile)
      editLog ∧
    (∃ launched v, (.spendDid (coinId 42) none launched, v) ∈ meltLog) := by
  let _ := crateOf []
  obtain ⟨p, hp, hpdid, _, _, hproot⟩ := resolve_publishedWorld sampleProfile
  obtain ⟨q, hq, hqdid, hqstore, _, hqroot⟩ := resolve_publishedWorld bioProfile
  have hid : sampleDid.launcherId = coinId 42 := rfl
  constructor
  · have hreads := (successive_reads (documented []) (run_publishedWorld sampleProfile) (.nil _) trace_edit
      (.nil _) (honest_reports ..) (honest_reports ..) hp).1 q hq (hqdid.trans hpdid.symm)
    rcases hreads with ⟨_, hsame, _⟩ | hwritten
    · rw [hproot, hqroot] at hsame
      exact absurd hsame (by decide +kernel)
    · rwa [hpdid, hqstore, hqroot, hid, List.append_nil, List.nil_append] at hwritten
  · have hr := honest_reports (meltedWorld bioProfile) fun _ _ => (.ok bioProfile : Except String Profile)
    have hnone := (noIdentitySingleton_iff hr (honest_answers ..) parse_didText).mpr
      (lineage_of_melted ⟨_, rfl, rfl⟩)
    obtain ⟨hmelted, _⟩ := (successive_reads (documented []) (run_publishedWorld sampleProfile) (.nil _)
      trace_melt (.nil _) (honest_reports ..) hr hp).2 sampleDid parse_didText (by rw [hpdid])
      (honest_answers ..) hnone
    rwa [hpdid, hid] at hmelted

end Sample

end DigIdentity.SuccessiveReads
