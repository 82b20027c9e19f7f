import DigIdentity.Provenance
import DigIdentity.ThirdPartyStores

namespace DigIdentity.Interference

open ByteStrings Fallible Hashing Errors Trees Profiles Addresses Dids Pairings IdentityProfiles
  UniqueMatch Resolvers Authorities Runs ChainWorlds WorldSources Provenance
  ThirdPartyStores

section Others

variable [AddressCodec]

/-- The events that spend a coin of the DID or a store which one of them launched. -/
def Touches (did : Did) (w : World) : Event → Prop
  | .launchDid launcherId _ | .spendDid launcherId _ _ => launcherId = did.launcherId
  | .spendStore s _ _ => s.parent ∈ w.walk did.launcherId
  | .launchStore _ | .advance _ => False

/-- A step of the others: any step at all that does not touch the DID. -/
def Elsewhere (did : Did) (w w' : World) : Prop := ∃ e, Step w e w' ∧ ¬Touches did w e

/-- A step of the others, or a spend of the DID that recreates it and launches
no store with its name. -/
def Quiet (did : Did) (w w' : World) : Prop :=
  Elsewhere did w w' ∨ ∃ next launched, Step w (.spendDid did.launcherId (some next) launched) w' ∧
    ∀ s ∈ launched, names did s.state = false

section Steps

variable {did : Did} {w w' : World} {e : Event}

theorem elsewhere_dids (h : Step w e w') (hout : ¬Touches did w e) :
    w'.dids did.launcherId = w.dids did.launcherId := by
  refine dids_step h ?_
  intro he
  cases h with
  | launchDid | spendDid => exact hout (Option.some.inj he)
  | launchStore | spendStore | advance => exact nomatch he

theorem elsewhere_published (h : Step w e w') (hw : w.Disjoint) (hout : ¬Touches did w e) :
    published w'.stores (w.walk did.launcherId) did = published w.stores (w.walk did.launcherId) did := by
  cases h with
  | launchDid | advance => rfl
  | spendDid id d next launched hd hlive hfresh hparents =>
      have hnone : published launched (w.walk did.launcherId) did = [] := by
        refine published_eq_nil_iff.mpr ?_
        intro s hs _ hp
        refine hout (hw id did.launcherId s.parent ?_ hp)
        rw [walk_of_some hd, hparents s hs]
        exact List.mem_cons_self ..
      exact (published_append ..).trans (by rw [hnone, List.append_nil])
  | launchStore s hforeign =>
      have hnone : published [s] (w.walk did.launcherId) did = [] := by
        simpa [published_eq_nil_iff] using fun _ => hforeign did.launcherId
      exact (published_append ..).trans (by rw [hnone, List.append_nil])
  | spendStore before after s next caller hstores hpermits =>
      have hparent : s.parent ∉ w.walk did.launcherId := hout
      have hold : published [s] (w.walk did.launcherId) did = [] := by
        simpa [published_eq_nil_iff] using fun _ => hparent
      have hnew : published next.toList (w.walk did.launcherId) did = [] := by
        refine published_eq_nil_iff.mpr ?_
        intro s' hs' _ hp
        have hcoin := hpermits.launcherCoin s' (Option.mem_toList.mp hs')
        rw [StoreSingleton.parent, hcoin] at hp
        exact hparent hp
      rw [hstores, ← List.singleton_append, published_append, published_append, published_append,
        published_append, hold, hnew, List.append_nil, List.nil_append]

theorem elsewhere_step (h : Elsewhere did w w') (hw : w.Disjoint) :
    w'.Disjoint ∧ w'.dids did.launcherId = w.dids did.launcherId ∧
      published w'.stores (w'.walk did.launcherId) did =
        published w.stores (w.walk did.launcherId) did := by
  obtain ⟨e, h, hout⟩ := h
  have hdids := elsewhere_dids h hout
  refine ⟨disjoint_step ⟨e, h⟩ hw, hdids, ?_⟩
  rw [walk_congr hdids, elsewhere_published h hw hout]

theorem quiet_step (h : Quiet did w w') (hw : w.Disjoint) :
    w'.Disjoint ∧ ((w.lineage did.launcherId).isSome → (w'.lineage did.launcherId).isSome) ∧
      published w'.stores (w'.walk did.launcherId) did =
        published w.stores (w.walk did.launcherId) did := by
  rcases h with h | ⟨next, launched, h, hnames⟩
  · obtain ⟨hw', hdids, hpub⟩ := elsewhere_step h hw
    exact ⟨hw', fun hl => by rwa [lineage_congr hdids], hpub⟩
  · refine ⟨disjoint_step ⟨_, h⟩ hw, ?_, ?_⟩
    · cases h with
      | spendDid _ d _ _ hd hlive hfresh hparents =>
          intro _
          have hd' : (World.withDid w did.launcherId (d.spend (some next))).dids did.launcherId =
              some (d.spend (some next)) := (withDid_dids _ _).trans (if_pos rfl)
          exact Option.isSome_iff_exists.mpr ⟨_, lineage_eq_some_iff.mpr ⟨_, hd', rfl, rfl⟩⟩
    · -- the launched stores do not name the DID, and the new coin launched none of the others
      have hwalk : published w.stores (w'.walk did.launcherId) did =
          published w.stores (w.walk did.launcherId) did :=
        published_congr did fun s hs => ⟨parent_mem_of_mem_step h hs, walk_mono h⟩
      have hnone : published launched (w'.walk did.launcherId) did = [] :=
        published_eq_nil_iff.mpr fun s hs hn => absurd hn (by simp [hnames s hs])
      have hstores : w'.stores = w.stores ++ launched := by
        cases h
        rfl
      rw [hstores, published_append, hnone, List.append_nil, hwalk]

end Steps

section Runs

variable {did : Did} {w w' : World}

def ElsewhereRun (did : Did) : World → World → Prop := Relation.ReflTransGen (Elsewhere did)

def QuietRun (did : Did) : World → World → Prop := Relation.ReflTransGen (Quiet did)

theorem quietRun_run (h : QuietRun did w w') : Run w w' := by
  refine preserved (P := Run w) ?_ h .refl
  rintro x y (⟨e, hxy, _⟩ | ⟨next, launched, hxy, _⟩) hx
  · exact hx.tail ⟨e, hxy⟩
  · exact hx.tail ⟨_, hxy⟩

theorem elsewhere_run (h : ElsewhereRun did w w') (hw : w.Disjoint) :
    w'.lineage did.launcherId = w.lineage did.launcherId ∧
      w'.walk did.launcherId = w.walk did.launcherId ∧
      published w'.stores (w'.walk did.launcherId) did =
        published w.stores (w.walk did.launcherId) did := by
  have hkeep (x y : World) (hxy : Elsewhere did x y) (hx : x.Disjoint) : y.Disjoint :=
    (elsewhere_step hxy hx).1
  have hdids : w'.dids did.launcherId = w.dids did.launcherId :=
    observed (f := fun x => x.dids did.launcherId) hkeep
      (fun x y hxy hx => (elsewhere_step hxy hx).2.1) h hw
  exact ⟨lineage_congr hdids, walk_congr hdids,
    observed (f := fun x => published x.stores (x.walk did.launcherId) did) hkeep
      (fun x y hxy hx => (elsewhere_step hxy hx).2.2) h hw⟩

theorem quiet_run (h : QuietRun did w w') (hw : w.Disjoint) :
    w'.Disjoint ∧ ((w.lineage did.launcherId).isSome → (w'.lineage did.launcherId).isSome) ∧
      published w'.stores (w'.walk did.launcherId) did =
        published w.stores (w.walk did.launcherId) did := by
  have hkeep (x y : World) (hxy : Quiet did x y) (hx : x.Disjoint) : y.Disjoint :=
    (quiet_step hxy hx).1
  refine ⟨preserved hkeep h hw, ?_, ?_⟩
  · intro hl
    exact (preserved (P := fun x => x.Disjoint ∧ (x.lineage did.launcherId).isSome)
      (fun x y hxy hx => ⟨(quiet_step hxy hx.1).1, (quiet_step hxy hx.1).2.1 hx.2⟩) h ⟨hw, hl⟩).2
  · exact observed (f := fun x => published x.stores (x.walk did.launcherId) did) hkeep
      (fun x y hxy hx => (quiet_step hxy hx).2.2) h hw

end Runs

end Others

/-- Whatever the others do on the chain, and at whatever points of it a source
reads the two, resolving the DID gives the same answer: the same profile, the
same keys or the same failure. -/
theorem others_cannot_interfere [AddressCodec] [Sha2] [SmtCrate] {E : Type} [ToString E] {did : Did}
    {w walks scan walks' scan' : World} (hw : Run .genesis w)
    (hwalks : ElsewhereRun did w walks) (hscan : ElsewhereRun did w scan)
    (hwalks' : ElsewhereRun did w walks') (hscan' : ElsewhereRun did w scan')
    {source source' : ChainSource E} (hr : Reports walks scan source) (ha : Answers source)
    (hr' : Reports walks' scan' source') (ha' : Answers source')
    (hbody : source.fetchProfile = source'.fetchProfile) {didUri : String}
    (hp : Did.parse didUri = some did) :
    resolveIdentityProfile didUri source = resolveIdentityProfile didUri source' ∧
      resolveDidKeys didUri source = resolveDidKeys didUri source' ∧
      resolveBlsPublicKey didUri source = resolveBlsPublicKey didUri source' := by
  have hdisjoint := disjoint_run hw disjoint_genesis
  have hread {x y : World} (hx : ElsewhereRun did w x) (hy : ElsewhereRun did w y) :
      x.lineage did.launcherId = w.lineage did.launcherId ∧
        published y.stores (x.walk did.launcherId) did =
          published w.stores (w.walk did.launcherId) did := by
    obtain ⟨hlineage, hwalk, _⟩ := elsewhere_run hx hdisjoint
    obtain ⟨_, hwalk', hpub⟩ := elsewhere_run hy hdisjoint
    exact ⟨hlineage, by rw [← hpub, hwalk, hwalk']⟩
  have hprofile : resolveIdentityProfile didUri source = resolveIdentityProfile didUri source' := by
    rw [resolve_eq hr ha hp, resolve_eq hr' ha' hp, (hread hwalks hscan).1, (hread hwalks hscan).2,
      (hread hwalks' hscan').1, (hread hwalks' hscan').2]
    cases w.lineage did.launcherId with
    | none => rfl
    | some lineage => exact settle_congr hbody _ _
  have hkeys : resolveDidKeys didUri source = resolveDidKeys didUri source' := by
    rw [resolveDidKeys, resolveDidKeys, hprofile]
  refine ⟨hprofile, hkeys, ?_⟩
  rw [resolveBlsPublicKey, resolveBlsPublicKey, hkeys]

section Sample

open References

/-- Somebody has launched a store that names the DID, from a coin of his own. -/
def spoofedWorld (p : Profile) : World :=
  { publishedWorld p with
    stores := (publishedWorld p).stores ++ [⟨⟨storeAt didText (coinId 66), coinId 0⟩, coinId 66, []⟩] }

theorem launch_spoofedWorld (p : Profile) :
    Step (publishedWorld p) (.launchStore ⟨⟨storeAt didText (coinId 66), coinId 0⟩, coinId 66, []⟩)
      (spoofedWorld p) := by
  refine .launchStore _ _ ?_
  have hfresh : (bornWorld.withDid (coinId 42) ⟨coinId 2, [coinId 1, coinId 42], true⟩).Fresh (coinId 66) :=
    fresh_withDid (fresh_withDid (fresh_genesis _) (by decide +kernel) _) (by decide +kernel) _
  exact hfresh.walks

theorem elsewhere_spoofedWorld (p : Profile) :
    ElsewhereRun sampleDid (publishedWorld p) (spoofedWorld p) :=
  .single ⟨_, launch_spoofedWorld p, id⟩

theorem run_spoofedWorld (p : Profile) : Run (publishedWorld p) (spoofedWorld p) :=
  .single ⟨_, launch_spoofedWorld p⟩

theorem spoofedWorld_resolves :
    letI := crateOf []
    let body : StoreRecord → Bytes32 → Except String Profile := fun _ _ => .ok sampleProfile
    resolveIdentityProfile didText (honest (publishedWorld sampleProfile) body) =
        resolveIdentityProfile didText (honest (spoofedWorld sampleProfile) body) ∧
      resolveDidKeys didText (honest (publishedWorld sampleProfile) body) =
        resolveDidKeys didText (honest (spoofedWorld sampleProfile) body) ∧
      resolveBlsPublicKey didText (honest (publishedWorld sampleProfile) body) =
        resolveBlsPublicKey didText (honest (spoofedWorld sampleProfile) body) := by
  let _ := crateOf []
  intro body
  exact others_cannot_interfere (run_publishedWorld sampleProfile) .refl .refl
    (elsewhere_spoofedWorld _) (elsewhere_spoofedWorld _) (honest_reports ..) (honest_answers ..)
    (honest_reports ..) (honest_answers ..) rfl parse_didText

end Sample

end DigIdentity.Interference
