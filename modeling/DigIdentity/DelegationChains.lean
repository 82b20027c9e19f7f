import DigIdentity.AuthorityRuns
import DigIdentity.Provenance

namespace DigIdentity.DelegationChains

open ByteStrings Profiles Pairings Resolvers Authorities AuthorityRuns Runs ChainWorlds Provenance

/-- A store that a coin of the DID launched gives the caller the right now. -/
def Holds (launcherId : Bytes32) (launcher : Coin) (right : Right) (caller : Bytes32) (w : World) :
    Prop :=
  ∃ s ∈ w.stores, s.launcherCoin = launcher ∧ launcher.parentCoinInfo ∈ w.walk launcherId ∧
    s.gives w.height caller right = true

/-- A caller's right over a DID's store, traced back in the log: at the event
that the caller holds it since, the DID's own spend gave it with the launch, or
somebody gave it who could and whose own right to do so is traced back further. -/
inductive Entitled (launcherId : Bytes32) (launcher : Coin) : Log → Right → Bytes32 → Prop
  | launched (before after : Log) (u v : World) (next : Option Bytes32) (launched : List StoreSingleton)
      (s : StoreSingleton) (right : Right) (caller : Bytes32) :
      Trace Step .genesis before u → ¬Holds launcherId launcher right caller u → s ∈ launched →
      s.launcherCoin = launcher → s.gives v.height caller right = true →
      (∀ x ∈ (.spendDid launcherId next launched, v) :: after, Holds launcherId launcher right caller x.2) →
      Entitled launcherId launcher (before ++ (.spendDid launcherId next launched, v) :: after) right caller
  | granted (before after : Log) (u v : World) (old s : StoreSingleton) (grantor : Bytes32)
      (right : Right) (caller : Bytes32) :
      Trace Step .genesis before u → ¬Holds launcherId launcher right caller u → old ∈ u.stores →
      old.launcherCoin = launcher → old.gives u.height grantor right.giver = true →
      Entitled launcherId launcher before right.giver grantor → s.gives v.height caller right = true →
      (∀ x ∈ (.spendStore old (some s) grantor, v) :: after, Holds launcherId launcher right caller x.2) →
      Entitled launcherId launcher (before ++ (.spendStore old (some s) grantor, v) :: after) right caller

section Steps

variable {w w' : World} {e : Event} {launcherId : Bytes32} {launcher : Coin} {right : Right}
  {caller : Bytes32}

theorem height_step (h : Step w e w') : w.height ≤ w'.height := by
  cases h with
  | launchDid | spendDid | launchStore | spendStore => exact UInt32.le_refl _
  | advance _ hle => exact hle

/-- A right that a record gives at a height it gave at every height before. -/
theorem gives_earlier {s : StoreSingleton} {h h' : UInt32} (hle : h ≤ h')
    (hg : s.gives h' caller right = true) : s.gives h caller right = true := by
  cases right with
  | write => exact step_holders (.advance (s.authority h) h' hle) hg
  | own => exact hg
  | manage =>
      rw [StoreSingleton.gives, Bool.or_eq_true] at hg ⊢
      refine hg.imp_right fun ha => ?_
      obtain ⟨d, hd, hda⟩ := List.any_eq_true.mp ha
      rw [Bool.and_eq_true, delegation_authorizes_iff] at hda
      refine List.any_eq_true.mpr ⟨d, hd, ?_⟩
      rw [Bool.and_eq_true, delegation_authorizes_iff]
      exact ⟨hda.1, hda.2.1, fun hi => hda.2.2 (inert_mono hle hi)⟩

/-- Time and other stores give nobody a right, and neither does a writer: who
has gained one was named by a launch of the DID or by somebody who could. -/
theorem holds_step (h : Step w e w') (hw : w.Disjoint) (hbefore : ¬Holds launcherId launcher right caller w)
    (hafter : Holds launcherId launcher right caller w') :
    (∃ next launched s, e = .spendDid launcherId next launched ∧ s ∈ launched ∧
      s.launcherCoin = launcher ∧ s.gives w'.height caller right = true) ∨
      ∃ old s grantor, e = .spendStore old (some s) grantor ∧ old ∈ w.stores ∧
        old.launcherCoin = launcher ∧ old.gives w.height grantor right.giver = true ∧
        Holds launcherId launcher right.giver grantor w ∧ s.gives w'.height caller right = true := by
  obtain ⟨s, hs, rfl, hp, hgives⟩ := hafter
  have hearlier : s.gives w.height caller right = true := gives_earlier (height_step h) hgives
  rcases arrives_of_mem h hs with hold | harrives
  · exact absurd ⟨s, hold, rfl, parent_mem_of_mem_step h hold hp, hearlier⟩ hbefore
  · rcases arrives_from_did h hw harrives hp with ⟨next, launched, rfl, hin⟩ |
      ⟨old, grantor, rfl, hold, hcoin, hparent, hpermits⟩
    · exact .inl ⟨next, launched, s, rfl, hin, rfl, hgives⟩
    · right
      have hparent' : s.launcherCoin.parentCoinInfo ∈ w.walk launcherId := hcoin ▸ hparent
      rcases hpermits.given hearlier with hhad | hcould
      · exact absurd ⟨old, hold, hcoin.symm, hparent', hhad⟩ hbefore
      · exact ⟨old, s, grantor, rfl, hold, hcoin.symm, hcould, ⟨old, hold, hcoin.symm, hparent', hcould⟩,
          hgives⟩

theorem not_holds_genesis : ¬Holds launcherId launcher right caller .genesis := by
  rintro ⟨_, hs, _⟩
  exact nomatch hs

/-- By induction on the length of the run: it is cut where the caller last gained
the right, and what led there is a shorter run. -/
theorem entitled_of_holds {log : Log} (h : Trace Step .genesis log w)
    (hw : Holds launcherId launcher right caller w) : Entitled launcherId launcher log right caller := by
  induction hn : log.length using Nat.strong_induction_on generalizing log w right caller with
  | _ n ih =>
      obtain ⟨before, e, v, after, u, rfl, hu, hstep, hnot, hsince⟩ :=
        h.last_established not_holds_genesis hw
      have hv : Holds launcherId launcher right caller v := hsince (e, v) (List.mem_cons_self ..)
      have hlt : before.length < n := by
        rw [← hn, List.length_append, List.length_cons]
        omega
      rcases holds_step hstep (disjoint_run hu.run disjoint_genesis) hnot hv with
        ⟨next, launched, s, rfl, hs, hcoin, hgives⟩ |
        ⟨old, s, grantor, rfl, hold, hcoin, hcould, hgrantor, hgives⟩
      · exact .launched before after u v next launched s right caller hu hnot hs hcoin hgives hsince
      · exact .granted before after u v old s grantor right caller hu hnot hold hcoin hcould
          (ih before.length hlt hu hgrantor rfl) hgives hsince

theorem holds_of_entitled {log : Log} (h : Trace Step .genesis log w)
    (he : Entitled launcherId launcher log right caller) : Holds launcherId launcher right caller w := by
  have hend {before after : Log} {e : Event} {v : World} (h : Trace Step .genesis (before ++ (e, v) :: after) w)
      (hsince : ∀ x ∈ (e, v) :: after, Holds launcherId launcher right caller x.2) :
      Holds launcherId launcher right caller w := by
    obtain ⟨_, _, _, hafter⟩ := h.split
    obtain ⟨hv, hrest⟩ := List.forall_mem_cons.mp hsince
    exact hafter.of_throughout hv hrest
  cases he with
  | launched _ _ _ _ _ _ _ _ _ _ _ _ _ _ hsince => exact hend h hsince
  | granted _ _ _ _ _ _ _ _ _ _ _ _ _ _ _ _ hsince => exact hend h hsince

end Steps

/-- In every run of the chain, whoever may write to a DID's store holds that right
by grants which the run records: each by somebody with the right to make it, and
the first by the DID's own spend. Nobody else holds a right, nor does anybody
who is entitled lack it. -/
theorem writers_are_entitled {w : World} {log : Log} (hw : Trace Step .genesis log w)
    (launcherId : Bytes32) :
    (∀ s ∈ w.stores, s.parent ∈ w.walk launcherId → ∀ caller,
      (s.authority w.height).authorizes caller = true →
        Entitled launcherId s.launcherCoin log .write caller) ∧
    (∀ launcher right caller, Entitled launcherId launcher log right caller ↔
      Holds launcherId launcher right caller w) :=
  ⟨fun s hs hp _ h => entitled_of_holds hw ⟨s, hs, rfl, hp, h⟩,
    fun _ _ _ => ⟨holds_of_entitled hw, entitled_of_holds hw⟩⟩

section Sample

open References

/-- The owner has made party 88 a writer until height 50. -/
def delegatedStore (p : Profile) : StoreSingleton :=
  { sampleStore p with delegations := [⟨coinId 88, .writer, false, some 50⟩] }

def delegatedWorld (p : Profile) : World := { publishedWorld p with stores := [delegatedStore p] }

def delegatedLog (p : Profile) : Log :=
  publishedLog p ++
    [(.spendStore (sampleStore p) (some (delegatedStore p)) (coinId 77), delegatedWorld p)]

theorem trace_delegatedWorld (p : Profile) :
    Trace Step .genesis (delegatedLog p) (delegatedWorld p) := by
  refine (trace_publishedWorld p).append (.single (.spendStore (publishedWorld p) [] [] _ _ _ rfl ?_))
  refine .own _ (beq_iff_eq.mpr rfl) ?_
  intro s' hs'
  cases hs'
  rfl

theorem sampleWriter_entitled :
    Entitled (coinId 42) ⟨coinId 1, coinId 9, 1⟩ (delegatedLog sampleProfile) .write (coinId 88) ∧
      ¬Entitled (coinId 42) ⟨coinId 1, coinId 9, 1⟩ (delegatedLog sampleProfile) .manage (coinId 88) := by
  have hparent : (delegatedStore sampleProfile).parent ∈ (delegatedWorld sampleProfile).walk (coinId 42) :=
    parent_mem_publishedWorld sampleProfile
  have hwriter : ((delegatedStore sampleProfile).authority 0).authorizes (coinId 88) = true := by
    refine (authorizes_iff _ _).mpr (.inr ⟨_, List.mem_singleton_self _, rfl, ?_⟩)
    rintro (h | h | ⟨expiry, he, hle⟩)
    · exact nomatch h
    · exact nomatch h
    · cases he
      exact absurd hle (by decide)
  obtain ⟨hwriters, hexact⟩ := writers_are_entitled (trace_delegatedWorld sampleProfile) (coinId 42)
  refine ⟨hwriters _ (List.mem_singleton_self _) hparent _ hwriter, fun h => ?_⟩
  obtain ⟨s, hs, _, _, hgives⟩ := (hexact _ _ _).mp h
  rw [List.mem_singleton.mp hs] at hgives
  exact absurd hgives (by decide +kernel)

end Sample

end DigIdentity.DelegationChains
