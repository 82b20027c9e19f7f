import DigIdentity.Authorities
import DigIdentity.Resolvers
import DigIdentity.Runs

/-!
The chain that resolution reads, as the trust model of `ChainSource` and the
rules for pairings and updates describe it. A DID advances by spends of its
unspent coin, each of which may launch stores. A store keeps its launcher coin:
its owner may choose all the rest anew, an admin the root and the delegations, a
writer the root alone. Foreign stores appear with any description and any parent
that is no coin of a DID.
-/

namespace DigIdentity.ChainWorlds

open ByteStrings Addresses Dids Pairings Resolvers Authorities Runs

structure DidSingleton where
  tip : Bytes32
  past : List Bytes32
  live : Bool

def DidSingleton.walk (d : DidSingleton) : List Bytes32 := d.tip :: d.past

/-- A spend recreates the singleton as the coin `next`, or melts it. -/
def DidSingleton.spend (d : DidSingleton) : Option Bytes32 → DidSingleton
  | some next => ⟨next, d.walk, true⟩
  | none => { d with live := false }

def DidSingleton.lineage (d : DidSingleton) : Option SingletonLineage :=
  if d.live then some (.new d.tip d.past) else none

structure StoreSingleton where
  state : ChainStoreState
  ownerPuzzleHash : Bytes32
  delegations : List WriterDelegation
deriving DecidableEq

namespace StoreSingleton

def launcherCoin (s : StoreSingleton) : Coin := s.state.store.launcherCoin

def parent (s : StoreSingleton) : Bytes32 := s.launcherCoin.parentCoinInfo

def authority (s : StoreSingleton) (height : UInt32) : StoreUpdateAuthority :=
  ⟨s.ownerPuzzleHash, s.delegations, height⟩

end StoreSingleton

/-- What a party may hold of a store: a writer advances its root, an admin
manages the delegations as well, and the owner is free. -/
inductive Right
  | write
  | manage
  | own

namespace StoreSingleton

def administers (s : StoreSingleton) (height : UInt32) (caller : Bytes32) : Bool :=
  s.delegations.any fun delegation =>
    delegation.kind == .admin && delegation.authorizes caller height

def gives (s : StoreSingleton) (height : UInt32) (caller : Bytes32) : Right → Bool
  | .write => (s.authority height).authorizes caller
  | .manage => caller == s.ownerPuzzleHash || s.administers height caller
  | .own => caller == s.ownerPuzzleHash

/-- The spends that a caller's rights cover, where `none` melts the store. -/
inductive Permits (s : StoreSingleton) (height : UInt32) (caller : Bytes32) :
    Option StoreSingleton → Prop
  | own (next : Option StoreSingleton) :
      s.gives height caller .own = true → (∀ s' ∈ next, s'.launcherCoin = s.launcherCoin) →
      Permits s height caller next
  | manage (rootHash : Bytes32) (delegations : List WriterDelegation) :
      s.gives height caller .manage = true →
      Permits s height caller (some ⟨⟨s.state.store, rootHash⟩, s.ownerPuzzleHash, delegations⟩)
  | write (rootHash : Bytes32) :
      s.gives height caller .write = true →
      Permits s height caller (some ⟨⟨s.state.store, rootHash⟩, s.ownerPuzzleHash, s.delegations⟩)

end StoreSingleton

structure World where
  dids : Bytes32 → Option DidSingleton
  stores : List StoreSingleton
  height : UInt32

namespace World

def genesis : World := ⟨fun _ => none, [], 0⟩

/-- The coins a DID has had, melted or not. -/
def walk (w : World) (launcherId : Bytes32) : List Bytes32 :=
  match w.dids launcherId with
  | some d => d.walk
  | none => []

def lineage (w : World) (launcherId : Bytes32) : Option SingletonLineage :=
  (w.dids launcherId).bind DidSingleton.lineage

def withDid (w : World) (launcherId : Bytes32) (d : DidSingleton) : World :=
  { w with dids := Function.update w.dids launcherId (some d) }

structure Fresh (w : World) (c : Bytes32) : Prop where
  walks : ∀ launcherId, c ∉ w.walk launcherId
  parents : ∀ s ∈ w.stores, s.parent ≠ c

end World

inductive Event
  | launchDid (launcherId coin : Bytes32)
  | spendDid (launcherId : Bytes32) (next : Option Bytes32) (launched : List StoreSingleton)
  | launchStore (store : StoreSingleton)
  | spendStore (store : StoreSingleton) (next : Option StoreSingleton) (caller : Bytes32)
  | advance (height : UInt32)

inductive Step : World → Event → World → Prop
  | launchDid (w : World) (launcherId coin : Bytes32) :
      w.dids launcherId = none → w.Fresh launcherId → w.Fresh coin → coin ≠ launcherId →
      Step w (.launchDid launcherId coin) (w.withDid launcherId ⟨coin, [launcherId], true⟩)
  | spendDid (w : World) (launcherId : Bytes32) (d : DidSingleton) (next : Option Bytes32)
      (launched : List StoreSingleton) :
      w.dids launcherId = some d → d.live = true → (∀ c ∈ next, w.Fresh c) →
      (∀ s ∈ launched, s.parent = d.tip) →
      Step w (.spendDid launcherId next launched)
        { w.withDid launcherId (d.spend next) with stores := w.stores ++ launched }
  | launchStore (w : World) (s : StoreSingleton) :
      (∀ launcherId, s.parent ∉ w.walk launcherId) →
      Step w (.launchStore s) { w with stores := w.stores ++ [s] }
  | spendStore (w : World) (before after : List StoreSingleton) (s : StoreSingleton)
      (next : Option StoreSingleton) (caller : Bytes32) :
      w.stores = before ++ s :: after → s.Permits w.height caller next →
      Step w (.spendStore s next caller) { w with stores := before ++ next.toList ++ after }
  | advance (w : World) (height : UInt32) :
      w.height ≤ height → Step w (.advance height) { w with height }

def Next (w w' : World) : Prop := ∃ e, Step w e w'

def Run : World → World → Prop := Relation.ReflTransGen Next

/-- What has happened, each event with the world that it led to. -/
abbrev Log := List (Event × World)

section Rights

variable {s s' : StoreSingleton} {height : UInt32} {caller grantor : Bytes32} {right : Right}
  {next : Option StoreSingleton}

/-- A caller with any right at all is authorized to advance the root. -/
theorem authorizes_of_gives (h : s.gives height caller right = true) :
    (s.authority height).authorizes caller = true := by
  have howner (ho : caller = s.ownerPuzzleHash) : (s.authority height).authorizes caller = true :=
    (authorizes_iff _ _).mpr (.inl ho)
  cases right with
  | write => exact h
  | own => exact howner (beq_iff_eq.mp h)
  | manage =>
      rw [StoreSingleton.gives, Bool.or_eq_true, beq_iff_eq] at h
      rcases h with ho | ha
      · exact howner ho
      · obtain ⟨d, hd, hda⟩ := List.any_eq_true.mp ha
        rw [Bool.and_eq_true, delegation_authorizes_iff] at hda
        exact (authorizes_iff _ _).mpr (.inr ⟨d, hd, hda.2⟩)

theorem StoreSingleton.Permits.authorizes (h : s.Permits height caller next) :
    (s.authority height).authorizes caller = true := by
  cases h with
  | own _ hg | manage _ _ hg | write _ hg => exact authorizes_of_gives hg

theorem StoreSingleton.Permits.launcherCoin (h : s.Permits height caller next) :
    ∀ s' ∈ next, s'.launcherCoin = s.launcherCoin := by
  cases h with
  | own _ _ hnext => exact hnext
  | manage | write =>
      intro s' hs'
      cases hs'
      rfl

/-- Who may give a right away: the owner its own place, whoever manages the
delegations the rest. -/
def Right.giver : Right → Right
  | .write | .manage => .manage
  | .own => .own

/-- A spend hands out no right that the spender may not give. -/
theorem StoreSingleton.Permits.given (h : s.Permits height grantor (some s'))
    (hafter : s'.gives height caller right = true) :
    s.gives height caller right = true ∨ s.gives height grantor right.giver = true := by
  cases h with
  | own _ hg =>
      right
      cases right with
      | own => exact hg
      | write | manage => exact Bool.or_eq_true_iff.mpr (.inl hg)
  | manage rootHash delegations hg =>
      cases right with
      | own => exact .inl hafter
      | write | manage => exact .inr hg
  | write => exact .inl hafter

end Rights

section Walks

variable {w w' : World} {e : Event} {launcherId c : Bytes32}

theorem walk_of_some {d : DidSingleton} (h : w.dids launcherId = some d) :
    w.walk launcherId = d.walk := by
  rw [World.walk, h]

theorem walk_of_none (h : w.dids launcherId = none) : w.walk launcherId = [] := by
  rw [World.walk, h]

theorem walk_congr (h : w'.dids launcherId = w.dids launcherId) :
    w'.walk launcherId = w.walk launcherId := by
  rw [World.walk, World.walk, h]

theorem lineage_congr (h : w'.dids launcherId = w.dids launcherId) :
    w'.lineage launcherId = w.lineage launcherId := by
  rw [World.lineage, World.lineage, h]

theorem withDid_dids (d : DidSingleton) (id : Bytes32) :
    (w.withDid launcherId d).dids id = if id = launcherId then some d else w.dids id := by
  simp [World.withDid, Function.update_apply]

theorem walk_spend (d : DidSingleton) (next : Option Bytes32) :
    (d.spend next).walk = next.toList ++ d.walk := by
  cases next <;> rfl

theorem lineage_eq_some_iff {lineage : SingletonLineage} :
    w.lineage launcherId = some lineage ↔
      ∃ d, w.dids launcherId = some d ∧ d.live = true ∧ .new d.tip d.past = lineage := by
  cases h : w.dids launcherId with
  | none => simp [World.lineage, h]
  | some d => simp [World.lineage, h, DidSingleton.lineage]

theorem contains_of_lineage {lineage : SingletonLineage} (h : w.lineage launcherId = some lineage) :
    lineage.contains c = true ↔ c ∈ w.walk launcherId := by
  obtain ⟨d, hd, _, rfl⟩ := lineage_eq_some_iff.mp h
  rw [walk_of_some hd, contains_new_iff, DidSingleton.walk, List.mem_cons]

/-- The launcher id of the DID whose coin an event creates or spends. -/
def Event.did : Event → Option Bytes32
  | .launchDid launcherId _ | .spendDid launcherId _ _ => some launcherId
  | .launchStore _ | .spendStore _ _ _ | .advance _ => none

theorem dids_step (h : Step w e w') (hid : e.did ≠ some launcherId) :
    w'.dids launcherId = w.dids launcherId := by
  cases h with
  | launchDid id coin hnone hid' hcoin hne =>
      have hne' : launcherId ≠ id := fun he => hid (by rw [he]; rfl)
      rw [withDid_dids, if_neg hne']
  | spendDid id d next launched hd hlive hfresh hparents =>
      have hne : launcherId ≠ id := fun he => hid (by rw [he]; rfl)
      exact (withDid_dids _ _).trans (if_neg hne)
  | launchStore | spendStore | advance => rfl

/-- No coin ever leaves a walk, and one that joins it is fresh. -/
theorem walk_step (h : Step w e w') (launcherId : Bytes32) :
    ∃ joined, w'.walk launcherId = joined ++ w.walk launcherId ∧
      ∀ c ∈ joined, e.did = some launcherId ∧ w.Fresh c := by
  by_cases hid : e.did = some launcherId
  · cases h with
    | launchDid id coin hnone hfresh hcoin hne =>
        cases hid
        refine ⟨[coin, launcherId], ?_, ?_⟩
        · rw [walk_of_none hnone, walk_of_some ((withDid_dids _ _).trans (if_pos rfl))]
          rfl
        · simp only [List.forall_mem_cons]
          exact ⟨⟨rfl, hcoin⟩, ⟨rfl, hfresh⟩, nofun⟩
    | spendDid id d next launched hd hlive hfresh hparents =>
        cases hid
        refine ⟨next.toList, ?_, ?_⟩
        · rw [walk_of_some hd, ← walk_spend]
          exact walk_of_some ((withDid_dids _ _).trans (if_pos rfl))
        · intro c hc
          exact ⟨rfl, hfresh c (Option.mem_toList.mp hc)⟩
    | launchStore | spendStore | advance => exact nomatch hid
  · exact ⟨[], walk_congr (dids_step h hid), nofun⟩

theorem walk_mono (h : Step w e w') (hc : c ∈ w.walk launcherId) : c ∈ w'.walk launcherId := by
  obtain ⟨joined, hw, _⟩ := walk_step h launcherId
  rw [hw]
  exact List.mem_append_right _ hc

theorem fresh_of_joined (h : Step w e w') (hc : c ∈ w'.walk launcherId)
    (hout : c ∉ w.walk launcherId) : e.did = some launcherId ∧ w.Fresh c := by
  obtain ⟨joined, hw, hj⟩ := walk_step h launcherId
  rw [hw] at hc
  exact hj c ((List.mem_append.mp hc).resolve_right hout)

end Walks

section Stores

variable {w w' : World} {e : Event}

/-- How a store comes to stand on the chain as it does: launched by a DID's own
spend, launched by somebody else, or spent by an authorized caller. -/
inductive Arrives (w : World) (s : StoreSingleton) : Event → Prop
  | launched (launcherId : Bytes32) (d : DidSingleton) (next : Option Bytes32)
      (launched : List StoreSingleton) :
      w.dids launcherId = some d → s ∈ launched → s.parent = d.tip →
      Arrives w s (.spendDid launcherId next launched)
  | foreign : (∀ launcherId, s.parent ∉ w.walk launcherId) → Arrives w s (.launchStore s)
  | spent (old : StoreSingleton) (caller : Bytes32) :
      old ∈ w.stores → old.Permits w.height caller (some s) →
      Arrives w s (.spendStore old (some s) caller)

theorem arrives_of_mem (h : Step w e w') {s : StoreSingleton} (hs : s ∈ w'.stores) :
    s ∈ w.stores ∨ Arrives w s e := by
  cases h with
  | launchDid | advance => exact .inl hs
  | spendDid id d next launched hd hlive hfresh hparents =>
      rcases List.mem_append.mp hs with hs | hs
      · exact .inl hs
      · exact .inr (.launched id d next launched hd hs (hparents s hs))
  | launchStore store hforeign =>
      rcases List.mem_append.mp hs with hs | hs
      · exact .inl hs
      · cases List.mem_singleton.mp hs
        exact .inr (.foreign hforeign)
  | spendStore before after old next caller hstores hpermits =>
      rw [hstores]
      simp only [List.append_assoc, List.mem_append, Option.mem_toList] at hs
      rcases hs with hs | hs | hs
      · exact .inl (by simp [hs])
      · cases hs
        exact .inr (.spent old caller (by simp [hstores]) hpermits)
      · exact .inl (by simp [hs])

end Stores

/-- No coin is in the walks of two DIDs. -/
def World.Disjoint (w : World) : Prop :=
  ∀ i j c, c ∈ w.walk i → c ∈ w.walk j → i = j

theorem disjoint_genesis : World.genesis.Disjoint := by
  intro i j c hc
  simp [World.walk, World.genesis] at hc

theorem disjoint_step {w w' : World} (h : Next w w') (hw : w.Disjoint) : w'.Disjoint := by
  obtain ⟨e, h⟩ := h
  intro i j c hi hj
  by_cases hwi : c ∈ w.walk i <;> by_cases hwj : c ∈ w.walk j
  · exact hw i j c hwi hwj
  · exact absurd hwi ((fresh_of_joined h hj hwj).2.walks i)
  · exact absurd hwj ((fresh_of_joined h hi hwi).2.walks j)
  · have hdi := (fresh_of_joined h hi hwi).1
    rw [(fresh_of_joined h hj hwj).1, Option.some.injEq] at hdi
    exact hdi.symm

theorem disjoint_run {w w' : World} (h : Run w w') (hw : w.Disjoint) : w'.Disjoint :=
  preserved (fun _ _ => disjoint_step) h hw

theorem walk_mono_run {w w' : World} (h : Run w w') {launcherId c : Bytes32}
    (hc : c ∈ w.walk launcherId) : c ∈ w'.walk launcherId :=
  preserved (P := fun w => c ∈ w.walk launcherId) (fun _ _ ⟨_, hs⟩ => walk_mono hs) h hc

end DigIdentity.ChainWorlds
