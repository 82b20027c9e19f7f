import DigIdentity.AuthorityRuns
import DigIdentity.DelegationChains

namespace DigIdentity.AuthorityWindows

open ByteStrings Authorities AuthorityRuns ChainWorlds DelegationChains

/-- The first height at which an entry no longer authorizes the caller: zero
when it never does, `⊤` when it always does. -/
noncomputable def entryWindow (caller : Bytes32) (d : WriterDelegation) : ℕ∞ :=
  if d.delegatePuzzleHash = caller ∧ d.kind ≠ .oracle ∧ d.revoked = false then
    d.expiresAtHeight.elim ⊤ fun expiry => (expiry.toNat : ℕ∞)
  else 0

/-- How long an authority lets a caller advance the root. -/
noncomputable def window (a : StoreUpdateAuthority) (caller : Bytes32) : ℕ∞ :=
  if caller = a.ownerPuzzleHash then ⊤ else ⨆ d ∈ a.delegations, entryWindow caller d

def atHeight (a : StoreUpdateAuthority) (height : UInt32) : StoreUpdateAuthority :=
  { a with currentHeight := height }

section Entries

variable {caller : Bytes32} {d e : WriterDelegation} {height : UInt32}

theorem lt_entryWindow_iff :
    (height.toNat : ℕ∞) < entryWindow caller d ↔ d.delegatePuzzleHash = caller ∧ ¬d.Inert height := by
  unfold entryWindow WriterDelegation.Inert
  by_cases hd : d.delegatePuzzleHash = caller <;> by_cases hk : d.kind = .oracle <;>
    cases d.revoked <;> simp [hd, hk]
  cases d.expiresAtHeight with
  | none => simp
  | some expiry => simp [UInt32.lt_iff_toNat_lt]

theorem entryWindow_lt (h : entryWindow caller d ≠ ⊤) : entryWindow caller d < (2 ^ 32 : Nat) := by
  unfold entryWindow at h ⊢
  by_cases hc : d.delegatePuzzleHash = caller ∧ d.kind ≠ .oracle ∧ d.revoked = false
  · rw [if_pos hc] at h ⊢
    cases hx : d.expiresAtHeight with
    | none => simp [hx] at h
    | some expiry => exact Nat.cast_lt.mpr expiry.toNat_lt
  · rw [if_neg hc]
    exact Nat.cast_lt.mpr (Nat.two_pow_pos 32)

/-- What a step does to one entry shortens its window. -/
theorem entryWindow_restricts (h : Restricts d e) : entryWindow caller e ≤ entryWindow caller d := by
  cases h with
  | revoke | makeOracle => simp [entryWindow]
  | expire expiry hle =>
      by_cases hc : d.delegatePuzzleHash = caller ∧ d.kind ≠ .oracle ∧ d.revoked = false
      · rw [entryWindow, entryWindow, if_pos hc, if_pos hc]
        cases hx : d.expiresAtHeight with
        | none => exact le_top
        | some old => exact Nat.cast_le.mpr (UInt32.le_iff_toNat_le.mp (hle old hx))
      · rw [entryWindow, entryWindow, if_neg hc, if_neg hc]

end Entries

section Windows

variable {a b : StoreUpdateAuthority} {caller : Bytes32} {height : UInt32}

/-- A caller is authorized as long as the height is below its window. -/
theorem authorizes_iff_lt_window :
    (atHeight a height).authorizes caller = true ↔ (height.toNat : ℕ∞) < window a caller := by
  rw [authorizes_iff, window]
  by_cases ho : caller = a.ownerPuzzleHash
  · rw [if_pos ho]
    exact iff_of_true (.inl ho) (ENat.natCast_lt_top _)
  · rw [if_neg ho, lt_iSup_iff]
    simp only [lt_iSup_iff, lt_entryWindow_iff, exists_prop]
    exact or_iff_right ho

/-- A window that closes does so at a height. -/
theorem window_lt (h : window a caller ≠ ⊤) : window a caller < (2 ^ 32 : Nat) := by
  by_contra hle
  have hmax : ((2 ^ 32 - 1 : Nat) : ℕ∞) < window a caller :=
    lt_of_lt_of_le (Nat.cast_lt.mpr (by decide)) (not_lt.mp hle)
  apply h
  rw [window] at hmax ⊢
  by_cases ho : caller = a.ownerPuzzleHash
  · rw [if_pos ho]
  · rw [if_neg ho] at hmax ⊢
    simp only [lt_iSup_iff] at hmax
    obtain ⟨d, hm, hd⟩ := hmax
    have htop : entryWindow caller d = ⊤ := by
      by_contra hne
      obtain ⟨n, hn⟩ := ENat.ne_top_iff_exists.mp hne
      have hlt := entryWindow_lt hne
      rw [← hn, Nat.cast_lt] at hd hlt
      omega
    exact top_le_iff.mp (htop ▸ le_biSup (entryWindow caller) hm)

/-- Windows that agree on every height are the same. -/
theorem window_eq_of_authorizes
    (h : ∀ height, (atHeight a height).authorizes caller = (atHeight b height).authorizes caller) :
    window a caller = window b caller := by
  have hle {x y : StoreUpdateAuthority}
      (hxy : ∀ height, (atHeight x height).authorizes caller = (atHeight y height).authorizes caller) :
      window x caller ≤ window y caller := by
    by_contra hlt
    have hlt := not_le.mp hlt
    have hsmall := window_lt hlt.ne_top
    obtain ⟨n, hn⟩ := ENat.ne_top_iff_exists.mp hlt.ne_top
    rw [← hn] at hlt hsmall
    have hn' : (UInt32.ofNat n).toNat = n := UInt32.toNat_ofNat_of_lt (Nat.cast_lt.mp hsmall)
    have hx : (atHeight x (.ofNat n)).authorizes caller = true := by
      rw [authorizes_iff_lt_window, hn']
      exact hlt
    rw [hxy, authorizes_iff_lt_window, hn', ← hn] at hx
    exact lt_irrefl _ hx
  exact le_antisymm (hle h) (hle fun height => (h height).symm)

/-- No step lengthens anybody's window. -/
theorem window_le (howner : b.ownerPuzzleHash = a.ownerPuzzleHash)
    (h : ∀ e ∈ b.delegations, ∃ d ∈ a.delegations, entryWindow caller e ≤ entryWindow caller d) :
    window b caller ≤ window a caller := by
  rw [window, window, howner]
  by_cases ho : caller = a.ownerPuzzleHash
  · rw [if_pos ho, if_pos ho]
  · rw [if_neg ho, if_neg ho]
    refine iSup₂_le fun e he => ?_
    obtain ⟨d, hd, hle⟩ := h e he
    exact hle.trans (le_biSup (entryWindow caller) hd)

theorem window_step (h : AuthorityRuns.Step a b) : window b caller ≤ window a caller := by
  refine window_le (step_owner h) ?_
  cases h with
  | advance => exact fun e he => ⟨e, he, le_rfl⟩
  | delete owner before after height d =>
      intro e he
      refine ⟨e, ?_, le_rfl⟩
      rcases List.mem_append.mp he with he | he <;> simp [he]
  | restrict owner before after height d e' hr =>
      intro e he
      simp only [List.mem_append, List.mem_cons] at he
      rcases he with he | rfl | he
      · exact ⟨e, by simp [he], le_rfl⟩
      · exact ⟨d, by simp, entryWindow_restricts hr⟩
      · exact ⟨e, by simp [he], le_rfl⟩

theorem window_run (h : AuthorityRuns.Run a b) : window b caller ≤ window a caller := by
  induction h with
  | refl => exact le_rfl
  | tail _ hstep ih => exact (window_step hstep).trans ih

end Windows

/-- A store can be spent by a caller just as long as the caller's window in its
authority is open. -/
theorem spendable_iff {w : World} {s : StoreSingleton} (hs : s ∈ w.stores) (caller : Bytes32)
    (height : UInt32) :
    (∃ next w', ChainWorlds.Step w (.spendStore s next caller) w') ↔
      (w.height.toNat : ℕ∞) < window (s.authority height) caller := by
  have hsame : s.authority w.height = atHeight (s.authority height) w.height := rfl
  rw [← authorizes_iff_lt_window, ← hsame]
  constructor
  · rintro ⟨next, w', h⟩
    cases h with
    | spendStore before after _ _ _ _ hpermits => exact hpermits.authorizes
  · intro hauth
    obtain ⟨before, after, hstores⟩ := List.append_of_mem hs
    exact ⟨_, _, .spendStore w before after s _ caller hstores (.write s.state.rootHash hauth)⟩

/-- All that an authority decides is one window for each caller: authorities
with the same windows and no others give the same answers at every height, a run
only shortens windows, and what was found before a spend holds at any later
height if the store is still the same. -/
theorem authority_is_a_window (a : StoreUpdateAuthority) :
    (∀ caller height, (atHeight a height).authorizes caller = true ↔
      (height.toNat : ℕ∞) < window a caller) ∧
    (∀ b, (∀ caller height,
      (atHeight a height).authorizes caller = (atHeight b height).authorizes caller) ↔
        window a = window b) ∧
    (∀ b, AuthorityRuns.Run a b → window b ≤ window a) ∧
    (∀ w w' s caller, ChainWorlds.Run w w' → s ∈ w.stores → s ∈ w'.stores →
      s.authority w.height = a →
      ((∃ next w'', ChainWorlds.Step w' (.spendStore s next caller) w'') ↔
        (w'.height.toNat : ℕ∞) < window a caller) ∧
      (a.authorizes caller = false → ∀ next w'', ¬ChainWorlds.Step w' (.spendStore s next caller) w'')) := by
  refine ⟨fun _ _ => authorizes_iff_lt_window, fun b => ⟨?_, ?_⟩, fun b h caller => window_run h, ?_⟩
  · exact fun h => funext fun caller => window_eq_of_authorizes (h caller)
  · intro h caller height
    rw [Bool.eq_iff_iff, authorizes_iff_lt_window, authorizes_iff_lt_window, h]
  · rintro w w' s caller hrun hs hs' rfl
    have hspend := spendable_iff hs' caller w.height
    refine ⟨hspend, fun hno next w'' hstep => ?_⟩
    have hlater := hspend.mp ⟨next, w'', hstep⟩
    have hheight : w.height ≤ w'.height :=
      Runs.preserved (P := fun x => w.height ≤ x.height)
        (fun x y ⟨_, h⟩ hx => UInt32.le_trans hx (height_step h)) hrun (UInt32.le_refl _)
    have hnow : (w.height.toNat : ℕ∞) < window (s.authority w.height) caller :=
      lt_of_le_of_lt (Nat.cast_le.mpr (UInt32.le_iff_toNat_le.mp hheight)) hlater
    rw [← authorizes_iff_lt_window] at hnow
    exact Bool.false_ne_true (hno.symm.trans hnow)

end DigIdentity.AuthorityWindows
