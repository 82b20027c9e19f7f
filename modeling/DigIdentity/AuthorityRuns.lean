import DigIdentity.Authorities

namespace DigIdentity.AuthorityRuns

open ByteStrings Authorities

/-- What a step may do to one delegation: none of these widens it. -/
inductive Restricts : WriterDelegation → WriterDelegation → Prop
  | revoke (d : WriterDelegation) : Restricts d { d with revoked := true }
  | expire (d : WriterDelegation) (expiry : UInt32) :
      (∀ old, d.expiresAtHeight = some old → expiry ≤ old) →
      Restricts d { d with expiresAtHeight := some expiry }
  | makeOracle (d : WriterDelegation) : Restricts d { d with kind := .oracle }

inductive Step : StoreUpdateAuthority → StoreUpdateAuthority → Prop
  | advance (a : StoreUpdateAuthority) (height : UInt32) :
      a.currentHeight ≤ height → Step a { a with currentHeight := height }
  | restrict (owner : Bytes32) (before after : List WriterDelegation) (height : UInt32)
      (d e : WriterDelegation) :
      Restricts d e → Step ⟨owner, before ++ d :: after, height⟩ ⟨owner, before ++ e :: after, height⟩
  | delete (owner : Bytes32) (before after : List WriterDelegation) (height : UInt32)
      (d : WriterDelegation) :
      Step ⟨owner, before ++ d :: after, height⟩ ⟨owner, before ++ after, height⟩

/-- Any finite sequence of steps. -/
def Run : StoreUpdateAuthority → StoreUpdateAuthority → Prop := Relation.ReflTransGen Step

/-- The callers an authority lets advance the root. -/
def holders (a : StoreUpdateAuthority) : Set Bytes32 := {caller | a.authorizes caller = true}

theorem mem_holders {a : StoreUpdateAuthority} {caller : Bytes32} :
    caller ∈ holders a ↔ a.authorizes caller = true := Iff.rfl

theorem inert_mono {d : WriterDelegation} {h h' : UInt32} (hle : h ≤ h') (hi : d.Inert h) :
    d.Inert h' := by
  rcases hi with hr | hk | ⟨expiry, he, hx⟩
  · exact .inl hr
  · exact .inr (.inl hk)
  · exact .inr (.inr ⟨expiry, he, UInt32.le_trans hx hle⟩)

theorem restricts_inert {d e : WriterDelegation} (h : Restricts d e) {height : UInt32}
    (hi : d.Inert height) : e.Inert height := by
  cases h with
  | revoke => exact .inl rfl
  | makeOracle => exact .inr (.inl rfl)
  | expire expiry hle =>
      rcases hi with hr | hk | ⟨old, ho, hx⟩
      · exact .inl hr
      · exact .inr (.inl hk)
      · exact .inr (.inr ⟨expiry, rfl, UInt32.le_trans (hle old ho) hx⟩)

theorem restricts_delegate {d e : WriterDelegation} (h : Restricts d e) :
    e.delegatePuzzleHash = d.delegatePuzzleHash := by
  cases h <;> rfl

theorem step_owner {a b : StoreUpdateAuthority} (h : Step a b) :
    b.ownerPuzzleHash = a.ownerPuzzleHash := by
  cases h <;> rfl

/-- No step gives anybody authority: what authorizes a caller after the step is
the owner's key or an entry that was there, no weaker, before it. -/
theorem step_holders {a b : StoreUpdateAuthority} (h : Step a b) : holders b ⊆ holders a := by
  intro caller hc
  rw [mem_holders, authorizes_iff] at hc ⊢
  rcases hc with hc | ⟨entry, hm, hd, hi⟩
  · exact .inl (hc.trans (step_owner h))
  · refine .inr ?_
    cases h with
    | advance _ height hle => exact ⟨entry, hm, hd, fun ho => hi (inert_mono hle ho)⟩
    | restrict owner before after height d e hr =>
        rcases List.mem_append.mp hm with hm | hm
        · exact ⟨entry, by simp [hm], hd, hi⟩
        · rcases List.mem_cons.mp hm with rfl | hm
          · exact ⟨d, by simp, (restricts_delegate hr).symm.trans hd,
              fun ho => hi (restricts_inert hr ho)⟩
          · exact ⟨entry, by simp [hm], hd, hi⟩
    | delete owner before after height d =>
        rcases List.mem_append.mp hm with hm | hm
        · exact ⟨entry, by simp [hm], hd, hi⟩
        · exact ⟨entry, by simp [hm], hd, hi⟩

theorem run_owner {a b : StoreUpdateAuthority} (h : Run a b) :
    b.ownerPuzzleHash = a.ownerPuzzleHash := by
  induction h with
  | refl => rfl
  | tail _ hs ih => exact (step_owner hs).trans ih

theorem run_holders {a b : StoreUpdateAuthority} (h : Run a b) : holders b ⊆ holders a := by
  induction h with
  | refl => exact Set.Subset.refl _
  | tail _ hs ih => exact (step_holders hs).trans ih

theorem run_not_authorizes {a b : StoreUpdateAuthority} (h : Run a b) {caller : Bytes32}
    (hc : a.authorizes caller = false) : b.authorizes caller = false := by
  rw [← Bool.not_eq_true] at hc ⊢
  exact fun hb => hc (run_holders h hb)

theorem owner_authorized (a : StoreUpdateAuthority) : a.authorizes a.ownerPuzzleHash = true :=
  (authorizes_iff _ _).mpr (.inl rfl)

/-- At most one delegation for each delegate. -/
def OnePerDelegate (a : StoreUpdateAuthority) : Prop :=
  (a.delegations.map WriterDelegation.delegatePuzzleHash).Nodup

instance (a : StoreUpdateAuthority) : Decidable (OnePerDelegate a) :=
  inferInstanceAs (Decidable (List.Nodup _))

section Revocation

variable {a : StoreUpdateAuthority} {before after : List WriterDelegation} {d : WriterDelegation}

def revokeAt (a : StoreUpdateAuthority) (before after : List WriterDelegation) (d : WriterDelegation) :
    StoreUpdateAuthority :=
  { a with delegations := before ++ { d with revoked := true } :: after }

theorem revokeAt_step (h : a.delegations = before ++ d :: after) : Step a (revokeAt a before after d) := by
  obtain ⟨owner, delegations, height⟩ := a
  cases h
  exact .restrict owner before after height d _ (.revoke d)

theorem revokeAt_delegate (h : a.delegations = before ++ d :: after) (hone : OnePerDelegate a)
    (howner : d.delegatePuzzleHash ≠ a.ownerPuzzleHash) :
    (revokeAt a before after d).authorizes d.delegatePuzzleHash = false := by
  rw [← Bool.not_eq_true, authorizes_iff]
  rintro (hc | ⟨entry, hm, hd, hi⟩)
  · exact howner hc
  · rw [OnePerDelegate, h, List.map_append, List.map_cons, List.nodup_middle] at hone
    obtain ⟨hout, _⟩ := List.nodup_cons.mp hone
    rcases List.mem_append.mp hm with hm | hm
    · exact hout (List.mem_append_left _ (hd ▸ List.mem_map_of_mem hm))
    · rcases List.mem_cons.mp hm with rfl | hm
      · exact hi (.inl rfl)
      · exact hout (List.mem_append_right _ (hd ▸ List.mem_map_of_mem hm))

theorem revokeAt_others (h : a.delegations = before ++ d :: after) {caller : Bytes32}
    (hne : caller ≠ d.delegatePuzzleHash) :
    (revokeAt a before after d).authorizes caller = a.authorizes caller := by
  have hd (entry : WriterDelegation) (he : entry.delegatePuzzleHash = d.delegatePuzzleHash) :
      entry.authorizes caller a.currentHeight = false := by
    simp [WriterDelegation.authorizes, he, Ne.symm hne]
  simp [StoreUpdateAuthority.authorizes, revokeAt, h, hd]

end Revocation

/-- Update authority is only ever lost along a run, the owner's never; and a
revocation takes it from its delegate at once, for good, and from nobody else. -/
theorem lost_authority_stays_lost {a b : StoreUpdateAuthority} (h : Run a b) :
    (∀ caller, a.authorizes caller = false → b.authorizes caller = false) ∧
    b.ownerPuzzleHash = a.ownerPuzzleHash ∧ b.authorizes a.ownerPuzzleHash = true ∧
    (∀ before after d, b.delegations = before ++ d :: after → OnePerDelegate b →
      d.delegatePuzzleHash ≠ b.ownerPuzzleHash →
      Step b (revokeAt b before after d) ∧
      (∀ c, Run (revokeAt b before after d) c → c.authorizes d.delegatePuzzleHash = false) ∧
      (∀ caller, caller ≠ d.delegatePuzzleHash →
        (revokeAt b before after d).authorizes caller = b.authorizes caller)) := by
  refine ⟨fun _ => run_not_authorizes h, run_owner h, ?_, ?_⟩
  · rw [← run_owner h]
    exact owner_authorized b
  · intro before after d hb hone howner
    refine ⟨revokeAt_step hb, ?_, fun _ => revokeAt_others hb⟩
    intro c hc
    exact run_not_authorizes hc (revokeAt_delegate hb hone howner)

section Sample

def partyHash (n : UInt8) : Bytes32 := Vector.replicate 32 n

def writerOf (n : UInt8) : WriterDelegation := ⟨partyHash n, .writer, false, none⟩

def sampleAuthority : StoreUpdateAuthority := ⟨partyHash 1, [writerOf 2, writerOf 3], 49⟩

/-- Delegate 2 expires as the height reaches 50, then delegate 3 is revoked. -/
theorem sampleAuthority_run :
    let expiring : StoreUpdateAuthority :=
      ⟨partyHash 1, [{ writerOf 2 with expiresAtHeight := some 50 }, writerOf 3], 49⟩
    let expired : StoreUpdateAuthority := { expiring with currentHeight := 50 }
    Run sampleAuthority expired ∧ expiring.authorizes (partyHash 2) = true ∧
      expired.authorizes (partyHash 2) = false ∧ expired.authorizes (partyHash 1) = true ∧
      (∀ c, Run (revokeAt expired [{ writerOf 2 with expiresAtHeight := some 50 }] [] (writerOf 3)) c →
        c.authorizes (partyHash 3) = false) := by
  intro expiring expired
  have hfirst : Step sampleAuthority expiring :=
    .restrict (partyHash 1) [] [writerOf 3] 49 (writerOf 2) _ (.expire _ 50 nofun)
  have hsecond : Step expiring expired := .advance expiring 50 (by decide)
  have hrun : Run sampleAuthority expired := .tail (.tail .refl hfirst) hsecond
  obtain ⟨_, _, howner, hrevoke⟩ := lost_authority_stays_lost hrun
  obtain ⟨_, hgone, _⟩ := hrevoke [{ writerOf 2 with expiresAtHeight := some 50 }] [] (writerOf 3) rfl
    (by decide +kernel) (by decide +kernel)
  exact ⟨hrun, by decide +kernel, by decide +kernel, howner, hgone⟩

end Sample

end DigIdentity.AuthorityRuns
