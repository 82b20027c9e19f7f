import DigIdentity.AuthorityRuns

namespace DigIdentity.AuthorityLocality

open ByteStrings Authorities

/-- Insertions and deletions, anywhere, of delegations that name the caller and
authorize nobody at the height. -/
inductive LapsedEdits (caller : Bytes32) (height : UInt32) (l : List WriterDelegation) :
    List WriterDelegation → Prop
  | same : LapsedEdits caller height l l
  | insert (before after : List WriterDelegation) (d : WriterDelegation) :
      LapsedEdits caller height l (before ++ after) →
      d.delegatePuzzleHash = caller → d.Inert height →
      LapsedEdits caller height l (before ++ d :: after)
  | delete (before after : List WriterDelegation) (d : WriterDelegation) :
      LapsedEdits caller height l (before ++ d :: after) →
      d.delegatePuzzleHash = caller → d.Inert height →
      LapsedEdits caller height l (before ++ after)

theorem mem_of_lapsedEdits {caller : Bytes32} {height : UInt32} {l m : List WriterDelegation}
    (h : LapsedEdits caller height l m) {e : WriterDelegation} (he : ¬e.Inert height) :
    e ∈ m ↔ e ∈ l := by
  have hne {d : WriterDelegation} (hd : d.Inert height) : e ≠ d := by
    rintro rfl
    exact he hd
  induction h with
  | same => rfl
  | insert before after d _ _ hi ih => simp [← ih, hne hi]
  | delete before after d _ _ hi ih => simp [← ih, hne hi]

/-- A decision looks at the owner's key and at the live entries that name the
caller. -/
theorem authorizes_congr {caller : Bytes32} {a b : StoreUpdateAuthority}
    (howner : a.ownerPuzzleHash = caller ↔ b.ownerPuzzleHash = caller)
    (hentries : ∀ d : WriterDelegation, d.delegatePuzzleHash = caller →
      (d ∈ a.delegations ∧ ¬d.Inert a.currentHeight ↔ d ∈ b.delegations ∧ ¬d.Inert b.currentHeight)) :
    a.authorizes caller = b.authorizes caller := by
  rw [Bool.eq_iff_iff, authorizes_iff, authorizes_iff]
  apply or_congr
  · rw [eq_comm, howner, eq_comm]
  · apply exists_congr
    intro d
    constructor
    · rintro ⟨hm, hd, hi⟩
      obtain ⟨hm', hi'⟩ := (hentries d hd).mp ⟨hm, hi⟩
      exact ⟨hm', hd, hi'⟩
    · rintro ⟨hm, hd, hi⟩
      obtain ⟨hm', hi'⟩ := (hentries d hd).mpr ⟨hm, hi⟩
      exact ⟨hm', hd, hi'⟩

/-- Entries that name other delegates, the order of the list and its repetitions
do not matter to a caller; nor does an entry of its own that has lapsed. -/
theorem authority_is_local {caller : Bytes32} {a b : StoreUpdateAuthority}
    (hheight : a.currentHeight = b.currentHeight)
    (howner : a.ownerPuzzleHash = caller ↔ b.ownerPuzzleHash = caller)
    (hentries : ∀ d : WriterDelegation, d.delegatePuzzleHash = caller →
      (d ∈ a.delegations ↔ d ∈ b.delegations)) :
    a.authorizes caller = b.authorizes caller ∧
    (∀ l m, LapsedEdits caller a.currentHeight a.delegations l →
      LapsedEdits caller b.currentHeight b.delegations m →
      ({ a with delegations := l } : StoreUpdateAuthority).authorizes caller =
        ({ b with delegations := m } : StoreUpdateAuthority).authorizes caller) := by
  have hedited : ∀ l m, LapsedEdits caller a.currentHeight a.delegations l →
      LapsedEdits caller b.currentHeight b.delegations m →
      ({ a with delegations := l } : StoreUpdateAuthority).authorizes caller =
        ({ b with delegations := m } : StoreUpdateAuthority).authorizes caller := by
    intro l m hl hm
    apply authorizes_congr
    · exact howner
    · intro d hd
      simp only [hheight] at hl ⊢
      apply and_congr_left
      intro hi
      rw [mem_of_lapsedEdits hl hi, mem_of_lapsedEdits hm hi, hentries d hd]
  exact ⟨hedited _ _ .same .same, hedited⟩

section Sample

open AuthorityRuns

theorem sampleAuthority_is_local :
    let lapsed : WriterDelegation := { writerOf 3 with expiresAtHeight := some 0 }
    let other : StoreUpdateAuthority := ⟨partyHash 7, [writerOf 3, writerOf 9, writerOf 3], 49⟩
    sampleAuthority.authorizes (partyHash 3) = other.authorizes (partyHash 3) ∧
      ({ sampleAuthority with delegations := lapsed :: sampleAuthority.delegations } :
        StoreUpdateAuthority).authorizes (partyHash 3) = other.authorizes (partyHash 3) := by
  intro lapsed other
  have hentries : ∀ d : WriterDelegation, d.delegatePuzzleHash = partyHash 3 →
      (d ∈ sampleAuthority.delegations ↔ d ∈ other.delegations) := by
    intro d hd
    have htwo : d ≠ writerOf 2 := by
      rintro rfl
      exact absurd hd (by decide +kernel)
    have hnine : d ≠ writerOf 9 := by
      rintro rfl
      exact absurd hd (by decide +kernel)
    simp [sampleAuthority, other, htwo, hnine]
  obtain ⟨hsame, hedited⟩ := authority_is_local (a := sampleAuthority) (b := other) rfl
    (by decide +kernel) hentries
  refine ⟨hsame, hedited (lapsed :: sampleAuthority.delegations) other.delegations ?_ .same⟩
  exact .insert [] sampleAuthority.delegations lapsed .same rfl (.inr (.inr ⟨0, rfl, by decide⟩))

end Sample

end DigIdentity.AuthorityLocality
