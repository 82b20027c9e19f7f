import DigIdentity.TreeCrate

namespace DigIdentity.LeafPrograms

open ByteStrings TreeCrate

/-- How many empty siblings a count stands for; a count of 0 is one of 256. -/
def zerosCount (count : UInt8) : Nat := if count = 0 then 256 else count.toNat

/-- The instructions that climb from a node: a code, the operand after it and the
levels that it climbs. A sibling comes as its digest, or as a count, a node and
bits; empty siblings come as their count. -/
inductive Climb : UInt8 → Bytes → Nat → Prop
  | digest (operand : Bytes) : operand.length = 32 → Climb 0x50 operand 1
  | node (operand : Bytes) : operand.length = 65 → Climb 0x51 operand 1
  | zeros (count : UInt8) : Climb 0x4F [count] (zerosCount count)

/-- Bytes that are instructions one after the other, and the levels they climb. -/
inductive Climbs : Nat → Bytes → Prop
  | done : Climbs 0 []
  | step {n levels : Nat} {code : UInt8} {operand rest : Bytes} :
      Climb code operand levels → Climbs n rest → Climbs (n + levels) (code :: (operand ++ rest))

/-- A program about a single leaf: it puts the leaf down and climbs from there
past exactly 256 levels. -/
def LeafProgram (bytes : Bytes) : Prop := ∃ rest, bytes = 0x4C :: rest ∧ Climbs 256 rest

section Cuts

variable {n m levels levels' : Nat} {bytes rest operand operand' : Bytes} {code : UInt8}

theorem Climb.levels_pos (h : Climb code operand levels) : 0 < levels := by
  cases h with
  | digest | node => exact Nat.one_pos
  | zeros count =>
      unfold zerosCount
      by_cases hz : count = 0
      · simp [hz]
      · rw [if_neg hz]
        exact Nat.pos_of_ne_zero fun he => hz (UInt8.toNat_inj.mp he)

theorem Climb.code_mem (h : Climb code operand levels) : code ∈ [0x50, 0x51, 0x4F] := by
  cases h <;> simp

/-- A code tells the length of its operand, and with it the levels. -/
theorem Climb.length_eq (h : Climb code operand levels) (h' : Climb code operand' levels') :
    operand.length = operand'.length := by
  cases h with
  | digest _ ho =>
      cases h' with
      | digest _ ho' => exact ho.trans ho'.symm
  | node _ ho =>
      cases h' with
      | node _ ho' => exact ho.trans ho'.symm
  | zeros =>
      cases h' with
      | zeros => rfl

theorem Climb.levels_eq (h : Climb code operand levels) (h' : Climb code operand levels') :
    levels = levels' := by
  cases h with
  | digest | node => cases h' with | _ => rfl
  | zeros count => cases h' with | zeros => rfl

theorem climbs_nil_iff : Climbs n [] ↔ n = 0 := by
  constructor
  · intro h
    cases h
    rfl
  · rintro rfl
    exact .done

theorem climbs_cons_iff (h : Climb code operand levels) :
    Climbs n (code :: (operand ++ rest)) ↔ ∃ m, n = m + levels ∧ Climbs m rest := by
  constructor
  · intro hn
    generalize hb : operand ++ rest = bytes at hn
    cases hn with
    | step h' hrest =>
        obtain ⟨rfl, rfl⟩ := List.append_inj hb (h.length_eq h')
        exact ⟨_, by rw [h.levels_eq h'], hrest⟩
  · rintro ⟨m, rfl, hm⟩
    exact .step h hm

/-- What follows the instructions is read on its own. -/
theorem climbs_append_iff (h : Climbs n bytes) :
    Climbs m (bytes ++ rest) ↔ ∃ k, m = k + n ∧ Climbs k rest := by
  induction h generalizing m with
  | done => simp
  | @step n levels _ _ _ hclimb _ ih =>
      rw [List.cons_append, List.append_assoc, climbs_cons_iff hclimb]
      constructor
      · rintro ⟨_, rfl, hm⟩
        obtain ⟨k, rfl, hk⟩ := ih.mp hm
        exact ⟨k, Nat.add_assoc k n levels, hk⟩
      · rintro ⟨k, rfl, hk⟩
        exact ⟨k + n, (Nat.add_assoc k n levels).symm, ih.mpr ⟨k, rfl, hk⟩⟩

theorem climbs_zero_iff : Climbs 0 bytes ↔ bytes = [] := by
  constructor
  · intro h
    generalize hn : 0 = n at h
    cases h with
    | done => rfl
    | step hclimb => exact absurd hn (by have := hclimb.levels_pos; omega)
  · rintro rfl
    exact .done

/-- A program that is cut short or goes on is none. -/
theorem LeafProgram.append_iff (h : LeafProgram bytes) : LeafProgram (bytes ++ rest) ↔ rest = [] := by
  obtain ⟨climb, rfl, hclimb⟩ := h
  constructor
  · rintro ⟨climb', he, hclimb'⟩
    obtain ⟨_, rfl⟩ := List.cons.inj he
    obtain ⟨k, hk, hrest⟩ := (climbs_append_iff hclimb).mp hclimb'
    obtain rfl : k = 0 := by omega
    exact climbs_zero_iff.mp hrest
  · rintro rfl
    rw [List.append_nil]
    exact ⟨climb, rfl, hclimb⟩

/-- Nor is one where an instruction starts with any code but the three that
climb. -/
theorem not_leafProgram_of_code (h : Climbs n bytes) (hcode : code ∉ [0x50, 0x51, 0x4F]) :
    ¬LeafProgram (0x4C :: (bytes ++ code :: rest)) := by
  rintro ⟨climb, he, hclimb⟩
  obtain ⟨_, rfl⟩ := List.cons.inj he
  obtain ⟨k, _, hk⟩ := (climbs_append_iff h).mp hclimb
  cases hk with
  | step hstart => exact hcode hstart.code_mem

end Cuts

section Crates

variable {H V : Type} [Hasher H] [SmtValue V] {c : SparseMerkleTree H V}

/-- What the crate documents of its interpreter where one leaf is to be checked:
it comes to a verdict on the programs about a leaf, whatever the digest and the
root, and refuses all other bytes with an error. -/
def Interprets (c : SparseMerkleTree H V) : Prop :=
  ∀ proof root key digest,
    (∃ accepted, c.verify proof root [(key, digest)] = .ok accepted) ↔ LeafProgram proof

theorem Interprets.guarded (h : Interprets c) (registered : List c.Tree) :
    Interprets (c.guarded registered) := by
  intro proof root key digest
  rw [← h proof root key digest]
  change (∃ accepted, (c.verify proof root [(key, digest)]).map _ = .ok accepted) ↔ _
  cases c.verify proof root [(key, digest)] with
  | error e => simp
  | ok accepted => simp

end Crates

end DigIdentity.LeafPrograms
