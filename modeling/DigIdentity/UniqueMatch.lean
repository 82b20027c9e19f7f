import Mathlib

namespace DigIdentity.UniqueMatch

variable {α : Type}

/-- One `next` on a lazily filtered iterator: the first match, with the part
of the list that has not been read. -/
def next (p : α → Bool) : List α → Option (α × List α)
  | [] => none
  | a :: l => if p a then some (a, l) else next p l

theorem filter_next (p : α → Bool) (l : List α) :
    l.filter p = match next p l with
      | none => []
      | some (a, rest) => a :: rest.filter p := by
  induction l with
  | nil => rfl
  | cons a l ih =>
      cases hp : p a with
      | false => simpa [next, hp] using ih
      | true => simp [next, hp]

theorem next_eq_none_iff (p : α → Bool) (l : List α) : next p l = none ↔ l.filter p = [] := by
  rw [filter_next]
  cases next p l <;> simp

theorem next_isSome_iff (p : α → Bool) (l : List α) : (next p l).isSome ↔ l.filter p ≠ [] := by
  rw [Ne, ← next_eq_none_iff, Option.isSome_iff_ne_none]

/-- What a scan for the only match finds. -/
inductive Selection (α : Type)
  | nothing
  | only (a : α)
  | several

/-- Take the first match, then look for a second one behind it. -/
def select (p : α → Bool) (l : List α) : Selection α :=
  match next p l with
  | none => .nothing
  | some (a, rest) => if (next p rest).isSome then .several else .only a

def ofMatches : List α → Selection α
  | [] => .nothing
  | [a] => .only a
  | _ :: _ :: _ => .several

theorem ofMatches_eq_only_iff (l : List α) (a : α) : ofMatches l = .only a ↔ l = [a] := by
  rcases l with _ | ⟨b, _ | ⟨c, l⟩⟩ <;> simp [ofMatches]

/-- The two-step scan sees the list of matches and nothing else of the list. -/
theorem select_eq_ofMatches (p : α → Bool) (l : List α) : select p l = ofMatches (l.filter p) := by
  unfold select
  rw [filter_next]
  cases hn : next p l with
  | none => rfl
  | some found =>
      obtain ⟨a, rest⟩ := found
      cases hf : rest.filter p with
      | nil =>
          have hr : next p rest = none := (next_eq_none_iff p rest).mpr hf
          simp [hr, hf, ofMatches]
      | cons b bs =>
          have hr : (next p rest).isSome := (next_isSome_iff p rest).mpr (by simp [hf])
          simp [hr, hf, ofMatches]

theorem select_congr {p q : α → Bool} {l : List α} (h : ∀ a ∈ l, p a = q a) :
    select p l = select q l := by
  rw [select_eq_ofMatches, select_eq_ofMatches, List.filter_congr h]

theorem select_nothing_iff (p : α → Bool) (l : List α) :
    select p l = .nothing ↔ ∀ a ∈ l, p a = false := by
  rw [select_eq_ofMatches]
  constructor
  · intro h a ha
    cases hf : l.filter p with
    | nil => simpa using List.filter_eq_nil_iff.mp hf a ha
    | cons b bs => cases bs <;> simp [hf, ofMatches] at h
  · intro h
    rw [List.filter_eq_nil_iff.mpr (by simpa using h)]
    rfl

theorem select_only_iff (p : α → Bool) (l : List α) (a : α) :
    select p l = .only a ↔
      p a = true ∧ ∃ before after, l = before ++ a :: after ∧
        ∀ b ∈ before ++ after, p b = false := by
  rw [select_eq_ofMatches]
  constructor
  · intro h
    cases hf : l.filter p with
    | nil => simp [hf, ofMatches] at h
    | cons b bs =>
        cases bs with
        | cons c cs => simp [hf, ofMatches] at h
        | nil =>
            simp only [hf, ofMatches, Selection.only.injEq] at h
            subst b
            obtain ⟨before, after, rfl, hbefore, ha, hafter⟩ := List.filter_eq_cons_iff.mp hf
            refine ⟨ha, before, after, rfl, ?_⟩
            intro b hb
            rcases List.mem_append.mp hb with hb | hb
            · simpa using hbefore b hb
            · simpa using List.filter_eq_nil_iff.mp hafter b hb
  · rintro ⟨ha, before, after, rfl, hb⟩
    have hbefore : before.filter p = [] :=
      List.filter_eq_nil_iff.mpr fun b hm => by simp [hb b (by simp [hm])]
    have hafter : after.filter p = [] :=
      List.filter_eq_nil_iff.mpr fun b hm => by simp [hb b (by simp [hm])]
    simp [List.filter_append, hbefore, hafter, ha, ofMatches]

/-- Several matches are two list entries at different positions; the entries
themselves may be equal. -/
theorem select_several_iff (p : α → Bool) (l : List α) :
    select p l = .several ↔
      ∃ before between after a b, l = before ++ a :: between ++ b :: after ∧
        p a = true ∧ p b = true := by
  rw [select_eq_ofMatches]
  constructor
  · intro h
    cases hf : l.filter p with
    | nil => simp [hf, ofMatches] at h
    | cons a as =>
        cases as with
        | nil => simp [hf, ofMatches] at h
        | cons b bs =>
            obtain ⟨before, rest, rfl, _, ha, hr⟩ := List.filter_eq_cons_iff.mp hf
            obtain ⟨between, after, rfl, _, hb, _⟩ := List.filter_eq_cons_iff.mp hr
            exact ⟨before, between, after, a, b, by simp, ha, hb⟩
  · rintro ⟨before, between, after, a, b, rfl, ha, hb⟩
    simp only [List.filter_append, List.filter_cons, ha, hb, if_true, List.append_assoc]
    cases before.filter p with
    | nil => cases between.filter p <;> rfl
    | cons c cs => cases cs <;> rfl

/-- The lists reached by reordering and by inserting or deleting, anywhere,
elements that do not match. -/
inductive Rearranged (p : α → Bool) : List α → List α → Prop
  | reorder {l m} : l.Perm m → Rearranged p l m
  | insert (before after : List α) (a : α) :
      p a = false → Rearranged p (before ++ after) (before ++ a :: after)
  | delete (before after : List α) (a : α) :
      p a = false → Rearranged p (before ++ a :: after) (before ++ after)
  | trans {l m n} : Rearranged p l m → Rearranged p m n → Rearranged p l n

theorem Rearranged.filter_perm {p : α → Bool} {l m : List α} (h : Rearranged p l m) :
    (l.filter p).Perm (m.filter p) := by
  induction h with
  | reorder h => exact h.filter p
  | insert before after a ha => simp [List.filter_append, ha]
  | delete before after a ha => simp [List.filter_append, ha]
  | trans _ _ ih₁ ih₂ => exact ih₁.trans ih₂

theorem ofMatches_perm {l m : List α} (h : l.Perm m) : ofMatches l = ofMatches m := by
  match l, m, h with
  | [], m, h => rw [List.nil_perm.mp h]
  | [a], m, h => rw [List.singleton_perm.mp h]
  | _ :: _ :: _, [], h => exact absurd h.length_eq (by simp)
  | _ :: _ :: _, [_], h => exact absurd h.length_eq (by simp)
  | _ :: _ :: _, _ :: _ :: _, _ => rfl

/-- Leaving out some of the matches changes what is selected only to nothing,
or where there were several. -/
theorem ofMatches_subperm {l m : List α} (h : m.Subperm l) :
    ofMatches m = ofMatches l ∨ ofMatches m = .nothing ∨ ofMatches l = .several := by
  match l, m, h with
  | _ :: _ :: _, _, _ => exact .inr (.inr rfl)
  | _, [], _ => exact .inr (.inl rfl)
  | [], _ :: _, h => exact absurd h.length_le (by simp)
  | [a], b :: m, h => exact .inl (ofMatches_perm (h.perm_of_length_le (by simp)))

theorem select_rearranged {p : α → Bool} {l m : List α} (h : Rearranged p l m) :
    select p l = select p m := by
  rw [select_eq_ofMatches, select_eq_ofMatches, ofMatches_perm h.filter_perm]

end DigIdentity.UniqueMatch
