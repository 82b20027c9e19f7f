import Mathlib.Logic.Relation

namespace DigIdentity.Runs

open Relation

variable {S : Type} {r : S → S → Prop} {P : S → Prop} {a b : S}

/-- What one step preserves a run preserves. -/
theorem preserved (hstep : ∀ x y, r x y → P x → P y) (h : ReflTransGen r a b) (ha : P a) : P b := by
  induction h with
  | refl => exact ha
  | tail _ hxy ih => exact hstep _ _ hxy ih

/-- An observation that no step changes while the invariant `P` holds is the
same at both ends of a run. -/
theorem observed {O : Type} {f : S → O} (hP : ∀ x y, r x y → P x → P y)
    (hf : ∀ x y, r x y → P x → f y = f x) (h : ReflTransGen r a b) (ha : P a) : f b = f a := by
  induction h with
  | refl => rfl
  | tail hx hxy ih => exact (hf _ _ hxy (preserved hP hx ha)).trans ih

/-- The runs along which `P` holds throughout. -/
def Keeping (r : S → S → Prop) (P : S → Prop) : S → S → Prop :=
  ReflTransGen fun x y => r x y ∧ P x ∧ P y

theorem Keeping.run (h : Keeping r P a b) : ReflTransGen r a b :=
  ReflTransGen.mono (fun _ _ (hxy : r _ _ ∧ P _ ∧ P _) => hxy.1) _ _ h

section Traces

variable {L : Type} {step : S → L → S → Prop} {c : S} {l : L} {steps before after : List (L × S)}

/-- A run with a record of it: the label of each step and the state it led to. -/
inductive Trace (step : S → L → S → Prop) : S → List (L × S) → S → Prop
  | nil (a : S) : Trace step a [] a
  | cons {a b c : S} {l : L} {steps : List (L × S)} :
      step a l b → Trace step b steps c → Trace step a ((l, b) :: steps) c

theorem Trace.single (h : step a l b) : Trace step a [(l, b)] b := .cons h (.nil b)

theorem Trace.append (h : Trace step a before b) (h' : Trace step b after c) :
    Trace step a (before ++ after) c := by
  induction h with
  | nil => exact h'
  | cons hstep _ ih => exact .cons hstep (ih h')

theorem Trace.run (h : Trace step a steps b) : ReflTransGen (fun x y => ∃ l, step x l y) a b := by
  induction h with
  | nil => exact .refl
  | cons hstep _ ih => exact .head ⟨_, hstep⟩ ih

theorem exists_trace (h : ReflTransGen (fun x y => ∃ l, step x l y) a b) :
    ∃ steps, Trace step a steps b := by
  induction h with
  | refl => exact ⟨[], .nil a⟩
  | tail _ hstep ih =>
      obtain ⟨steps, hsteps⟩ := ih
      obtain ⟨l, hl⟩ := hstep
      exact ⟨_, hsteps.append (.single hl)⟩

/-- A recorded step was taken from the state that the record before it leads to. -/
theorem Trace.split (h : Trace step a (before ++ (l, b) :: after) c) :
    ∃ u, Trace step a before u ∧ step u l b ∧ Trace step b after c := by
  induction before generalizing a with
  | nil =>
      cases h with
      | cons hstep hrest => exact ⟨a, .nil a, hstep, hrest⟩
  | cons x before ih =>
      cases h with
      | cons hstep hrest =>
          obtain ⟨u, hu, hul, hrest⟩ := ih hrest
          exact ⟨u, .cons hstep hu, hul, hrest⟩

theorem Trace.of_throughout (h : Trace step a steps b) (ha : P a) (hall : ∀ x ∈ steps, P x.2) : P b := by
  induction h with
  | nil => exact ha
  | cons _ _ ih =>
      obtain ⟨hnext, hrest⟩ := List.forall_mem_cons.mp hall
      exact ih hnext hrest

/-- What holds at the end of a run has held all along, or one of the recorded
steps brought it about and it has held in every state since. -/
theorem Trace.throughout_or_established (h : Trace step a steps b) (hb : P b) :
    (P a ∧ ∀ x ∈ steps, P x.2) ∨
      ∃ before l v after u, steps = before ++ (l, v) :: after ∧ Trace step a before u ∧ step u l v ∧
        ¬P u ∧ ∀ x ∈ (l, v) :: after, P x.2 := by
  induction h with
  | nil => exact .inl ⟨hb, nofun⟩
  | @cons a v _ l steps hstep _ ih =>
      rcases ih hb with hall | ⟨before, l', v', after, u, rfl, hu, hul, hnot, hsince⟩
      · have hsince : ∀ x ∈ (l, v) :: steps, P x.2 := List.forall_mem_cons.mpr hall
        by_cases ha : P a
        · exact .inl ⟨ha, hsince⟩
        · exact .inr ⟨[], l, v, steps, a, rfl, .nil a, hstep, ha, hsince⟩
      · exact .inr ⟨(l, v) :: before, l', v', after, u, rfl, .cons hstep hu, hul, hnot, hsince⟩

theorem Trace.last_established (h : Trace step a steps b) (ha : ¬P a) (hb : P b) :
    ∃ before l v after u, steps = before ++ (l, v) :: after ∧ Trace step a before u ∧ step u l v ∧
      ¬P u ∧ ∀ x ∈ (l, v) :: after, P x.2 :=
  (h.throughout_or_established hb).resolve_left fun hall => ha hall.1

end Traces

end DigIdentity.Runs
