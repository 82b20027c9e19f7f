import Mathlib

namespace DigIdentity.Histories

variable {K L B : Type} [DecidableEq K] [DecidableEq L]

/-- The last thing written to a key in a history of writes. -/
def last (history : List (K × B)) (k : K) : Option B :=
  (history.reverse.find? (fun w => w.1 = k)).map Prod.snd

theorem last_nil (k : K) : last ([] : List (K × B)) k = none := rfl

theorem last_snoc (history : List (K × B)) (w : K × B) (k : K) :
    last (history ++ [w]) k = if k = w.1 then some w.2 else last history k := by
  by_cases h : k = w.1
  · simp [last, h]
  · simp [last, h, Ne.symm h]

theorem mem_of_last {history : List (K × B)} {k : K} {b : B} (h : last history k = some b) :
    (k, b) ∈ history := by
  obtain ⟨w, hw, rfl⟩ := Option.map_eq_some_iff.mp h
  have hk : w.1 = k := by simpa using List.find?_some hw
  have hm : w ∈ history := by simpa using List.mem_of_find?_eq_some hw
  simpa [← hk] using hm

theorem last_eq_none_iff (history : List (K × B)) (k : K) :
    last history k = none ↔ ∀ w ∈ history, w.1 ≠ k := by
  simp [last]

/-- Renaming the keys keeps the last write to a key that the renaming does not
confuse with another key of the history. -/
theorem last_map (f : K → L) (history : List (K × B)) (k : K)
    (hf : ∀ w ∈ history, f w.1 = f k → w.1 = k) :
    last (history.map fun w => (f w.1, w.2)) (f k) = last history k := by
  induction history using List.reverseRecOn with
  | nil => rfl
  | append_singleton history w ih =>
      have hw : f k = f w.1 ↔ k = w.1 :=
        ⟨fun h => (hf w (by simp) h.symm).symm, fun h => congrArg f h⟩
      rw [List.map_append, List.map_singleton, last_snoc, last_snoc,
        ih fun u hu => hf u (List.mem_append_left _ hu)]
      simp only [hw]

theorem last_eq_some_iff {history : List (K × B)}
    (hd : history.Pairwise (fun v w => v.1 ≠ w.1)) (k : K) (b : B) :
    last history k = some b ↔ (k, b) ∈ history := by
  induction history using List.reverseRecOn with
  | nil => simp [last_nil]
  | append_singleton history w ih =>
      obtain ⟨hh, _, hw⟩ := List.pairwise_append.mp hd
      rw [last_snoc, List.mem_append, List.mem_singleton]
      by_cases hk : k = w.1
      · have hout : (k, b) ∉ history := fun hm => hw _ hm w (by simp) hk
        simp [hk, Prod.ext_iff, eq_comm, hk ▸ hout]
      · rw [if_neg hk, ih hh]
        have hne : (k, b) ≠ w := fun he => hk (congrArg Prod.fst he)
        simp [hne]

end DigIdentity.Histories
