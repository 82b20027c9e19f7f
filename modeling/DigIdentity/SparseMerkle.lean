import DigIdentity.TreeCrate

namespace DigIdentity.SparseMerkle

section Path

variable {N D : Type} (zero : N) (leafNode : D → N) (merge : Nat → Nat → N → N → N)

/-- The key of the node above a key: its bits over `height`. -/
def parentPath (height key : Nat) : Nat := (key >>> (height + 1)) <<< (height + 1)

/-- The subtree of height `h` over leaves whose keys agree from bit `h` on. -/
def node : Nat → List (Nat × D) → N
  | _, [] => zero
  | 0, (_, d) :: _ => leafNode d
  | h + 1, (k, d) :: leaves =>
      merge h (parentPath h k)
        (node h (((k, d) :: leaves).filter fun e => !e.1.testBit h))
        (node h (((k, d) :: leaves).filter fun e => e.1.testBit h))

/-- The leaves below the child that lies on the path of `key`. -/
def towards (h : Nat) (key : Nat) (leaves : List (Nat × D)) : List (Nat × D) :=
  leaves.filter fun e => e.1.testBit h == key.testBit h

def away (h : Nat) (key : Nat) (leaves : List (Nat × D)) : List (Nat × D) :=
  leaves.filter fun e => e.1.testBit h != key.testBit h

/-- The siblings along the path of a key, lowest first. -/
def siblings : Nat → List (Nat × D) → Nat → List N
  | 0, _, _ => []
  | h + 1, leaves, key =>
      siblings h (towards h key leaves) key ++ [node zero leafNode merge h (away h key leaves)]

def climb (key : Nat) : Nat → List N → N → N
  | _, [], v => v
  | h, s :: path, v =>
      climb key (h + 1) path
        (if key.testBit h then merge h (parentPath h key) s v else merge h (parentPath h key) v s)

def bottom : Nat → List (Nat × D) → Nat → List (Nat × D)
  | 0, leaves, _ => leaves
  | h + 1, leaves, key => bottom h (towards h key leaves) key

theorem siblings_length (h : Nat) (leaves : List (Nat × D)) (key : Nat) :
    (siblings zero leafNode merge h leaves key).length = h := by
  induction h generalizing leaves with
  | zero => rfl
  | succ h ih => simp [siblings, ih]

theorem climb_append (key h : Nat) (path rest : List N) (v : N) :
    climb merge key h (path ++ rest) v =
      climb merge key (h + path.length) rest (climb merge key h path v) := by
  induction path generalizing h v with
  | nil => rfl
  | cons s path ih =>
      simp only [List.cons_append, climb, List.length_cons]
      rw [ih, Nat.add_right_comm, Nat.add_assoc]

theorem shiftRight_of_testBit {x y h : Nat} (hs : x >>> (h + 1) = y >>> (h + 1))
    (hb : x.testBit h = y.testBit h) : x >>> h = y >>> h := by
  apply Nat.eq_of_testBit_eq
  intro i
  rw [Nat.testBit_shiftRight, Nat.testBit_shiftRight]
  cases i with
  | zero => simpa using hb
  | succ i =>
      have hi := congrArg (fun n => n.testBit i) hs
      simp only [Nat.testBit_shiftRight] at hi
      rwa [show h + (i + 1) = h + 1 + i by omega]

theorem towards_agrees {h key : Nat} {leaves : List (Nat × D)}
    (ha : ∀ e ∈ leaves, e.1 >>> (h + 1) = key >>> (h + 1)) :
    ∀ e ∈ towards h key leaves, e.1 >>> h = key >>> h := by
  intro e he
  obtain ⟨hm, hb⟩ := List.mem_filter.mp he
  exact shiftRight_of_testBit (ha e hm) (by simpa using hb)

theorem node_step (hz : ∀ h k, merge h k zero zero = zero) {h key : Nat} {leaves : List (Nat × D)}
    (ha : ∀ e ∈ leaves, e.1 >>> (h + 1) = key >>> (h + 1)) :
    node zero leafNode merge (h + 1) leaves =
      if key.testBit h then
        merge h (parentPath h key) (node zero leafNode merge h (away h key leaves))
          (node zero leafNode merge h (towards h key leaves))
      else
        merge h (parentPath h key) (node zero leafNode merge h (towards h key leaves))
          (node zero leafNode merge h (away h key leaves)) := by
  cases leaves with
  | nil => cases hb : key.testBit h <;> simp [node, towards, away, hz]
  | cons e leaves =>
      obtain ⟨k, d⟩ := e
      have hk : parentPath h k = parentPath h key := by
        rw [parentPath, parentPath, ha (k, d) (by simp)]
      cases hb : key.testBit h <;> simp [node, towards, away, hb, hk]

/-- Climbing from the bottom leaf along the siblings rebuilds the root. -/
theorem climb_siblings (hz : ∀ h k, merge h k zero zero = zero) (h key : Nat)
    (leaves : List (Nat × D)) (ha : ∀ e ∈ leaves, e.1 >>> h = key >>> h) :
    climb merge key 0 (siblings zero leafNode merge h leaves key)
      (node zero leafNode merge 0 (bottom h leaves key)) = node zero leafNode merge h leaves := by
  induction h generalizing leaves with
  | zero => rfl
  | succ h ih =>
      rw [siblings, climb_append, bottom, ih _ (towards_agrees ha), siblings_length, Nat.zero_add,
        node_step zero leafNode merge hz ha]
      rfl

theorem mem_bottom {h key : Nat} {leaves : List (Nat × D)}
    (ha : ∀ e ∈ leaves, e.1 >>> h = key >>> h) (e : Nat × D) :
    e ∈ bottom h leaves key ↔ e ∈ leaves ∧ e.1 = key := by
  induction h generalizing leaves with
  | zero => exact ⟨fun he => ⟨he, by simpa using ha e he⟩, fun he => he.1⟩
  | succ h ih =>
      rw [bottom, ih (towards_agrees ha), towards, List.mem_filter]
      constructor
      · rintro ⟨⟨hm, _⟩, hk⟩
        exact ⟨hm, hk⟩
      · rintro ⟨hm, rfl⟩
        exact ⟨⟨hm, by simp⟩, rfl⟩

end Path

end DigIdentity.SparseMerkle
