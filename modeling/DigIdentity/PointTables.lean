import DigIdentity.ByteStrings

namespace DigIdentity.PointTables

open ByteStrings

/-- The points of a model, numbered below a bound. -/
structure PointNumbers (P : Type) where
  number : P → Nat
  point : Nat → P
  bound : Nat
  point_number : ∀ x, point (number x) = x
  number_lt : ∀ x, number x < bound

/-- The encodings in `w` bytes of some points. The other points are encoded as
their numbers, below all of these. -/
structure PointTable {P : Type} (numbering : PointNumbers P) (w : Nat) where
  known : List (P × Nat)
  wide : numbering.bound ≤ 256 ^ w
  codes : ∀ e ∈ known, numbering.bound ≤ e.2 ∧ e.2 < 256 ^ w
  inj : ∀ e ∈ known, ∀ f ∈ known, e.2 = f.2 → e.1 = f.1

namespace PointTable

variable {P : Type} [DecidableEq P] {numbering : PointNumbers P} {w : Nat} (t : PointTable numbering w)
  {x y : P}

def code (x : P) : Nat := (t.known.lookup x).getD (numbering.number x)

def encode (x : P) : Vector UInt8 w := ⟨(toBe w (t.code x)).toArray, by simp⟩

/-- The points that a number may be the code of. -/
def candidates (n : Nat) : List P := t.known.map Prod.fst ++ [numbering.point n]

def decode (bytes : Vector UInt8 w) : Option P :=
  (t.candidates (ofBe bytes.toList)).find? fun x => t.encode x = bytes

/-- A code is that of a known point, or a number that tells the point. -/
theorem code_cases (x : P) :
    (x, t.code x) ∈ t.known ∨ numbering.point (t.code x) = x ∧ t.code x < numbering.bound := by
  unfold code
  cases h : t.known.lookup x with
  | some n =>
      obtain ⟨before, after, hk, _⟩ := List.lookup_eq_some_iff.mp h
      left
      simp [hk]
  | none =>
      right
      exact ⟨numbering.point_number x, numbering.number_lt x⟩

theorem code_lt (x : P) : t.code x < 256 ^ w := by
  rcases t.code_cases x with h | ⟨_, h⟩
  · exact (t.codes _ h).2
  · exact Nat.lt_of_lt_of_le h t.wide

theorem code_inj (h : t.code x = t.code y) : x = y := by
  rcases t.code_cases x with hx | ⟨hx, hxlt⟩ <;> rcases t.code_cases y with hy | ⟨hy, hylt⟩
  · exact t.inj _ hx _ hy h
  · exact absurd (t.codes _ hx).1 (Nat.not_le.mpr (h ▸ hylt))
  · exact absurd (t.codes _ hy).1 (Nat.not_le.mpr (h ▸ hxlt))
  · rw [← hx, h, hy]

theorem encode_inj (h : t.encode x = t.encode y) : x = y :=
  t.code_inj (toBe_inj (t.code_lt x) (t.code_lt y) (congrArg Vector.toList h))

theorem mem_candidates (x : P) : x ∈ t.candidates (t.code x) := by
  rw [candidates, List.mem_append, List.mem_singleton]
  rcases t.code_cases x with h | ⟨h, _⟩
  · exact .inl (List.mem_map_of_mem h)
  · exact .inr h.symm

theorem encode_of_decode {bytes : Vector UInt8 w} (h : t.decode bytes = some x) :
    t.encode x = bytes := by
  simpa using List.find?_some h

theorem decode_encode (x : P) : t.decode (t.encode x) = some x := by
  have hcode : ofBe (t.encode x).toList = t.code x := by
    change ofBe (toBe w (t.code x)) = _
    rw [ofBe_toBe, Nat.mod_eq_of_lt (t.code_lt x)]
  cases h : t.decode (t.encode x) with
  | some y => rw [t.encode_inj (t.encode_of_decode h)]
  | none =>
      rw [decode, hcode, List.find?_eq_none] at h
      exact absurd (h x (t.mem_candidates x)) (by simp)

end PointTable

end DigIdentity.PointTables
