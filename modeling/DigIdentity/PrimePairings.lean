import DigIdentity.PrimeOrderGroups

namespace DigIdentity.PrimePairings

open PrimeOrderGroups

variable {E F T : Type} [AddCommGroup E] [AddCommGroup F] [AddCommGroup T] {G : AddSubgroup E}
  {H : AddSubgroup F} {r n : Nat} {pair : E → F → T} {g x : E} {y z : F}

/-- A usable point generates the subgroup. -/
theorem exists_nsmul_eq (h : PrimeOrder G r) (hg : Usable G g) (hx : x ∈ G) :
    ∃ n < r, n • g = x := by
  have := Fact.mk h.prime
  have hne : (⟨g, hg.1⟩ : G) ≠ 0 := fun hz => hg.2 (congrArg Subtype.val hz)
  have hmem : (⟨x, hx⟩ : G) ∈ AddSubmonoid.multiples (⟨g, hg.1⟩ : G) :=
    mem_multiples_of_prime_card h.card hne
  obtain ⟨n, hn⟩ := hmem
  refine ⟨n % r, Nat.mod_lt _ h.prime.pos, ?_⟩
  rw [← h.addOrderOf_eq hg, mod_addOrderOf_nsmul]
  exact congrArg Subtype.val hn

/-- Bilinear on two subgroups, of which the left has prime order, and zero only
where one argument is. -/
structure IsPairing (G : AddSubgroup E) (H : AddSubgroup F) (r : Nat) (pair : E → F → T) : Prop where
  primeOrder : PrimeOrder G r
  add_left : ∀ x ∈ G, ∀ x' ∈ G, ∀ y ∈ H, pair (x + x') y = pair x y + pair x' y
  add_right : ∀ x ∈ G, ∀ y ∈ H, ∀ y' ∈ H, pair x (y + y') = pair x y + pair x y'
  nondegenerate : ∀ x ∈ G, ∀ y ∈ H, pair x y = 0 → x = 0 ∨ y = 0

namespace IsPairing

theorem zero_left (h : IsPairing G H r pair) (hy : y ∈ H) : pair 0 y = 0 := by
  have hz := h.add_left 0 G.zero_mem 0 G.zero_mem y hy
  rwa [add_zero, left_eq_add] at hz

theorem zero_right (h : IsPairing G H r pair) (hx : x ∈ G) : pair x 0 = 0 := by
  have hz := h.add_right x hx 0 H.zero_mem 0 H.zero_mem
  rwa [add_zero, left_eq_add] at hz

theorem nsmul_left (h : IsPairing G H r pair) (hx : x ∈ G) (hy : y ∈ H) (n : Nat) :
    pair (n • x) y = n • pair x y := by
  induction n with
  | zero => rw [zero_nsmul, zero_nsmul, h.zero_left hy]
  | succ n ih => rw [succ_nsmul, succ_nsmul, h.add_left _ (G.nsmul_mem hx n) _ hx _ hy, ih]

theorem nsmul_right (h : IsPairing G H r pair) (hx : x ∈ G) (hy : y ∈ H) (n : Nat) :
    pair x (n • y) = n • pair x y := by
  induction n with
  | zero => rw [zero_nsmul, zero_nsmul, h.zero_right hx]
  | succ n ih => rw [succ_nsmul, succ_nsmul, h.add_right _ hx _ (H.nsmul_mem hy n) _ hy, ih]

theorem right_inj (h : IsPairing G H r pair) (hx : Usable G x) (hy : y ∈ H) (hz : z ∈ H)
    (he : pair x y = pair x z) : y = z := by
  have hsum := h.add_right x hx.1 (y - z) (H.sub_mem hy hz) z hz
  rw [sub_add_cancel, he, right_eq_add] at hsum
  exact sub_eq_zero.mp ((h.nondegenerate x hx.1 _ (H.sub_mem hy hz) hsum).resolve_left hx.2)

/-- What a verification equation says once the key's scalar is known. -/
theorem pair_nsmul_eq_iff (h : IsPairing G H r pair) (hg : Usable G g) (hy : y ∈ H) (hz : z ∈ H) :
    pair (n • g) z = pair g y ↔ y = n • z := by
  rw [h.nsmul_left hg.1 hz, ← h.nsmul_right hg.1 hz]
  constructor
  · intro he
    exact (h.right_inj hg (H.nsmul_mem hz n) hy he).symm
  · rintro rfl
    rfl

/-- For every point of the left subgroup the verification equation has exactly
one solution. -/
theorem existsUnique_pair_eq (h : IsPairing G H r pair) (hg : Usable G g) (hx : x ∈ G) (hz : z ∈ H) :
    ∃! y, y ∈ H ∧ pair x z = pair g y := by
  obtain ⟨n, _, rfl⟩ := exists_nsmul_eq h.primeOrder hg hx
  refine ⟨n • z, ⟨H.nsmul_mem hz n, ?_⟩, ?_⟩
  · exact (h.pair_nsmul_eq_iff hg (H.nsmul_mem hz n) hz).mpr rfl
  · rintro y ⟨hy, he⟩
    exact (h.pair_nsmul_eq_iff hg hy hz).mp he

end IsPairing

end DigIdentity.PrimePairings
