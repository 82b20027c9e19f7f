import Mathlib

namespace DigIdentity.PrimeOrderGroups

structure PrimeOrder {E : Type} [AddCommGroup E] (G : AddSubgroup E) (r : Nat) : Prop where
  prime : r.Prime
  card : Nat.card G = r

section Scalars

variable {E : Type} [AddCommGroup E] {G : AddSubgroup E} {r : Nat} {x g : E} {m n : Nat}

/-- The points a key agreement may use: those of the subgroup, without zero. -/
def Usable (G : AddSubgroup E) (x : E) : Prop := x ∈ G ∧ x ≠ 0

open Classical in
/-- Scalars other than zero act on the usable points; nothing else acts. -/
noncomputable def act (G : AddSubgroup E) (n : Nat) (x : E) : Option E :=
  if Usable G x ∧ n ≠ 0 then some (n • x) else none

theorem act_eq_some_iff {y : E} : act G n x = some y ↔ (Usable G x ∧ n ≠ 0) ∧ n • x = y := by
  simp [act]

theorem act_eq_none_iff : act G n x = none ↔ ¬(Usable G x ∧ n ≠ 0) := by
  simp [act]

theorem PrimeOrder.addOrderOf_eq (h : PrimeOrder G r) (hx : Usable G x) : addOrderOf x = r := by
  have := Fact.mk h.prime
  have hz : Nat.card G • (⟨x, hx.1⟩ : G) = 0 := card_nsmul_eq_zero'
  rw [h.card] at hz
  exact addOrderOf_eq_prime (congrArg Subtype.val hz) hx.2

theorem PrimeOrder.nsmul_eq_zero_iff (h : PrimeOrder G r) (hx : Usable G x) :
    n • x = 0 ↔ r ∣ n := by
  rw [← h.addOrderOf_eq hx, addOrderOf_dvd_iff_nsmul_eq_zero]

theorem PrimeOrder.usable_nsmul (h : PrimeOrder G r) (hx : Usable G x) (hn : n ≠ 0) (hlt : n < r) :
    Usable G (n • x) := by
  refine ⟨G.nsmul_mem hx.1 n, fun hz => ?_⟩
  exact hn (Nat.eq_zero_of_dvd_of_lt ((h.nsmul_eq_zero_iff hx).mp hz) hlt)

/-- Whatever a scalar below the order makes of a point can be used again. -/
theorem PrimeOrder.usable_act (h : PrimeOrder G r) (hlt : n < r) {y : E} (hy : act G n x = some y) :
    Usable G y := by
  obtain ⟨⟨hx, hn⟩, rfl⟩ := act_eq_some_iff.mp hy
  exact h.usable_nsmul hx hn hlt

theorem PrimeOrder.act_act (h : PrimeOrder G r) (hm : m < r) {y : E} :
    (act G m x).bind (act G n) = some y ↔ (Usable G x ∧ m ≠ 0 ∧ n ≠ 0) ∧ (n * m) • x = y := by
  rw [Option.bind_eq_some_iff]
  constructor
  · rintro ⟨z, hz, hy⟩
    obtain ⟨⟨hx, hm0⟩, rfl⟩ := act_eq_some_iff.mp hz
    obtain ⟨⟨_, hn0⟩, rfl⟩ := act_eq_some_iff.mp hy
    exact ⟨⟨hx, hm0, hn0⟩, mul_nsmul' x n m⟩
  · rintro ⟨⟨hx, hm0, hn0⟩, rfl⟩
    refine ⟨m • x, act_eq_some_iff.mpr ⟨⟨hx, hm0⟩, rfl⟩, ?_⟩
    exact act_eq_some_iff.mpr ⟨⟨h.usable_nsmul hx hm0 hm, hn0⟩, (mul_nsmul' x n m).symm⟩

theorem PrimeOrder.act_comm (h : PrimeOrder G r) (hm : m < r) (hn : n < r) (x : E) :
    (act G m x).bind (act G n) = (act G n x).bind (act G m) := by
  ext y
  rw [h.act_act hm, h.act_act hn, Nat.mul_comm, and_comm (a := m ≠ 0)]

/-- A multiple of a point of the subgroup is usable just when the scalar could
have acted on it. -/
theorem act_nsmul (hg : g ∈ G) (m n : Nat) : act G m (n • g) = (act G n g).bind (act G m) := by
  cases hy : act G n g with
  | some y =>
      obtain ⟨_, rfl⟩ := act_eq_some_iff.mp hy
      rfl
  | none =>
      rw [Option.bind_none, act_eq_none_iff]
      rintro ⟨⟨_, hne⟩, _⟩
      apply act_eq_none_iff.mp hy
      refine ⟨⟨hg, ?_⟩, ?_⟩
      · rintro rfl
        exact hne (nsmul_zero n)
      · rintro rfl
        exact hne (zero_nsmul g)

/-- The two parties of a key agreement, each acting on the other's multiple of
the generator, reach the same point. -/
theorem PrimeOrder.agreement (h : PrimeOrder G r) (hg : g ∈ G) (hm : m < r) (hn : n < r) :
    act G m (n • g) = act G n (m • g) := by
  rw [act_nsmul hg, act_nsmul hg, h.act_comm hn hm]

/-- A scalar other than zero tells apart the multiples of a usable point. -/
theorem PrimeOrder.act_nsmul_inj (h : PrimeOrder G r) (hg : Usable G g) (hm0 : m ≠ 0) (hm : m < r)
    {a b : Nat} (ha : a < r) (hb : b < r) (he : act G m (a • g) = act G m (b • g)) : a = b := by
  have hy : Usable G (m • g) := h.usable_nsmul hg hm0 hm
  rw [h.agreement hg.1 hm ha, h.agreement hg.1 hm hb] at he
  by_cases ha0 : a = 0
  · rw [act_eq_none_iff.mpr fun hc => hc.2 ha0, eq_comm, act_eq_none_iff] at he
    by_contra hne
    exact he ⟨hy, fun hb0 => hne (ha0.trans hb0.symm)⟩
  · rw [act_eq_some_iff.mpr ⟨⟨hy, ha0⟩, rfl⟩, eq_comm, act_eq_some_iff] at he
    have hinj := nsmul_injOn_Iio_addOrderOf (x := m • g)
    rw [h.addOrderOf_eq hy] at hinj
    exact hinj ha hb he.2.symm

end Scalars

section Primality

/-- A number is prime when some base has order `p - 1` modulo it, which the
prime factors of `p - 1` decide. -/
theorem prime_of_order {p : Nat} (base : ZMod p) (factors : List (Nat × Nat))
    (hprime : ∀ f ∈ factors, f.1.Prime) (hprod : (factors.map fun f => f.1 ^ f.2).prod = p - 1)
    (hone : base ^ (p - 1) = 1) (hne : ∀ f ∈ factors, base ^ ((p - 1) / f.1) ≠ 1) : p.Prime := by
  apply lucas_primality p base hone
  intro q hq hdvd
  rw [← hprod] at hdvd
  obtain ⟨_, hpower, hqf⟩ := (Prime.dvd_prod_iff hq.prime).mp hdvd
  obtain ⟨f, hf, rfl⟩ := List.mem_map.mp hpower
  obtain rfl := (Nat.prime_dvd_prime_iff_eq hq (hprime f hf)).mp (hq.dvd_of_dvd_pow hqf)
  exact hne f hf

end Primality

end DigIdentity.PrimeOrderGroups
