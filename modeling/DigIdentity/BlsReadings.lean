import DigIdentity.Bls
import DigIdentity.PrimeOrderGroups

namespace DigIdentity.BlsReadings

open ByteStrings Bls BlsCrates PrimeOrderGroups

/-- What the values of the crates stand for: points of the curve, of which those
in `G1` form the subgroup of prime order `r`. -/
structure Reading [BlsCrates] (E : Type) [AddCommGroup E] where
  r : Nat
  G1 : AddSubgroup E
  generator : E
  encode : E → Bytes48
  point : P1 → E
  affinePoint : P1Affine → E

namespace Reading

variable [BlsCrates] {E : Type} [AddCommGroup E]

/-- What the crates document. The points of the subgroup are encoded canonically
and multiplied as they should be; of the other points only that no bytes decode
to one that they do not encode, and that the check knows them. -/
structure Documented (R : Reading E) : Prop where
  primeOrder : PrimeOrder R.G1 R.r
  order_lt : R.r < 2 ^ 255
  generator_usable : Usable R.G1 R.generator
  encode_zero : R.encode 0 = g1Infinity
  compress_eq : ∀ p, p1Compress p = R.encode (R.point p)
  uncompress_encode : ∀ x ∈ R.G1, ∃ a, p1Uncompress (R.encode x) = some a ∧ R.affinePoint a = x
  encode_of_uncompress : ∀ bytes a, p1Uncompress bytes = some a → R.encode (R.affinePoint a) = bytes
  isInf_iff : ∀ a, p1AffineIsInf a = true ↔ R.affinePoint a = 0
  inG1_iff : ∀ a, p1AffineInG1 a = true ↔ R.affinePoint a ∈ R.G1
  fromAffine_eq : ∀ a, R.point (p1FromAffine a) = R.affinePoint a
  toAffine_eq : ∀ p, R.affinePoint (p1ToAffine p) = R.point p
  mult_eq : ∀ p scalar, R.point p ∈ R.G1 →
    R.point (p1Mult p scalar 255) = (ofLe scalar.toList % 2 ^ 255) • R.point p
  fromBendian_eq : ∀ bytes : Bytes32, ofLe (scalarFromBendian bytes).b.toList = ofBe bytes.toList
  scalarOf_lt : ∀ sk, scalarOf sk < R.r
  publicKey_eq : ∀ sk, publicKeyToBytes (publicKey sk) = R.encode (scalarOf sk • R.generator)

/-- The point a string of bytes encodes. -/
def decode (R : Reading E) (bytes : Bytes48) : Option E := (p1Uncompress bytes).map R.affinePoint

namespace Documented

variable {R : Reading E} {bytes : Bytes48} {x y : E}

theorem encode_of_decode (h : R.Documented) (hd : R.decode bytes = some x) : R.encode x = bytes := by
  obtain ⟨a, ha, rfl⟩ := Option.map_eq_some_iff.mp hd
  exact h.encode_of_uncompress bytes a ha

theorem decode_encode (h : R.Documented) (hx : x ∈ R.G1) : R.decode (R.encode x) = some x :=
  Option.map_eq_some_iff.mpr (h.uncompress_encode x hx)

theorem encode_inj (h : R.Documented) (hx : x ∈ R.G1) (hy : y ∈ R.G1) :
    R.encode x = R.encode y ↔ x = y := by
  constructor
  · intro he
    have hd := h.decode_encode hx
    rw [he, h.decode_encode hy] at hd
    exact (Option.some.inj hd).symm
  · rintro rfl
    rfl

theorem check_of_decode (hd : R.decode bytes = none) : g1SubgroupCheck bytes = false := by
  rw [Bool.eq_false_iff, ne_eq, g1SubgroupCheck_eq_true_iff]
  rintro ⟨_, a, hu, _⟩
  simp [decode, hu] at hd

/-- The check accepts the encodings of usable points and nothing else. -/
theorem check_iff (h : R.Documented) (bytes : Bytes48) :
    g1SubgroupCheck bytes = true ↔ ∃ x, R.decode bytes = some x ∧ Usable R.G1 x := by
  rw [g1SubgroupCheck_eq_true_iff]
  constructor
  · rintro ⟨_, a, hu, hinf, hin⟩
    refine ⟨R.affinePoint a, Option.map_eq_some_iff.mpr ⟨a, hu, rfl⟩, (h.inG1_iff a).mp hin, fun hz => ?_⟩
    exact Bool.eq_false_iff.mp hinf ((h.isInf_iff a).mpr hz)
  · rintro ⟨_, hd, hin, hne⟩
    obtain ⟨a, hu, rfl⟩ := Option.map_eq_some_iff.mp hd
    refine ⟨?_, a, hu, Bool.eq_false_iff.mpr (hne ∘ (h.isInf_iff a).mp), (h.inG1_iff a).mpr hin⟩
    rintro rfl
    rw [← h.encode_zero, h.decode_encode R.G1.zero_mem] at hd
    exact hne (Option.some.inj hd).symm

theorem check_encode_iff (h : R.Documented) (hx : x ∈ R.G1) :
    g1SubgroupCheck (R.encode x) = true ↔ x ≠ 0 := by
  rw [h.check_iff, h.decode_encode hx]
  constructor
  · rintro ⟨_, he, _, hne⟩
    cases he
    exact hne
  · intro hne
    exact ⟨x, rfl, hx, hne⟩

/-- The product the DH computes: neither the change of byte order nor the 255
bits of the multiplication lose a bit of the scalar. -/
theorem product_eq (h : R.Documented) (sk : SecretKey) {a : P1Affine} (ha : R.affinePoint a ∈ R.G1) :
    R.point (p1Mult (p1FromAffine a) (scalarFromBendian (secretKeyToBytes sk)).b 255) =
      scalarOf sk • R.affinePoint a := by
  have hlt : scalarOf sk < 2 ^ 255 := (h.scalarOf_lt sk).trans h.order_lt
  rw [h.mult_eq _ _ (by rwa [h.fromAffine_eq]), h.fromBendian_eq, h.fromAffine_eq, ← scalarOf,
    Nat.mod_eq_of_lt hlt]

theorem product_isInf_iff (h : R.Documented) (sk : SecretKey) {a : P1Affine}
    (ha : R.affinePoint a ∈ R.G1) :
    p1AffineIsInf (p1ToAffine (p1Mult (p1FromAffine a)
      (scalarFromBendian (secretKeyToBytes sk)).b 255)) = true ↔
      scalarOf sk • R.affinePoint a = 0 := by
  rw [h.isInf_iff, h.toAffine_eq, h.product_eq sk ha]

theorem g1Dh_of_usable (h : R.Documented) (sk : SecretKey) (hd : R.decode bytes = some x)
    (hx : Usable R.G1 x) : g1Dh sk bytes = (act R.G1 (scalarOf sk) x).map R.encode := by
  have hcheck := (h.check_iff bytes).mpr ⟨x, hd, hx⟩
  obtain ⟨a, hu, rfl⟩ := Option.map_eq_some_iff.mp hd
  rw [g1Dh_of_uncompress hcheck hu]
  dsimp only
  rw [h.compress_eq, h.product_eq sk hx.1]
  by_cases hz : scalarOf sk = 0
  · have hinf := (h.product_isInf_iff sk hx.1).mpr (by rw [hz, zero_nsmul])
    rw [if_pos hinf, act_eq_none_iff.mpr fun hc => hc.2 hz]
    rfl
  · have hne := (h.primeOrder.usable_nsmul hx hz (h.scalarOf_lt sk)).2
    rw [if_neg (hne ∘ (h.product_isInf_iff sk hx.1).mp), act_eq_some_iff.mpr ⟨⟨hx, hz⟩, rfl⟩]
    rfl

/-- The DH decodes a point, lets the scalar act on it and encodes the result. -/
theorem g1Dh_eq (h : R.Documented) (sk : SecretKey) (bytes : Bytes48) :
    g1Dh sk bytes = ((R.decode bytes).bind (act R.G1 (scalarOf sk))).map R.encode := by
  cases hd : R.decode bytes with
  | none =>
      rw [g1Dh, check_of_decode hd]
      rfl
  | some x =>
      by_cases hx : Usable R.G1 x
      · rw [h.g1Dh_of_usable sk hd hx]
        rfl
      · have hcheck : g1SubgroupCheck bytes = false := by
          rw [Bool.eq_false_iff, ne_eq, h.check_iff, hd]
          rintro ⟨_, he, hx'⟩
          cases he
          exact hx hx'
        rw [Option.bind_some, act_eq_none_iff.mpr fun hc => hx hc.1, g1Dh, hcheck]
        rfl

theorem g1Dh_encode (h : R.Documented) (sk : SecretKey) (hx : x ∈ R.G1) :
    g1Dh sk (R.encode x) = (act R.G1 (scalarOf sk) x).map R.encode := by
  rw [h.g1Dh_eq, h.decode_encode hx]
  rfl

end Documented

end Reading

end DigIdentity.BlsReadings
