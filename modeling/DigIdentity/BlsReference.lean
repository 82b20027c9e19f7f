import DigIdentity.BlsReadings
import DigIdentity.PointTables

namespace DigIdentity.BlsReference

open ByteStrings Bls PrimeOrderGroups BlsReadings PointTables

/-- The order of the subgroup of BLS12-381. -/
def groupOrder : Nat := 0x73eda753299d7d483339d80809a1d80553bda402fffe5bfeffffffff00000001

theorem groupOrder_prime : groupOrder.Prime := by
  rw [groupOrder]
  apply prime_of_order 7 [(2, 32), (3, 1), (11, 1), (19, 1), (10177, 1), (125527, 1), (859267, 1),
    (906349, 2), (2508409, 1), (2529403, 1), (52437899, 1), (254760293, 2)]
  · simp only [List.forall_mem_cons, List.not_mem_nil, false_implies, implies_true, and_true]
    norm_num
  · decide +kernel
  · norm_num only
    reduce_mod_char
  · simp only [List.forall_mem_cons, List.not_mem_nil, false_implies, implies_true, and_true]
    norm_num only
    reduce_mod_char
    decide +kernel

instance : NeZero groupOrder := ⟨by decide⟩

/-- Part of the curve, by discrete logarithms: the multiples of the generator
plus those of the point (0, 2), which has order three. -/
abbrev Point := ZMod groupOrder × ZMod 3

def subgroup : AddSubgroup Point := AddSubgroup.prod ⊤ ⊥

theorem mem_subgroup (x : Point) : x ∈ subgroup ↔ x.2 = 0 := by
  simp [subgroup, AddSubgroup.mem_prod]

theorem subgroup_primeOrder : PrimeOrder subgroup groupOrder := by
  refine ⟨groupOrder_prime, ?_⟩
  rw [subgroup, Nat.card_congr (AddSubgroup.prodEquiv ⊤ ⊥).toEquiv, Nat.card_prod, AddSubgroup.card_bot,
    AddSubgroup.card_top, Nat.card_zmod, Nat.mul_one]

def pointNumbering : PointNumbers Point where
  number x := 3 * x.1.val + x.2.val
  point n := ((n / 3 : Nat), (n % 3 : Nat))
  bound := 256 ^ 47
  point_number x := by
    have hlt : x.2.val < 3 := x.2.val_lt
    have hdiv : (3 * x.1.val + x.2.val) / 3 = x.1.val := by omega
    have hmod : (3 * x.1.val + x.2.val) % 3 = x.2.val := by omega
    simp [hdiv, hmod]
  number_lt x := by
    have h1 : x.1.val < groupOrder := x.1.val_lt
    have h2 : x.2.val < 3 := x.2.val_lt
    have hbound : groupOrder < 256 ^ 32 := by decide
    omega

/-- The compressed encodings of the points this development computes with. -/
def table : PointTable pointNumbering 48 where
  known :=
    [((0, 0), 0xc00000000000000000000000000000000000000000000000000000000000000000000000000000000000000000000000),
      ((1, 0), 0x97f1d3a73197d7942695638c4fa9ac0fc3688c4f9774b905a14e3a3f171bac586c55e83ff97a1aeffb3af00adb22c6bb),
      ((2, 0), 0xa572cbea904d67468808c8eb50a9450c9721db309128012543902d0ac358a62ae28f75bb8f1c7c42c39a8c5529bf0f4e),
      ((3, 0), 0x89ece308f9d1f0131765212deca99697b112d61f9be9a5f1f3780a51335b3ff981747a0b2ca2179b96d2c0c9024e5224),
      ((6, 0), 0xa6e82f6da4520f85c5d27d8f329eccfa05944fd1096b20734c894966d12a9e2a9a9744529d7212d33883113a0cadb909),
      ((0, 1), 0x800000000000000000000000000000000000000000000000000000000000000000000000000000000000000000000000),
      ((0, 2), 0xa00000000000000000000000000000000000000000000000000000000000000000000000000000000000000000000000)]
  wide := by decide
  codes := by decide +kernel
  inj := by decide +kernel

def bytes48 (n : Nat) : Bytes48 := ⟨(toBe 48 n).toArray, by simp⟩

def encode (x : Point) : Bytes48 := table.encode x

def scale (n : Nat) (x : Point) : Point := ((n : ZMod groupOrder) * x.1, (n : ZMod 3) * x.2)

def beBytes (n : Nat) : Bytes32 := ⟨(toBe 32 n).toArray, by simp⟩

scoped instance crates : BlsCrates where
  P1 := Point
  P1Affine := Point
  p1Uncompress := table.decode
  p1AffineIsInf x := x = 0
  p1AffineInG1 x := x.2 = 0
  p1FromAffine x := x
  p1ToAffine x := x
  p1Mult x scalar bits := scale (ofLe scalar.toList % 2 ^ bits) x
  p1Compress := encode
  scalarFromBendian bytes := ⟨bytes.reverse⟩
  SecretKey := Fin groupOrder
  PublicKey := Point
  secretKeyToBytes sk := beBytes sk
  publicKey sk := scale sk (1, 0)
  publicKeyToBytes := encode

def secretKey (n : Nat) : BlsCrates.SecretKey := Fin.ofNat groupOrder n

def reading : Reading Point where
  r := groupOrder
  G1 := subgroup
  generator := (1, 0)
  encode := encode
  point x := x
  affinePoint x := x

theorem scale_eq (n : Nat) (x : Point) : scale n x = n • x := by
  ext
  · simp [scale]
  · simp [scale]

theorem scalarOf_eq (sk : Fin groupOrder) : scalarOf sk = sk.val := by
  have hlt : sk.val < 256 ^ 32 := sk.isLt.trans (by decide)
  change ofBe (toBe 32 sk.val) = sk.val
  rw [ofBe_toBe, Nat.mod_eq_of_lt hlt]

theorem documented : reading.Documented where
  primeOrder := subgroup_primeOrder
  order_lt := by decide
  generator_usable := ⟨(mem_subgroup _).mpr rfl, by decide +kernel⟩
  encode_zero := by decide +kernel
  compress_eq _ := rfl
  uncompress_encode x _ := ⟨x, table.decode_encode x, rfl⟩
  encode_of_uncompress _ _ := table.encode_of_decode
  isInf_iff _ := decide_eq_true_iff
  inG1_iff x := decide_eq_true_iff.trans (mem_subgroup x).symm
  fromAffine_eq _ := rfl
  toAffine_eq _ := rfl
  mult_eq _ _ _ := scale_eq _ _
  fromBendian_eq bytes := by
    change ofLe bytes.reverse.toList = ofBe bytes.toList
    simp [ofLe]
  scalarOf_lt sk := by
    rw [scalarOf_eq]
    exact sk.isLt
  publicKey_eq sk := by
    rw [scalarOf_eq]
    exact congrArg encode (scale_eq sk.val (1, 0))

end DigIdentity.BlsReference
