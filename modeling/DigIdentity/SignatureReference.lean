import DigIdentity.BlsReference
import DigIdentity.PointTables
import DigIdentity.SignatureReadings

namespace DigIdentity.SignatureReference

open ByteStrings Bls BlsKeys PrimeOrderGroups PrimePairings BlsReadings SignatureReadings PointTables
open BlsReference (groupOrder groupOrder_prime beBytes)

/-- Each of the three groups by discrete logarithms: to the generator of G1, to
the point of G2 that the sample message is hashed to, and to their pairing. -/
abbrev Scalar := ZMod groupOrder

def goldenSeed : Bytes :=
  toBe 32 0x37f46796c79a61e2a66b3e8ed89f8aae21ccf44971a9c90b105a52374eda9546

def transcript : Bytes := "transcript".toUTF8.toList

def masterScalar : Nat := 0x1697eeb941ba63fa74e2444ea1e8f4a87f936e7adf0880b69ac04e2a83b28513

/-- The scalars of the paths that lead to the first two profiles and to a key
for coins. -/
def derivations : List ((Nat × Nat) × Nat) :=
  [((masterScalar, 12381), 0x237380d1f4c30290ee2166d6a09dc130a59d472ed477d37f10202b427e4c5c23),
    ((0x237380d1f4c30290ee2166d6a09dc130a59d472ed477d37f10202b427e4c5c23, 8444),
      0x4370bfb2028019f7cb4ae878a548edb5ddfa1784c7fa75cb07f090ee88f3f136),
    ((0x4370bfb2028019f7cb4ae878a548edb5ddfa1784c7fa75cb07f090ee88f3f136, 9),
      0x3f45edcf311a0edadbe77431374466881ddff2797974290927d5f7ae920c865c),
    ((0x3f45edcf311a0edadbe77431374466881ddff2797974290927d5f7ae920c865c, 0),
      0x5af4dcf626563244e4f4ba81c56ed66c899d5a88f93760b859a228995e041e7d),
    ((0x3f45edcf311a0edadbe77431374466881ddff2797974290927d5f7ae920c865c, 1),
      0x66f1e59c14262c1275590493a35098da1a7ffa6b1964989738b1fdb97c13b810),
    ((0x4370bfb2028019f7cb4ae878a548edb5ddfa1784c7fa75cb07f090ee88f3f136, 2),
      0x540dcbae4ae751b29ae08e5044a6daa0cb561545e73eeada8accdbf8e22bd6d0),
    ((0x540dcbae4ae751b29ae08e5044a6daa0cb561545e73eeada8accdbf8e22bd6d0, 0),
      0x287f45e4dfdb642831ada3508144a1515ce190123d330b7a774ea2811e3f1454)]

def identityScalar : Nat := 0x5af4dcf626563244e4f4ba81c56ed66c899d5a88f93760b859a228995e041e7d

def scalarNumbering : PointNumbers Scalar where
  number := ZMod.val
  point n := (n : Nat)
  bound := groupOrder
  point_number := ZMod.natCast_zmod_val
  number_lt := ZMod.val_lt

/-- The keys of the first two profiles and of the coins, as public keys. -/
def keyTable : PointTable scalarNumbering 48 where
  known :=
    [(0, 0xc00000000000000000000000000000000000000000000000000000000000000000000000000000000000000000000000),
      (1, 0x97f1d3a73197d7942695638c4fa9ac0fc3688c4f9774b905a14e3a3f171bac586c55e83ff97a1aeffb3af00adb22c6bb),
      ((identityScalar : Nat), 0xa35537846964a3bff1c38d81f21a78e9040a8ab47446867848050c904b4d5954addab84649da1275c583f164c6c87e1f),
      ((0x66f1e59c14262c1275590493a35098da1a7ffa6b1964989738b1fdb97c13b810 : Nat),
        0x81e44f41bce1a044bc16ee6d4bdb8c0575b8f290209542bfa659de3edaf89aa297880518a795087d2a572df04842cceb),
      ((0x287f45e4dfdb642831ada3508144a1515ce190123d330b7a774ea2811e3f1454 : Nat),
        0xb2d4b1290c382715766ce4fa668bce3bae09ac9ea68cea46aa8c8a00a571efd256e6e06b0ec1b06ba6b2d11f288210de)]
  wide := by decide
  codes := by decide +kernel
  inj := by decide +kernel

/-- The hash of the sample message under the identity key, and its signature. -/
def sigTable : PointTable scalarNumbering 96 where
  known :=
    [(0, 0xc0 * 256 ^ 95),
      (1, 0x8c84c7d396a9aee12d15394031daa5588787abdd597cfb1c9732a8e8b453576b58c61917880a5d07ae6992f90c71c6f307e0c4b8d8254262a283216d5f19a5bcee50b683c450029978c77d3abb377f908416e7f59bb3d29ff8ccc5a0fe431ddc),
      ((identityScalar : Nat), 0xaedbefd9fa79d32587cc90f825dca4fc01e4fffbc782524d25544a39911a104e313168b2a4478652b2cb5c0ae07e5a4e14d2e47587f0ec9da0843671523ffaa491af8cef93910b8be6da43cd5fa842e095ba19344780c73fcae9fbc5836bd504)]
  wide := by decide
  codes := by decide +kernel
  inj := by decide +kernel

def hashToG2 (bytes : Bytes) : Scalar :=
  if bytes = (keyTable.encode (identityScalar : Nat)).toList ++ transcript then 1 else (ofBe bytes : Nat)

def childOf (sk : Fin groupOrder) (index : UInt32) : Fin groupOrder :=
  Fin.ofNat groupOrder ((derivations.lookup (sk.val, index.toNat)).getD sk.val)

def masterOf (seed : Bytes) : Option (Fin groupOrder) :=
  if seed.length < 32 then none
  else if seed = goldenSeed then some (Fin.ofNat groupOrder masterScalar)
  else some (Fin.ofNat groupOrder (ofBe seed))

def publicPoint (sk : Fin groupOrder) : Scalar := (sk.val : Nat)

scoped instance crates : KeyModelCrates where
  P1 := Scalar
  P1Affine := Scalar
  p1Uncompress := keyTable.decode
  p1AffineIsInf x := x = 0
  p1AffineInG1 _ := true
  p1FromAffine x := x
  p1ToAffine x := x
  p1Mult x scalar bits := ((ofLe scalar.toList % 2 ^ bits : Nat) : Scalar) * x
  p1Compress := keyTable.encode
  scalarFromBendian bytes := ⟨bytes.reverse⟩
  SecretKey := Fin groupOrder
  PublicKey := Scalar
  secretKeyToBytes sk := beBytes sk
  publicKey := publicPoint
  publicKeyToBytes := keyTable.encode
  Signature := Scalar
  fromSeed := masterOf
  deriveHardened := childOf
  publicKeyFromBytes := keyTable.decode
  signatureFromBytes := sigTable.decode
  signatureToBytes := sigTable.encode
  augSign sk msg := (sk.val : Nat) * hashToG2 ((keyTable.encode (publicPoint sk)).toList ++ msg)
  augVerify sig key msg := decide (key ≠ 0 ∧ key * hashToG2 ((keyTable.encode key).toList ++ msg) = sig)

scoped instance : DecidableEq crates.SecretKey := inferInstanceAs (DecidableEq (Fin groupOrder))

def reading : SigningReading Scalar Scalar Scalar where
  r := groupOrder
  G1 := ⊤
  generator := 1
  encode := keyTable.encode
  point x := x
  affinePoint x := x
  G2 := ⊤
  pair x y := x * y
  hashToG2 := hashToG2
  encode2 := sigTable.encode
  keyPoint x := x
  sigPoint x := x

theorem whole_primeOrder : PrimeOrder (⊤ : AddSubgroup Scalar) groupOrder :=
  ⟨groupOrder_prime, by rw [AddSubgroup.card_top, Nat.card_zmod]⟩

theorem scalarOf_eq (sk : Fin groupOrder) : scalarOf sk = sk.val := by
  have hlt : sk.val < 256 ^ 32 := sk.isLt.trans (by decide)
  change ofBe (toBe 32 sk.val) = sk.val
  rw [ofBe_toBe, Nat.mod_eq_of_lt hlt]

theorem product_pairing : IsPairing (⊤ : AddSubgroup Scalar) (⊤ : AddSubgroup Scalar) groupOrder
    fun x y : Scalar => x * y where
  primeOrder := whole_primeOrder
  add_left x _ x' _ y _ := add_mul x x' y
  add_right x _ y _ y' _ := mul_add x y y'
  nondegenerate x _ y _ h := by
    have := Fact.mk groupOrder_prime
    exact mul_eq_zero.mp h

theorem publicKeyToBytes_eq (key : Scalar) : crates.publicKeyToBytes key = keyTable.encode key := rfl

theorem publicKeyBytes_eq (sk : Fin groupOrder) :
    publicKeyBytes sk = keyTable.encode (publicPoint sk) := rfl

theorem sigPoint_augSign (sk : Fin groupOrder) (msg : Bytes) :
    reading.sigPoint (crates.augSign sk msg) =
      (sk.val : Scalar) * hashToG2 ((keyTable.encode (publicPoint sk)).toList ++ msg) := rfl

theorem reading_hashToG2 (bytes : Bytes) : reading.hashToG2 bytes = hashToG2 bytes := rfl

theorem reading_pair (x y : Scalar) : reading.pair x y = x * y := rfl

theorem verify_iff (sig key : Scalar) (msg : Bytes) :
    crates.augVerify sig key msg = true ↔
      key ≠ 0 ∧ key * hashToG2 ((keyTable.encode key).toList ++ msg) = 1 * sig := by
  rw [one_mul]
  exact decide_eq_true_iff

theorem points_documented : reading.toReading.Documented where
  primeOrder := whole_primeOrder
  order_lt := by decide
  generator_usable := ⟨AddSubgroup.mem_top _, by decide +kernel⟩
  encode_zero := by decide +kernel
  compress_eq _ := rfl
  uncompress_encode x _ := ⟨x, keyTable.decode_encode x, rfl⟩
  encode_of_uncompress _ _ := keyTable.encode_of_decode
  isInf_iff _ := decide_eq_true_iff
  inG1_iff x := iff_of_true rfl (AddSubgroup.mem_top (G := Scalar) x)
  fromAffine_eq _ := rfl
  toAffine_eq _ := rfl
  mult_eq _ _ _ := (nsmul_eq_mul _ _).symm
  fromBendian_eq bytes := by
    change ofLe bytes.reverse.toList = ofBe bytes.toList
    simp [ofLe]
  scalarOf_lt sk := by
    rw [scalarOf_eq]
    exact sk.isLt
  publicKey_eq sk := by
    rw [scalarOf_eq]
    exact congrArg keyTable.encode ((nsmul_eq_mul _ _).trans (mul_one _)).symm

theorem documented : reading.Documented where
  toDocumented := points_documented
  pairing := product_pairing
  hash_mem _ := AddSubgroup.mem_top _
  encode2_inj _ _ _ _ := sigTable.encode_inj
  key_toBytes _ := rfl
  key_fromBytes bytes x := by
    constructor
    · rintro ⟨key, hkey, rfl⟩
      exact ⟨AddSubgroup.mem_top _, keyTable.encode_of_decode hkey⟩
    · rintro ⟨_, rfl⟩
      exact ⟨x, keyTable.decode_encode x, rfl⟩
  sig_toBytes _ := rfl
  sig_fromBytes bytes y := by
    constructor
    · rintro ⟨sig, hsig, rfl⟩
      exact ⟨AddSubgroup.mem_top _, sigTable.encode_of_decode hsig⟩
    · rintro ⟨_, rfl⟩
      exact ⟨y, sigTable.decode_encode y, rfl⟩
  sign_eq sk msg := by
    rw [scalarOf_eq, publicKeyBytes_eq, sigPoint_augSign, reading_hashToG2, nsmul_eq_mul]
  verify_iff sig key msg _ _ := by
    rw [publicKeyToBytes_eq, reading_hashToG2, reading_pair, reading_pair]
    exact verify_iff sig key msg

end DigIdentity.SignatureReference
