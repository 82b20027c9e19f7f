import DigIdentity.ByteStrings

namespace DigIdentity.Bls

open ByteStrings

abbrev Bytes48 := Vector UInt8 48

structure BlstScalar where
  b : Bytes32
deriving DecidableEq

/-- What the identity key model calls in the `blst` and `chia-bls` crates. A
function that fills an out-parameter returns it, or `none` unless it reports
`BLST_SUCCESS`. -/
class BlsCrates where
  P1 : Type
  P1Affine : Type
  p1Uncompress : Bytes48 → Option P1Affine
  p1AffineIsInf : P1Affine → Bool
  p1AffineInG1 : P1Affine → Bool
  p1FromAffine : P1Affine → P1
  p1ToAffine : P1 → P1Affine
  p1Mult : P1 → Bytes32 → Nat → P1
  p1Compress : P1 → Bytes48
  scalarFromBendian : Bytes32 → BlstScalar
  SecretKey : Type
  PublicKey : Type
  secretKeyToBytes : SecretKey → Bytes32
  publicKey : SecretKey → PublicKey
  publicKeyToBytes : PublicKey → Bytes48

/-- The compressed encoding of the identity element. -/
def g1Infinity : Bytes48 := (Vector.replicate 48 0).set 0 0xc0

section KeyModel

variable [BlsCrates]

open BlsCrates

def publicKeyBytes (sk : SecretKey) : Bytes48 := publicKeyToBytes (publicKey sk)

def g1SubgroupCheck (pk : Bytes48) : Bool :=
  if pk = g1Infinity then false
  else
    match p1Uncompress pk with
    | none => false
    | some affine => if p1AffineIsInf affine then false else p1AffineInG1 affine

def g1Dh (sk : SecretKey) (peerG1 : Bytes48) : Option Bytes48 :=
  if !g1SubgroupCheck peerG1 then none
  else do
    let scalarBytes := secretKeyToBytes sk
    let affine ← p1Uncompress peerG1
    let point := p1FromAffine affine
    let scalar := scalarFromBendian scalarBytes
    let product := p1Mult point scalar.b 255
    -- no scalar in 1..r reaches the identity; the source rejects it all the same
    let productAffine := p1ToAffine product
    if p1AffineIsInf productAffine then none else some (p1Compress product)

/-- The scalar a secret key carries, as its bytes tell it. -/
def scalarOf (sk : SecretKey) : Nat := ofBe (secretKeyToBytes sk).toList

theorem g1SubgroupCheck_eq_true_iff (pk : Bytes48) :
    g1SubgroupCheck pk = true ↔ pk ≠ g1Infinity ∧
      ∃ affine, p1Uncompress pk = some affine ∧ p1AffineIsInf affine = false ∧
        p1AffineInG1 affine = true := by
  unfold g1SubgroupCheck
  by_cases hinf : pk = g1Infinity
  · simp [hinf]
  · cases hu : p1Uncompress pk with
    | none => simp [hinf]
    | some affine => simp [hinf]

/-- One call of the DH on bytes that decode to a point, past the check. -/
theorem g1Dh_of_uncompress {sk : SecretKey} {pk : Bytes48} {affine : P1Affine}
    (hcheck : g1SubgroupCheck pk = true) (hu : p1Uncompress pk = some affine) :
    g1Dh sk pk =
      let product := p1Mult (p1FromAffine affine) (scalarFromBendian (secretKeyToBytes sk)).b 255
      if p1AffineIsInf (p1ToAffine product) then none else some (p1Compress product) := by
  simp [g1Dh, hcheck, hu]

end KeyModel

end DigIdentity.Bls
