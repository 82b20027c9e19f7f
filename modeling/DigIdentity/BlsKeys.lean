import DigIdentity.Bls

namespace DigIdentity.BlsKeys

open ByteStrings Bls

abbrev Bytes96 := Vector UInt8 96

/-- The rest of what the key model calls in `chia-bls`. A seed of fewer than 32
bytes makes `from_seed` panic, which is `none` here. -/
class KeyModelCrates extends BlsCrates where
  Signature : Type
  fromSeed : Bytes → Option SecretKey
  deriveHardened : SecretKey → UInt32 → SecretKey
  publicKeyFromBytes : Bytes48 → Option PublicKey
  signatureFromBytes : Bytes96 → Option Signature
  signatureToBytes : Signature → Bytes96
  augSign : SecretKey → Bytes → Signature
  augVerify : Signature → PublicKey → Bytes → Bool

def identityDerivationPath : List UInt32 := [12381, 8444, 9, 0]

/-- The part of the path that every profile shares. -/
def identityPathPrefix : List UInt32 := [12381, 8444, 9]

section KeyModel

variable [KeyModelCrates]

open BlsCrates KeyModelCrates

def masterSecretKeyFromSeed (seed : Bytes) : Option SecretKey := fromSeed seed

def deriveIdentitySkAt (master : SecretKey) (profileIx : UInt32) : SecretKey :=
  let prefixed := identityPathPrefix.foldl (fun sk index => deriveHardened sk index) master
  deriveHardened prefixed profileIx

def deriveIdentitySk (master : SecretKey) : SecretKey := deriveIdentitySkAt master 0

def signMessage (sk : SecretKey) (msg : Bytes) : Bytes96 := signatureToBytes (augSign sk msg)

def verifySignature (pk : Bytes48) (msg : Bytes) (sig : Bytes96) : Bool :=
  match publicKeyFromBytes pk, signatureFromBytes sig with
  | some pk, some sig => augVerify sig pk msg
  | none, _ | some _, none => false

theorem verifySignature_eq_true_iff {pk : Bytes48} {msg : Bytes} {sig : Bytes96} :
    verifySignature pk msg sig = true ↔ ∃ key s, publicKeyFromBytes pk = some key ∧
      signatureFromBytes sig = some s ∧ augVerify s key msg = true := by
  unfold verifySignature
  cases publicKeyFromBytes pk with
  | none => simp
  | some key =>
      cases signatureFromBytes sig with
      | none => simp
      | some s => simp

end KeyModel

end DigIdentity.BlsKeys
