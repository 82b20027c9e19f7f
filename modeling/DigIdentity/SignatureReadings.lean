import DigIdentity.BlsKeys
import DigIdentity.BlsReadings
import DigIdentity.PrimePairings

namespace DigIdentity.SignatureReadings

open ByteStrings Bls BlsCrates BlsKeys KeyModelCrates PrimeOrderGroups PrimePairings BlsReadings

/-- What keys and signatures stand for: points of two groups that a pairing
takes into a third, the signatures' own group being `G2`. -/
structure SigningReading [KeyModelCrates] (E F T : Type) [AddCommGroup E] [AddCommGroup F]
    [AddCommGroup T] extends Reading E where
  G2 : AddSubgroup F
  pair : E → F → T
  hashToG2 : Bytes → F
  encode2 : F → Bytes96
  keyPoint : PublicKey → E
  sigPoint : Signature → F

namespace SigningReading

variable [KeyModelCrates] {E F T : Type} [AddCommGroup E] [AddCommGroup F] [AddCommGroup T]

/-- What `chia-bls` documents of the augmented scheme: keys and signatures are
read back from canonical encodings of points of the subgroups, infinity
included, a signature is the scalar's multiple of the hash of the public key and
the message, and verification compares two pairings and refuses the zero key. -/
structure Documented (R : SigningReading E F T) : Prop extends R.toReading.Documented where
  pairing : IsPairing R.G1 R.G2 R.r R.pair
  hash_mem : ∀ bytes, R.hashToG2 bytes ∈ R.G2
  encode2_inj : ∀ y ∈ R.G2, ∀ z ∈ R.G2, R.encode2 y = R.encode2 z → y = z
  key_toBytes : ∀ key, publicKeyToBytes key = R.encode (R.keyPoint key)
  key_fromBytes : ∀ bytes x, (∃ key, publicKeyFromBytes bytes = some key ∧ R.keyPoint key = x) ↔
    x ∈ R.G1 ∧ R.encode x = bytes
  sig_toBytes : ∀ sig, signatureToBytes sig = R.encode2 (R.sigPoint sig)
  sig_fromBytes : ∀ bytes y, (∃ sig, signatureFromBytes bytes = some sig ∧ R.sigPoint sig = y) ↔
    y ∈ R.G2 ∧ R.encode2 y = bytes
  sign_eq : ∀ sk msg, R.sigPoint (augSign sk msg) =
    scalarOf sk • R.hashToG2 ((publicKeyBytes sk).toList ++ msg)
  verify_iff : ∀ sig key msg, R.keyPoint key ∈ R.G1 → R.sigPoint sig ∈ R.G2 →
    (augVerify sig key msg = true ↔ R.keyPoint key ≠ 0 ∧
      R.pair (R.keyPoint key) (R.hashToG2 ((publicKeyToBytes key).toList ++ msg)) =
        R.pair R.generator (R.sigPoint sig))

/-- The point that a message is sent to under a public key. -/
def messagePoint (R : SigningReading E F T) (pk : Bytes48) (msg : Bytes) : F :=
  R.hashToG2 (pk.toList ++ msg)

namespace Documented

variable {R : SigningReading E F T}

theorem messagePoint_mem (h : R.Documented) (pk : Bytes48) (msg : Bytes) :
    R.messagePoint pk msg ∈ R.G2 := h.hash_mem _

/-- Verification of bytes: they encode a usable key and a point of the
signatures' group which solves the key's equation. -/
theorem verifySignature_iff (h : R.Documented) {pk : Bytes48} {msg : Bytes} {sig : Bytes96} :
    verifySignature pk msg sig = true ↔ ∃ x y, Usable R.G1 x ∧ R.encode x = pk ∧
      y ∈ R.G2 ∧ R.encode2 y = sig ∧
      R.pair x (R.messagePoint pk msg) = R.pair R.generator y := by
  rw [verifySignature_eq_true_iff]
  constructor
  · rintro ⟨key, s, hkey, hs, hv⟩
    obtain ⟨hx, hpk⟩ := (h.key_fromBytes pk _).mp ⟨key, hkey, rfl⟩
    obtain ⟨hy, hsig⟩ := (h.sig_fromBytes sig _).mp ⟨s, hs, rfl⟩
    obtain ⟨hne, he⟩ := (h.verify_iff s key msg hx hy).mp hv
    rw [h.key_toBytes, hpk] at he
    exact ⟨_, _, ⟨hx, hne⟩, hpk, hy, hsig, he⟩
  · rintro ⟨x, y, ⟨hx, hne⟩, hpk, hy, hsig, he⟩
    obtain ⟨key, hkey, rfl⟩ := (h.key_fromBytes pk x).mpr ⟨hx, hpk⟩
    obtain ⟨s, hs, rfl⟩ := (h.sig_fromBytes sig y).mpr ⟨hy, hsig⟩
    refine ⟨key, s, hkey, hs, (h.verify_iff s key msg hx hy).mpr ⟨hne, ?_⟩⟩
    rw [h.key_toBytes, hpk]
    exact he

theorem signMessage_eq (h : R.Documented) (sk : SecretKey) (msg : Bytes) :
    signMessage sk msg = R.encode2 (scalarOf sk • R.messagePoint (publicKeyBytes sk) msg) := by
  rw [signMessage, h.sig_toBytes, h.sign_eq]
  rfl

/-- The public key of a scalar other than zero, and no other, encodes a usable
multiple of the generator. -/
theorem usable_publicKey_iff (h : R.Documented) {sk : SecretKey} {x : E} :
    Usable R.G1 x ∧ R.encode x = publicKeyBytes sk ↔
      scalarOf sk ≠ 0 ∧ scalarOf sk • R.generator = x := by
  have hg : scalarOf sk • R.generator ∈ R.G1 := R.G1.nsmul_mem h.generator_usable.1 _
  rw [publicKeyBytes, h.publicKey_eq]
  constructor
  · rintro ⟨hx, he⟩
    obtain rfl := (h.encode_inj hx.1 hg).mp he
    refine ⟨fun hz => hx.2 ?_, rfl⟩
    rw [hz, zero_nsmul]
  · rintro ⟨hz, rfl⟩
    exact ⟨h.primeOrder.usable_nsmul h.generator_usable hz (h.scalarOf_lt sk), rfl⟩

end Documented

end SigningReading

end DigIdentity.SignatureReadings
