import DigIdentity.SignatureReference

namespace DigIdentity.Signatures

open ByteStrings Bls BlsCrates BlsKeys PrimeOrderGroups PrimePairings BlsReadings SignatureReadings
  SigningReading

section Verification

variable [KeyModelCrates] {E F T : Type} [AddCommGroup E] [AddCommGroup F] [AddCommGroup T]
  {R : SigningReading E F T}

/-- A key under which any signature verifies passes the check that guards the
DH. -/
theorem check_of_verifySignature (h : R.Documented) {pk : Bytes48} {msg : Bytes} {sig : Bytes96}
    (hv : verifySignature pk msg sig = true) : g1SubgroupCheck pk = true := by
  obtain ⟨x, _, hx, rfl, _⟩ := h.verifySignature_iff.mp hv
  exact (h.toDocumented.check_encode_iff hx.1).mpr hx.2

theorem existsUnique_signature (h : R.Documented) {pk : Bytes48} (hc : g1SubgroupCheck pk = true)
    (msg : Bytes) : ∃! sig, verifySignature pk msg sig = true := by
  obtain ⟨x, hd, hx⟩ := (h.toDocumented.check_iff pk).mp hc
  have hpk : R.encode x = pk := h.toDocumented.encode_of_decode hd
  obtain ⟨y, ⟨hy, he⟩, huniq⟩ := h.pairing.existsUnique_pair_eq h.generator_usable hx.1
    (h.messagePoint_mem pk msg)
  refine ⟨R.encode2 y, h.verifySignature_iff.mpr ⟨x, y, hx, hpk, hy, rfl, he⟩, ?_⟩
  intro sig hv
  obtain ⟨x', y', hx', hpk', hy', rfl, he'⟩ := h.verifySignature_iff.mp hv
  obtain rfl := (h.toDocumented.encode_inj hx'.1 hx.1).mp (hpk'.trans hpk.symm)
  rw [huniq y' ⟨hy', he'⟩]

theorem verifySignature_publicKeyBytes_iff (h : R.Documented) {sk : SecretKey} {msg : Bytes}
    {sig : Bytes96} :
    verifySignature (publicKeyBytes sk) msg sig = true ↔
      scalarOf sk ≠ 0 ∧ sig = signMessage sk msg := by
  have hmem := h.messagePoint_mem (publicKeyBytes sk) msg
  rw [h.verifySignature_iff, h.signMessage_eq]
  constructor
  · rintro ⟨x, y, hx, hpk, hy, rfl, he⟩
    obtain ⟨hz, rfl⟩ := h.usable_publicKey_iff.mp ⟨hx, hpk⟩
    rw [(h.pairing.pair_nsmul_eq_iff h.generator_usable hy hmem).mp he]
    exact ⟨hz, rfl⟩
  · rintro ⟨hz, rfl⟩
    obtain ⟨hx, hpk⟩ := h.usable_publicKey_iff.mpr ⟨hz, rfl⟩
    have hy := R.G2.nsmul_mem hmem (scalarOf sk)
    exact ⟨_, _, hx, hpk, hy, rfl, (h.pairing.pair_nsmul_eq_iff h.generator_usable hy hmem).mpr rfl⟩

/-- Behind a signature that verifies stands one scalar, which made it and the
key. -/
theorem existsUnique_signer (h : R.Documented) {pk : Bytes48} {msg : Bytes} {sig : Bytes96}
    (hv : verifySignature pk msg sig = true) :
    ∃! n, (n < R.r ∧ n ≠ 0) ∧ R.encode (n • R.generator) = pk ∧
      R.encode2 (n • R.messagePoint pk msg) = sig := by
  obtain ⟨x, y, hx, rfl, hy, rfl, he⟩ := h.verifySignature_iff.mp hv
  obtain ⟨n, hlt, rfl⟩ := exists_nsmul_eq h.primeOrder h.generator_usable hx.1
  have hn : n ≠ 0 := by
    rintro rfl
    exact hx.2 (zero_nsmul _)
  rw [h.pairing.pair_nsmul_eq_iff h.generator_usable hy (h.messagePoint_mem _ _)] at he
  refine ⟨n, ⟨⟨hlt, hn⟩, rfl, by rw [he]⟩, ?_⟩
  rintro m ⟨⟨hm, _⟩, hpk, _⟩
  have hinj := nsmul_injOn_Iio_addOrderOf (x := R.generator)
  rw [h.primeOrder.addOrderOf_eq h.generator_usable] at hinj
  have hmem (k : Nat) : k • R.generator ∈ R.G1 := R.G1.nsmul_mem h.generator_usable.1 k
  exact hinj hm hlt ((h.toDocumented.encode_inj (hmem m) (hmem n)).mp hpk)

/-- A signature passes for another message only if the two are sent to the same
point. -/
theorem verifySignature_signMessage_iff (h : R.Documented) {sk : SecretKey} {msg msg' : Bytes} :
    verifySignature (publicKeyBytes sk) msg' (signMessage sk msg) = true ↔
      scalarOf sk ≠ 0 ∧
        R.messagePoint (publicKeyBytes sk) msg = R.messagePoint (publicKeyBytes sk) msg' := by
  rw [verifySignature_publicKeyBytes_iff h, h.signMessage_eq, h.signMessage_eq]
  refine and_congr_right fun hz => ⟨fun he => ?_, fun he => by rw [he]⟩
  have hx := h.primeOrder.usable_nsmul h.generator_usable hz (h.scalarOf_lt sk)
  have hm := h.messagePoint_mem (publicKeyBytes sk) msg
  have hm' := h.messagePoint_mem (publicKeyBytes sk) msg'
  refine h.pairing.right_inj hx hm hm' ?_
  rw [h.pairing.nsmul_left h.generator_usable.1 hm, h.pairing.nsmul_left h.generator_usable.1 hm',
    ← h.pairing.nsmul_right h.generator_usable.1 hm, ← h.pairing.nsmul_right h.generator_usable.1 hm']
  refine congrArg (R.pair R.generator) (h.encode2_inj _ ?_ _ ?_ he)
  · exact R.G2.nsmul_mem hm _
  · exact R.G2.nsmul_mem hm' _

end Verification

/-- Which 96 bytes verify, for any 48 bytes as a key and any message: none
unless the key passes the check of the DH, and then exactly one string, which is
the signature by the scalar behind the key. -/
theorem verification_is_exact [KeyModelCrates] {E F T : Type} [AddCommGroup E] [AddCommGroup F]
    [AddCommGroup T] {R : SigningReading E F T} (h : R.Documented) :
    (∀ pk msg sig, verifySignature pk msg sig = true → g1SubgroupCheck pk = true) ∧
    (∀ pk msg, g1SubgroupCheck pk = true → ∃! sig, verifySignature pk msg sig = true) ∧
    (∀ sk msg sig, verifySignature (publicKeyBytes sk) msg sig = true ↔
      scalarOf sk ≠ 0 ∧ sig = signMessage sk msg) ∧
    (∀ sk msg msg', verifySignature (publicKeyBytes sk) msg' (signMessage sk msg) = true ↔
      scalarOf sk ≠ 0 ∧
        R.messagePoint (publicKeyBytes sk) msg = R.messagePoint (publicKeyBytes sk) msg') :=
  ⟨fun _ _ _ => check_of_verifySignature h, fun _ msg hc => existsUnique_signature h hc msg,
    fun _ _ _ => verifySignature_publicKeyBytes_iff h, fun _ _ _ => verifySignature_signMessage_iff h⟩

section Sample

open SignatureReference

def identityKey : SecretKey := Fin.ofNat BlsReference.groupOrder identityScalar

/-- The identity key of the golden seed, its signature of the sample message and
the same bytes under the encoding of the zero key. -/
theorem goldenKey_signs :
    g1SubgroupCheck (publicKeyBytes identityKey) = true ∧
      verifySignature (publicKeyBytes identityKey) transcript (signMessage identityKey transcript) =
        true ∧
      (∀ sig, verifySignature (publicKeyBytes identityKey) transcript sig = true →
        sig = sigTable.encode (identityScalar : Nat)) ∧
      ¬verifySignature g1Infinity transcript (signMessage identityKey transcript) = true := by
  obtain ⟨hcheck, _, hexact, _⟩ := verification_is_exact documented
  have hne : scalarOf identityKey ≠ 0 := by
    rw [scalarOf_eq]
    decide
  have hsig : signMessage identityKey transcript = sigTable.encode (identityScalar : Nat) := by
    decide +kernel
  have hv := (hexact identityKey transcript _).mpr ⟨hne, rfl⟩
  refine ⟨hcheck _ _ _ hv, hv, ?_, ?_⟩
  · intro sig hs
    rw [((hexact identityKey transcript sig).mp hs).2, hsig]
  · intro hv
    exact absurd (hcheck _ _ _ hv) (by decide +kernel)

end Sample

end DigIdentity.Signatures
