import DigIdentity.BlsReference

namespace DigIdentity.SealDh

open ByteStrings Bls BlsCrates PrimeOrderGroups BlsReadings

section Calls

variable [BlsCrates] {E : Type} [AddCommGroup E] {R : Reading E}

theorem g1Dh_isSome_iff (h : R.Documented) (sk : SecretKey) (bytes : Bytes48) :
    (g1Dh sk bytes).isSome = true ↔ g1SubgroupCheck bytes = true ∧ scalarOf sk ≠ 0 := by
  rw [h.g1Dh_eq, h.check_iff, Option.isSome_map, Option.isSome_iff_exists]
  simp only [Option.bind_eq_some_iff, act_eq_some_iff]
  constructor
  · rintro ⟨_, x, hd, ⟨hx, hz⟩, _⟩
    exact ⟨⟨x, hd, hx⟩, hz⟩
  · rintro ⟨⟨x, hd, hx⟩, hz⟩
    exact ⟨_, x, hd, ⟨hx, hz⟩, rfl⟩

theorem check_of_g1Dh (h : R.Documented) {sk : SecretKey} {bytes result : Bytes48}
    (hr : g1Dh sk bytes = some result) : g1SubgroupCheck result = true := by
  rw [h.g1Dh_eq, Option.map_eq_some_iff] at hr
  obtain ⟨y, hy, rfl⟩ := hr
  obtain ⟨x, _, hact⟩ := Option.bind_eq_some_iff.mp hy
  have husable := h.primeOrder.usable_act (h.scalarOf_lt sk) hact
  exact (h.check_encode_iff husable.1).mpr husable.2

/-- Two calls of the DH in a row are two actions in a row: the encoding in
between changes nothing. -/
theorem g1Dh_g1Dh (h : R.Documented) (a b : SecretKey) (bytes : Bytes48) :
    (g1Dh a bytes).bind (g1Dh b) =
      ((R.decode bytes).bind fun x =>
        (act R.G1 (scalarOf a) x).bind (act R.G1 (scalarOf b))).map R.encode := by
  rw [h.g1Dh_eq a bytes]
  cases R.decode bytes with
  | none => rfl
  | some x =>
      cases hact : act R.G1 (scalarOf a) x with
      | none => simp [hact]
      | some y =>
          have husable := h.primeOrder.usable_act (h.scalarOf_lt a) hact
          simp [hact, h.g1Dh_encode b husable.1]

theorem g1Dh_comm (h : R.Documented) (a b : SecretKey) (bytes : Bytes48) :
    (g1Dh a bytes).bind (g1Dh b) = (g1Dh b bytes).bind (g1Dh a) := by
  rw [g1Dh_g1Dh h, g1Dh_g1Dh h]
  simp only [h.primeOrder.act_comm (h.scalarOf_lt a) (h.scalarOf_lt b)]

/-- The point of a public key. -/
theorem publicPoint_mem (h : R.Documented) (sk : SecretKey) : scalarOf sk • R.generator ∈ R.G1 :=
  R.G1.nsmul_mem h.generator_usable.1 _

theorem g1Dh_publicKeyBytes_eq (h : R.Documented) (a b : SecretKey) :
    g1Dh a (publicKeyBytes b) = (act R.G1 (scalarOf a) (scalarOf b • R.generator)).map R.encode := by
  rw [publicKeyBytes, h.publicKey_eq, h.g1Dh_encode a (publicPoint_mem h b)]

theorem g1Dh_publicKeyBytes (h : R.Documented) (a b : SecretKey) :
    g1Dh a (publicKeyBytes b) = g1Dh b (publicKeyBytes a) := by
  rw [g1Dh_publicKeyBytes_eq h, g1Dh_publicKeyBytes_eq h,
    h.primeOrder.agreement h.generator_usable.1 (h.scalarOf_lt a) (h.scalarOf_lt b)]

theorem check_publicKeyBytes_iff (h : R.Documented) (sk : SecretKey) :
    g1SubgroupCheck (publicKeyBytes sk) = true ↔ scalarOf sk ≠ 0 := by
  rw [publicKeyBytes, h.publicKey_eq, h.check_encode_iff (publicPoint_mem h sk)]
  constructor
  · intro hne hz
    exact hne (by rw [hz, zero_nsmul])
  · intro hz
    exact (h.primeOrder.usable_nsmul h.generator_usable hz (h.scalarOf_lt sk)).2

/-- Two parties, or one with itself, reach a shared point unless one of them has
the zero key. -/
theorem agreement_isSome_iff (h : R.Documented) (a b : SecretKey) :
    (g1Dh a (publicKeyBytes b)).isSome = true ↔ scalarOf a ≠ 0 ∧ scalarOf b ≠ 0 := by
  rw [g1Dh_isSome_iff h, check_publicKeyBytes_iff h, and_comm]

theorem publicKeyBytes_inj (h : R.Documented) {a b : SecretKey}
    (he : publicKeyBytes a = publicKeyBytes b) : scalarOf a = scalarOf b := by
  rw [publicKeyBytes, publicKeyBytes, h.publicKey_eq, h.publicKey_eq,
    h.encode_inj (publicPoint_mem h a) (publicPoint_mem h b)] at he
  have hinj := nsmul_injOn_Iio_addOrderOf (x := R.generator)
  rw [h.primeOrder.addOrderOf_eq h.generator_usable] at hinj
  exact hinj (h.scalarOf_lt a) (h.scalarOf_lt b) he

theorem act_eq_of_encode_eq (h : R.Documented) {sk : SecretKey} {x y : E}
    (he : (act R.G1 (scalarOf sk) x).map R.encode = (act R.G1 (scalarOf sk) y).map R.encode) :
    act R.G1 (scalarOf sk) x = act R.G1 (scalarOf sk) y := by
  cases hx : act R.G1 (scalarOf sk) x with
  | none =>
      rw [hx, Option.map_none, eq_comm, Option.map_eq_none_iff] at he
      exact he.symm
  | some u =>
      rw [hx, Option.map_some, eq_comm, Option.map_eq_some_iff] at he
      obtain ⟨v, hy, hv⟩ := he
      have hu := (h.primeOrder.usable_act (h.scalarOf_lt sk) hx).1
      have hv' := (h.primeOrder.usable_act (h.scalarOf_lt sk) hy).1
      rw [hy, (h.encode_inj hv' hu).mp hv]

/-- The secret that a sender shares with a public key tells the key: the holder
of another key reaches another secret or none. -/
theorem shared_secret_inj (h : R.Documented) {sender a b : SecretKey} (hs : scalarOf sender ≠ 0)
    (he : g1Dh sender (publicKeyBytes a) = g1Dh sender (publicKeyBytes b)) :
    scalarOf a = scalarOf b := by
  rw [g1Dh_publicKeyBytes_eq h, g1Dh_publicKeyBytes_eq h] at he
  have hact := act_eq_of_encode_eq h he
  exact h.primeOrder.act_nsmul_inj h.generator_usable hs (h.scalarOf_lt sender) (h.scalarOf_lt a)
    (h.scalarOf_lt b) hact

end Calls

/-- The seal DH fails exactly on the bytes the check refuses and on the zero
scalar; its results pass the check, and it commutes, between any two keys on any
bytes and between two parties on each other's public key. -/
theorem seal_dh_is_commuting_action [BlsCrates] {E : Type} [AddCommGroup E] {R : Reading E}
    (h : R.Documented) :
    (∀ (a : SecretKey) (P : Bytes48),
      (g1Dh a P).isSome = true ↔ g1SubgroupCheck P = true ∧ scalarOf a ≠ 0) ∧
    (∀ (a : SecretKey) (P Q : Bytes48), g1Dh a P = some Q → g1SubgroupCheck Q = true) ∧
    (∀ (a b : SecretKey) (P : Bytes48),
      (g1Dh a P).bind (g1Dh b) = (g1Dh b P).bind (g1Dh a)) ∧
    (∀ a b : SecretKey, g1Dh a (publicKeyBytes b) = g1Dh b (publicKeyBytes a)) :=
  ⟨g1Dh_isSome_iff h, fun _ _ _ => check_of_g1Dh h, g1Dh_comm h, g1Dh_publicKeyBytes h⟩

section Sample

open BlsReference

def six : Bytes48 :=
  bytes48 0xa6e82f6da4520f85c5d27d8f329eccfa05944fd1096b20734c894966d12a9e2a9a9744529d7212d33883113a0cadb909

theorem dh_two_three : g1Dh (secretKey 2) (publicKeyBytes (secretKey 3)) = some six := by
  decide +kernel

/-- Keys 2 and 3 agree on six times the generator. The zero key and a point of
order three get nothing. -/
theorem sampleKeys_agree :
    g1Dh (secretKey 3) (publicKeyBytes (secretKey 2)) = some six ∧ g1SubgroupCheck six = true ∧
      (g1Dh (secretKey 2) six).bind (g1Dh (secretKey 3)) =
        (g1Dh (secretKey 3) six).bind (g1Dh (secretKey 2)) ∧
      ¬(g1Dh (secretKey 0) six).isSome = true ∧
      ¬(g1Dh (secretKey 2) (encode (0, 1))).isSome = true := by
  obtain ⟨hsome, hclosed, hcomm, hagree⟩ := seal_dh_is_commuting_action documented
  have hsix : g1Dh (secretKey 3) (publicKeyBytes (secretKey 2)) = some six :=
    (hagree _ _).trans dh_two_three
  refine ⟨hsix, hclosed _ _ _ hsix, hcomm _ _ _, ?_, ?_⟩
  · rw [hsome]
    rintro ⟨_, hz⟩
    exact hz (scalarOf_eq 0)
  · rw [hsome]
    rintro ⟨hcheck, _⟩
    exact absurd hcheck (by decide +kernel)

end Sample

end DigIdentity.SealDh
