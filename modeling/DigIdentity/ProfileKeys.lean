import DigIdentity.KeyTrees
import DigIdentity.SealDh
import DigIdentity.Signatures

namespace DigIdentity.ProfileKeys

open ByteStrings Bls BlsCrates BlsKeys KeyModelCrates KeyTrees BlsReadings SealDh

/-- The path of one profile. -/
def profilePath (profileIx : UInt32) : List UInt32 := identityPathPrefix ++ [profileIx]

theorem profilePath_zero : profilePath 0 = identityDerivationPath := rfl

section Derivation

variable [KeyModelCrates]

theorem deriveIdentitySkAt_eq (master : SecretKey) (profileIx : UInt32) :
    deriveIdentitySkAt master profileIx = node deriveHardened master (profilePath profileIx) := by
  rw [profilePath, node_snoc]
  rfl

/-- The fixed path is that of the default profile. -/
theorem deriveIdentitySk_eq (master : SecretKey) :
    deriveIdentitySk master = node deriveHardened master identityDerivationPath := by
  rw [deriveIdentitySk, deriveIdentitySkAt_eq, profilePath_zero]

/-- The steps of a wallet along a path and of another to one of its profiles. -/
def walked (master master' : SecretKey) (path : List UInt32) (profileIx : UInt32) :
    List (SecretKey × UInt32) :=
  edges deriveHardened master path ++ edges deriveHardened master' (profilePath profileIx)

theorem scalarOf_profile_inj {master master' : SecretKey} {path : List UInt32} {profileIx : UInt32}
    (hlen : path.length = identityDerivationPath.length)
    (h : NoCollision deriveHardened scalarOf (walked master master' path profileIx))
    (he : scalarOf (node deriveHardened master path) = scalarOf (deriveIdentitySkAt master' profileIx)) :
    master = master' ∧ path = profilePath profileIx := by
  rw [deriveIdentitySkAt_eq] at he
  refine label_node_inj ?_ hlen h he
  rintro rfl
  exact nomatch hlen

end Derivation

/-- The key of a profile is the key of no other path as long as its own, in no
wallet: not of another profile and not of the coins. The keys' public forms and
the secrets that any sender shares with them are as distinct as the paths. -/
theorem identity_keys_are_separate [KeyModelCrates] {P : Type} [AddCommGroup P] {R : Reading P}
    (hR : R.Documented) {seed seed' : Bytes} {master master' : SecretKey}
    (hm : masterSecretKeyFromSeed seed = some master)
    (hm' : masterSecretKeyFromSeed seed' = some master') {path : List UInt32} {profileIx : UInt32}
    (hlen : path.length = identityDerivationPath.length)
    (hseeds : Set.InjOn masterSecretKeyFromSeed {seed, seed'})
    (hsteps : NoCollision deriveHardened scalarOf (walked master master' path profileIx)) :
    let key := node deriveHardened master path
    let identity := deriveIdentitySkAt master' profileIx
    (publicKeyBytes key = publicKeyBytes identity ↔ seed = seed' ∧ path = profilePath profileIx) ∧
      ∀ sender, scalarOf sender ≠ 0 →
        (g1Dh sender (publicKeyBytes key) = g1Dh sender (publicKeyBytes identity) ↔
          seed = seed' ∧ path = profilePath profileIx) := by
  intro key identity
  have hsame (h : seed = seed' ∧ path = profilePath profileIx) : key = identity := by
    obtain ⟨rfl, rfl⟩ := h
    rw [hm, Option.some.injEq] at hm'
    subst hm'
    exact (deriveIdentitySkAt_eq master profileIx).symm
  have htell (h : scalarOf key = scalarOf identity) : seed = seed' ∧ path = profilePath profileIx := by
    obtain ⟨hmaster, hpath⟩ := scalarOf_profile_inj hlen hsteps h
    refine ⟨hseeds (Set.mem_insert _ _) (Set.mem_insert_of_mem _ rfl) ?_, hpath⟩
    rw [hm, hm', hmaster]
  constructor
  · exact ⟨fun h => htell (publicKeyBytes_inj hR h), fun h => congrArg publicKeyBytes (hsame h)⟩
  · intro sender hs
    exact ⟨fun h => htell (shared_secret_inj hR hs h), fun h => by rw [hsame h]⟩

section Sample

open SignatureReference

def goldenMaster : SecretKey := Fin.ofNat BlsReference.groupOrder masterScalar

/-- The path of a key for coins. -/
def coinPath : List UInt32 := [12381, 8444, 2, 0]

theorem walked_golden {path : List UInt32} (h : path = coinPath ∨ path = profilePath 1) :
    NoCollision deriveHardened scalarOf (walked goldenMaster goldenMaster path 0) := by
  have hall : ∀ path ∈ [coinPath, profilePath 1],
      ∀ e ∈ walked goldenMaster goldenMaster path 0, ∀ f ∈ walked goldenMaster goldenMaster path 0,
        scalarOf (deriveHardened e.1 e.2) = scalarOf (deriveHardened f.1 f.2) → e = f := by
    decide +kernel
  intro e he f hf
  exact hall path (by simpa using h) e he f hf

/-- The wallet of the golden seed: its default profile has neither the key of
its coins nor that of its second profile. -/
theorem goldenKeys_separate :
    publicKeyBytes (node deriveHardened goldenMaster coinPath) ≠
        publicKeyBytes (deriveIdentitySkAt goldenMaster 0) ∧
      g1Dh goldenMaster (publicKeyBytes (node deriveHardened goldenMaster (profilePath 1))) ≠
        g1Dh goldenMaster (publicKeyBytes (deriveIdentitySkAt goldenMaster 0)) := by
  have hm : masterSecretKeyFromSeed goldenSeed = some goldenMaster := by decide +kernel
  have hseeds : Set.InjOn masterSecretKeyFromSeed {goldenSeed, goldenSeed} := by simp
  have hlen : coinPath.length = identityDerivationPath.length := rfl
  have hlen' : (profilePath 1).length = identityDerivationPath.length := rfl
  obtain ⟨hcoin, _⟩ := identity_keys_are_separate documented.toDocumented hm hm hlen hseeds
    (walked_golden (.inl rfl))
  obtain ⟨_, hsecond⟩ := identity_keys_are_separate documented.toDocumented hm hm hlen' hseeds
    (walked_golden (.inr rfl))
  constructor
  · intro he
    exact absurd (hcoin.mp he).2 (by decide)
  · intro he
    refine absurd ((hsecond goldenMaster ?_).mp he).2 (by decide)
    rw [scalarOf_eq]
    decide

end Sample

end DigIdentity.ProfileKeys
