import DigIdentity.Bech32m
import DigIdentity.MerkleCrate
import DigIdentity.Resolvers
import DigIdentity.ShaDigest
import DigIdentity.TreeRefinement

namespace DigIdentity.References

open ByteStrings TreeCrate LeafPrograms Hashing Errors Slots Values Trees Profiles TreeRefinement
  Addresses Dids Pairings IdentityProfiles UniqueMatch Resolvers SparseMerkle MerkleProgram MerkleCrate

scoped instance sha2 : Sha2 := ⟨ShaDigest.shaDigest⟩

def decodeAddress (s : String) : Except String Address :=
  match Bech32m.decode s with
  | none => .error "invalid bech32m"
  | some (hrp, payload) =>
      if h : payload.length = 32 then .ok ⟨⟨payload.toArray, by simp [h]⟩, hrp⟩
      else .error "wrong payload length"

scoped instance codec : AddressCodec := ⟨String, decodeAddress⟩

theorem decodeAddress_trimmed {s : String} {address : Address} (h : decodeAddress s = .ok address) :
    trim s = s := by
  refine trim_of_no_whiteSpace fun c hc => ?_
  have hp : Bech32m.printable c = true := by
    cases hd : Bech32m.decode s with
    | none => simp [decodeAddress, hd] at h
    | some r => exact Bech32m.printable_of_decode hd c hc
  simp only [Bech32m.printable, Bool.and_eq_true, decide_eq_true_eq] at hp
  simp only [whiteSpace, Bool.or_eq_false_iff, Bool.and_eq_false_iff, decide_eq_false_iff_not,
    beq_eq_false_iff_ne]
  omega

abbrev merkle : SparseMerkleTree Sha256Hasher LeafValue := merkleCrate Sha256Hasher LeafValue

/-- The executable crate, whose verifier also refuses the false claims about one
of the registered trees that bytes such as `forgedAbsence` make it accept. -/
@[reducible] def crateOf (registered : List merkle.Tree) : SmtCrate := ⟨merkle.guarded registered⟩

theorem documented (registered : List merkle.Tree) : (crateOf registered).crate.Documented :=
  (merkleCrate_documented Sha256Hasher LeafValue toH256_zero).guarded registered

theorem interprets (registered : List merkle.Tree) : Interprets (crateOf registered).crate :=
  (merkleCrate_interprets Sha256Hasher LeafValue).guarded registered

theorem complete {registered : List merkle.Tree} {t : merkle.Tree}
    (hb : ∀ u ∈ registered, merkle.Binding u t) : (crateOf registered).crate.Complete t :=
  SparseMerkleTree.complete_guarded (merkleCrate_complete Sha256Hasher LeafValue toH256_zero t) hb

/-- The tree a history builds; no update of the executable crate fails. -/
def built (ops : List TreeOp) : LeafMap LeafValue :=
  ops.foldl (fun t op => t.update op.write.1.key ⟨op.write.1.key, op.write.2⟩) LeafMap.new

theorem run_built (registered : List merkle.Tree) (ops : List TreeOp) :
    letI := crateOf registered
    run ops = .ok ⟨built ops⟩ := by
  let _ := crateOf registered
  induction ops using List.reverseRecOn with
  | nil => rfl
  | append_singleton ops op ih =>
      have hb : built (ops ++ [op]) =
          (built ops).update op.write.1.key ⟨op.write.1.key, op.write.2⟩ := by
        simp [built]
      have hop : op.apply ⟨built ops⟩ = .ok ⟨built (ops ++ [op])⟩ := by
        rw [hb]
        cases op <;> rfl
      exact run_snoc.mpr ⟨_, ih, hop⟩

theorem registered (ops : List TreeOp) :
    letI := crateOf [built ops]
    let tree : ProfileTree := ⟨built ops⟩
    run ops = .ok tree ∧ crate.Complete tree.smt ∧ crate.Sound tree.smt :=
  ⟨run_built _ ops, complete fun u hu _ key => by rw [List.mem_singleton.mp hu],
    SparseMerkleTree.sound_guarded (List.mem_singleton.mpr rfl)⟩

def sampleOps : List TreeOp :=
  [.setEncoded standard.bio [0xFF], .set standard.displayName (.utf8 "Bob"), .remove standard.bio,
    .set standard.displayName (.utf8 "Ada")]

/-- A proof for the zero leaf whose sibling is a node that only lacks the one
empty sibling which the merge with the zero leaf then adds. -/
def forgedAbsence : Bytes :=
  let digest := hashLeafValue standard.displayName.key (Value.utf8 "Ada").encode
  let baseNode := hashBaseNode Sha256Hasher 0 (parentPath 0 (keyNat standard.displayName.key)) digest
  0x4C :: [Op.sibling (.mergeWithZero baseNode 1 0), .zeros 255].flatMap Op.encode

/-- The verifier by itself is not sound: it lets such bytes prove absent what the
tree holds. -/
theorem merkle_not_sound : ¬merkle.Sound (built sampleOps) := by
  intro h
  have hforged : verify Sha256Hasher forgedAbsence (merkle.root (built sampleOps))
      [(standard.displayName.key, zero32)] = .ok true := by
    decide +kernel
  have hleaf : SmtValue.toH256 ((built sampleOps).get standard.displayName.key) = zero32 :=
    Except.ok.inj (h _ _ _ hforged)
  exact absurd hleaf (by decide +kernel)

def sampleProfile : Profile := Profile.new.set standard.displayName (.utf8 "Ada")

def publishedProfile : Profile :=
  (sampleProfile.set standard.schemaVersion (.u16 2)).set standard.blsG1PublicKey
    (.bytes (List.replicate 48 7))

def rootOf (p : Profile) : Digest32 :=
  letI := crateOf []
  ProfileTree.root ⟨built (profileOps p)⟩

theorem buildTree_built (registered : List merkle.Tree) (p : Profile) :
    letI := crateOf registered
    p.buildTree = .ok ⟨built (profileOps p)⟩ := by
  let _ := crateOf registered
  exact (buildTree_eq_run p).trans (run_built registered _)

theorem buildRoot_rootOf (registered : List merkle.Tree) (p : Profile) :
    letI := crateOf registered
    p.buildRoot = .ok (rootOf p) := by
  let _ := crateOf registered
  exact Profile.buildRoot_eq_ok.mpr ⟨_, buildTree_built registered p, rfl⟩

theorem complete_profile (p : Profile) :
    letI := crateOf []
    ∀ tree, p.buildTree = .ok tree → crate.Complete tree.smt := by
  let _ := crateOf []
  intro tree ht
  cases (buildTree_built _ p).symm.trans ht
  exact complete nofun

theorem registered_profile (p : Profile) :
    letI := crateOf [built (profileOps p)]
    ∀ tree, p.buildTree = .ok tree → crate.Complete tree.smt ∧ crate.Sound tree.smt := by
  let _ := crateOf [built (profileOps p)]
  intro tree ht
  cases (buildTree_built _ p).symm.trans ht
  exact (registered (profileOps p)).2

def coinId (n : UInt8) : Bytes32 := Vector.replicate 32 n

def didText : String := "did:chia:19g4z52329g4z52329g4z52329g4z52329g4z52329g4z52329g4qujx6pd"

def didUpper : String := "DID:CHIA:19G4Z52329G4Z52329G4Z52329G4Z52329G4Z52329G4Z52329G4QUJX6PD"

theorem didText_decodes : Decodes didText (coinId 42) := by
  change decodeAddress didText = .ok ⟨coinId 42, didChiaPrefix⟩
  decide +kernel

theorem didUpper_decodes : Decodes didUpper (coinId 42) := by
  change decodeAddress didUpper = .ok ⟨coinId 42, didChiaPrefix⟩
  decide +kernel

def sampleDid : Did := ⟨didText, coinId 42, by decide +kernel, didText_decodes⟩

def upperDid : Did := ⟨didUpper, coinId 42, by decide +kernel, didUpper_decodes⟩

theorem parse_didText : Did.parse didText = some sampleDid :=
  (parse_eq_some_iff didText sampleDid).mpr sampleDid.trimmed

theorem parse_didUpper : Did.parse didUpper = some upperDid :=
  (parse_eq_some_iff didUpper upperDid).mpr upperDid.trimmed

def storeAt (description : String) (parent : Bytes32) : StoreRecord :=
  ⟨description, ⟨parent, coinId 9, 1⟩⟩

def sampleLineage : SingletonLineage := SingletonLineage.new (coinId 2) [coinId 1]

def sampleCandidates (p : Profile) : List ChainStoreState :=
  [⟨storeAt didText (coinId 66), coinId 0⟩, ⟨storeAt didText (coinId 1), rootOf p⟩]

/-- A chain where `p` is published, and whose scan also returns a store that no
coin of the DID launched. -/
def sampleSource (p : Profile) (body : StoreRecord → Bytes32 → Except String Profile) :
    ChainSource String where
  resolveSingletonLineage launcherId :=
    .ok (if launcherId = coinId 42 then some sampleLineage else none)
  findStoresForDid _ := .ok (sampleCandidates p)
  fetchProfile := body

def sampleIdentity (p : Profile) : IdentityProfile where
  singleton := ⟨sampleDid, sampleLineage⟩
  store := storeAt didText (coinId 1)
  metadata := p
  root := rootOf p
  paired := (authoritative_iff _ _).mpr ⟨sampleDid.trimmed, by decide +kernel⟩

theorem resolve_sampleIdentity (p : Profile) :
    letI := crateOf []
    IdentityProfile.resolve ⟨sampleDid, sampleLineage⟩ (storeAt didText (coinId 1)) p =
      .ok (sampleIdentity p) := by
  let _ := crateOf []
  exact resolve_eq_ok_iff.mpr ⟨rfl, rfl, rfl, buildRoot_rootOf [] p⟩

theorem spoof_rejected :
    authenticate ⟨sampleDid, sampleLineage⟩ ⟨storeAt didText (coinId 66), coinId 0⟩ = false := by
  decide +kernel

theorem resolve_sampleSource (registered : List merkle.Tree) (p : Profile)
    (body : StoreRecord → Bytes32 → Except String Profile)
    (hb : body (storeAt didText (coinId 1)) (rootOf p) = .ok p) :
    letI := crateOf registered
    resolveIdentityProfile didText (sampleSource p body) = .ok (sampleIdentity p) := by
  let _ := crateOf registered
  refine resolveIdentityProfile_eq_ok_iff.mpr
    ⟨?_, rfl, sampleCandidates p, rfl, ?_, hb, buildRoot_rootOf registered p⟩
  · exact parse_didText
  · rw [select_only_iff]
    refine ⟨(sampleIdentity p).paired, [⟨storeAt didText (coinId 66), coinId 0⟩], [], rfl, ?_⟩
    change ∀ b ∈ _, authenticate ⟨sampleDid, sampleLineage⟩ b = false
    simpa using spoof_rejected

end DigIdentity.References
