import DigIdentity.Dids

namespace DigIdentity.Pairings

open ByteStrings Dids Addresses

structure Coin where
  parentCoinInfo : Bytes32
  puzzleHash : Bytes32
  amount : UInt64
deriving DecidableEq

structure StoreRecord where
  description : String
  launcherCoin : Coin
deriving DecidableEq

/-- A singleton's coin ids, from the launcher to the unspent tip. -/
structure SingletonLineage where
  tip : Bytes32
  members : Finset Bytes32
  tip_mem : tip ∈ members
deriving DecidableEq

namespace SingletonLineage

def new (tip : Bytes32) (members : List Bytes32) : SingletonLineage :=
  ⟨tip, insert tip members.toFinset, Finset.mem_insert_self ..⟩

def single (tip : Bytes32) : SingletonLineage := new tip [tip]

def contains (lineage : SingletonLineage) (coinId : Bytes32) : Bool := coinId ∈ lineage.members

end SingletonLineage

structure PairingOutcome where
  discoveryMatches : Bool
  authorityMatches : Bool
deriving DecidableEq

def PairingOutcome.isAuthoritative (outcome : PairingOutcome) : Bool :=
  outcome.discoveryMatches && outcome.authorityMatches

variable [AddressCodec]

@[ext] structure IdentitySingleton where
  did : Did
  lineage : SingletonLineage
deriving DecidableEq

def IdentitySingleton.coinId (singleton : IdentitySingleton) : Bytes32 := singleton.lineage.tip

def evaluatePairing (store : StoreRecord) (singleton : IdentitySingleton) : PairingOutcome where
  discoveryMatches := (parseDidFromDescription store.description).any (· == singleton.did)
  authorityMatches := singleton.lineage.contains store.launcherCoin.parentCoinInfo

def isAuthoritativeProfile (store : StoreRecord) (singleton : IdentitySingleton) : Bool :=
  (evaluatePairing store singleton).isAuthoritative

def storeBelongsToDid (store : StoreRecord) (singleton : IdentitySingleton) : Bool :=
  isAuthoritativeProfile store singleton

structure StoreOwnershipProof where
  singleton : IdentitySingleton
  store : StoreRecord
deriving DecidableEq

def StoreOwnershipProof.outcome (proof : StoreOwnershipProof) : PairingOutcome :=
  evaluatePairing proof.store proof.singleton

def StoreOwnershipProof.verify (proof : StoreOwnershipProof) : Bool :=
  storeBelongsToDid proof.store proof.singleton

theorem discovery_iff (store : StoreRecord) (singleton : IdentitySingleton) :
    (evaluatePairing store singleton).discoveryMatches = true ↔
      trim store.description = singleton.did.text := by
  rw [← parse_eq_some_iff]
  simp [evaluatePairing, Option.any_eq_true]

omit [AddressCodec] in
theorem contains_new_iff (tip coinId : Bytes32) (members : List Bytes32) :
    (SingletonLineage.new tip members).contains coinId = true ↔ coinId = tip ∨ coinId ∈ members := by
  simp [SingletonLineage.contains, SingletonLineage.new]

/-- A store is authoritative when its trimmed description is the text of the
DID and its launcher was spent from a coin of the lineage. -/
theorem authoritative_iff (store : StoreRecord) (singleton : IdentitySingleton) :
    isAuthoritativeProfile store singleton = true ↔
      trim store.description = singleton.did.text ∧
        singleton.lineage.contains store.launcherCoin.parentCoinInfo = true := by
  rw [isAuthoritativeProfile, PairingOutcome.isAuthoritative, Bool.and_eq_true, discovery_iff]
  rfl

end DigIdentity.Pairings
