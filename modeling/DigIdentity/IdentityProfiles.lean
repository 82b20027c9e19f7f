import DigIdentity.Pairings
import DigIdentity.Profiles

namespace DigIdentity.IdentityProfiles

open ByteStrings Fallible Hashing Errors Slots Values Trees Profiles Addresses Dids Pairings

variable [AddressCodec]

/-- A DID, its store and the store's profile. `root` is the committed root;
edits of `metadata` stay pending until they are committed. -/
@[ext] structure IdentityProfile where
  singleton : IdentitySingleton
  store : StoreRecord
  metadata : Profile
  root : Digest32
  paired : storeBelongsToDid store singleton = true
deriving DecidableEq

namespace IdentityProfile

def storeBelongs (p : IdentityProfile) : Bool := storeBelongsToDid p.store p.singleton

def did (p : IdentityProfile) : Did := p.singleton.did

def keys (p : IdentityProfile) : DidKeys := p.metadata.resolveKeys

def xchAddress (p : IdentityProfile) : Option String := p.metadata.xchAddress

def displayName (p : IdentityProfile) : Option String := p.metadata.displayName

def mintFromDid (_didCoin : Coin) (_ownerPuzzleHash : Bytes32) (_seedMetadata : Profile) :
    Except Error IdentityProfile := .error .mintNotYetImplemented

variable [Sha2] [SmtCrate]

def resolve (singleton : IdentitySingleton) (store : StoreRecord) (metadata : Profile) :
    Except Error IdentityProfile :=
  if h : storeBelongsToDid store singleton = true then do
    let root ← metadata.buildRoot
    return ⟨singleton, store, metadata, root, h⟩
  else .error .notAuthoritativeProfile

/-- The edit is kept whether or not the pending root can be computed. -/
def set (p : IdentityProfile) (slot : SlotId) (value : Value) : Except Error Digest32 × IdentityProfile :=
  let edited := { p with metadata := p.metadata.set slot value }
  (edited.metadata.buildRoot, edited)

def commitRoot (p : IdentityProfile) : Except Error Digest32 × IdentityProfile :=
  match p.metadata.buildRoot with
  | .ok root => (.ok root, { p with root })
  | .error e => (.error e, p)

def proveField (p : IdentityProfile) (slot : SlotId) : Except Error ProfileProof := do
  (← p.metadata.buildTree).proveMembership slot

def proveFieldAbsent (p : IdentityProfile) (slot : SlotId) : Except Error ProfileProof := do
  (← p.metadata.buildTree).proveNonMembership slot

theorem commitRoot_of_ok {p : IdentityProfile} {root : Digest32} (h : p.metadata.buildRoot = .ok root) :
    p.commitRoot = (.ok root, { p with root }) := by
  rw [commitRoot, h]

/-- With nothing pending a commit changes nothing. -/
theorem commitRoot_of_committed {p : IdentityProfile} (h : p.metadata.buildRoot = .ok p.root) :
    p.commitRoot = (.ok p.root, p) :=
  commitRoot_of_ok h

theorem commitRoot_of_error {p : IdentityProfile} {e : Error} (h : p.metadata.buildRoot = .error e) :
    p.commitRoot = (.error e, p) := by
  rw [commitRoot, h]

theorem proveField_of_buildTree {p : IdentityProfile} {tree : ProfileTree}
    (h : p.metadata.buildTree = .ok tree) (slot : SlotId) :
    p.proveField slot = tree.proveMembership slot := by
  rw [proveField, h, ok_bind]

theorem proveFieldAbsent_of_buildTree {p : IdentityProfile} {tree : ProfileTree}
    (h : p.metadata.buildTree = .ok tree) (slot : SlotId) :
    p.proveFieldAbsent slot = tree.proveNonMembership slot := by
  rw [proveFieldAbsent, h, ok_bind]

end IdentityProfile

theorem resolve_eq_ok_iff [Sha2] [SmtCrate] {singleton : IdentitySingleton} {store : StoreRecord}
    {metadata : Profile} {p : IdentityProfile} :
    IdentityProfile.resolve singleton store metadata = .ok p ↔
      p.singleton = singleton ∧ p.store = store ∧ p.metadata = metadata ∧
        metadata.buildRoot = .ok p.root := by
  unfold IdentityProfile.resolve
  obtain ⟨singleton', store', metadata', root', paired⟩ := p
  by_cases h : storeBelongsToDid store singleton = true
  · cases hr : metadata.buildRoot with
    | error e => simp [h]
    | ok root =>
        simp [h, eq_comm]
  · rw [dif_neg h]
    constructor
    · intro he
      exact nomatch he
    · rintro ⟨rfl, rfl, _⟩
      exact absurd paired h

end DigIdentity.IdentityProfiles
