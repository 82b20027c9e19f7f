import DigIdentity.ByteStrings
import DigIdentity.Fallible

namespace DigIdentity.TreeCrate

open ByteStrings Fallible

abbrev H256 := Bytes32

class Hasher (H : Type) where
  default : H
  writeH256 : H → H256 → H
  writeByte : H → UInt8 → H
  finish : H → H256

class SmtValue (V : Type) where
  toH256 : V → H256
  zero : V

/-- The operations of a sparse merkle tree crate over a hasher and a leaf type.
`Tree` holds the trees that `new` and successful updates build. -/
structure SparseMerkleTree (H V : Type) [Hasher H] [SmtValue V] where
  Tree : Type
  MerkleProof : Type
  Error : Type
  describe : Error → String
  new : Tree
  update : Tree → H256 → V → Except Error Tree
  get : Tree → H256 → Except Error V
  root : Tree → H256
  merkleProof : Tree → List H256 → Except Error MerkleProof
  compile : MerkleProof → List H256 → Except Error Bytes
  verify : Bytes → H256 → List (H256 × H256) → Except Error Bool

namespace SparseMerkleTree

variable {H V : Type} [Hasher H] [SmtValue V] (c : SparseMerkleTree H V)

/-- The digest a tree commits to at a key; zero where it holds no leaf. -/
def leaf (t : c.Tree) (key : H256) : Except c.Error H256 := (c.get t key).map SmtValue.toH256

/-- What the crate documents of every tree, without any appeal to the hash. -/
structure Documented : Prop where
  get_new (key : H256) : c.get c.new key = .ok SmtValue.zero
  get_update {t t' : c.Tree} {key : H256} {v : V} (h : c.update t key v = .ok t') (k : H256) :
    c.get t' k =
      if k = key then .ok (if SmtValue.toH256 v = zero32 then SmtValue.zero else v) else c.get t k
  root_new : c.root c.new = zero32
  root_congr {t u : c.Tree} (h : ∀ key, c.leaf t key = c.leaf u key) : c.root t = c.root u

/-- Every leaf of `t`, the zero leaves included, has a compiled proof, and that
proof reconstructs the root of `t` from the leaf's digest. -/
def Complete (t : c.Tree) : Prop :=
  ∀ key digest, c.leaf t key = .ok digest → ∃ merkle proof,
    c.merkleProof t [key] = .ok merkle ∧ c.compile merkle [key] = .ok proof ∧
      ∀ root, c.verify proof root [(key, digest)] = .ok (decide (root = c.root t))

/-- No bytes whatsoever are accepted, against the root of `t`, for a digest
other than the one `t` holds at the key. -/
def Sound (t : c.Tree) : Prop :=
  ∀ proof key digest, c.verify proof (c.root t) [(key, digest)] = .ok true →
    c.leaf t key = .ok digest

def Binding (t u : c.Tree) : Prop :=
  c.root t = c.root u → ∀ key, c.leaf t key = c.leaf u key

section Guarded

/-- Whether a claim is true of every registered tree with the given root. -/
def agrees (registered : List c.Tree) (root : H256) (leaves : List (H256 × H256)) : Bool :=
  registered.all fun t => c.root t ≠ root || leaves.all fun e =>
    match c.leaf t e.1 with
    | .ok digest => digest = e.2
    | .error _ => false

/-- The crate with a verifier that rejects besides whatever is false of one of
the registered trees. It stands for a crate that is sound there: of a crate whose
verifier accepts bytes for a false claim, these are left out. -/
def guarded (registered : List c.Tree) : SparseMerkleTree H V :=
  { c with
    verify := fun proof root leaves =>
      (c.verify proof root leaves).map fun accepted => accepted && c.agrees registered root leaves }

variable {c}

theorem Documented.guarded (hd : c.Documented) (registered : List c.Tree) :
    (c.guarded registered).Documented :=
  ⟨hd.get_new, hd.get_update, hd.root_new, hd.root_congr⟩

theorem sound_guarded {registered : List c.Tree} {t : c.Tree} (ht : t ∈ registered) :
    (c.guarded registered).Sound t := by
  intro proof key digest h
  change (c.verify proof (c.root t) [(key, digest)]).map
    (fun accepted => accepted && c.agrees registered (c.root t) [(key, digest)]) = .ok true at h
  cases hv : c.verify proof (c.root t) [(key, digest)] with
  | error e =>
      rw [hv] at h
      cases h
  | ok accepted =>
      rw [hv, ok_map, Except.ok.injEq, Bool.and_eq_true, agrees, List.all_eq_true] at h
      have ha := h.2 t ht
      change c.leaf t key = .ok digest
      cases hl : c.leaf t key with
      | error e => simp [hl] at ha
      | ok stored => simpa [hl] using ha

/-- Honest proofs are still accepted when the registered roots do not collide. -/
theorem complete_guarded {registered : List c.Tree} {t : c.Tree} (hc : c.Complete t)
    (hb : ∀ u ∈ registered, c.Binding u t) : (c.guarded registered).Complete t := by
  intro key digest hl
  obtain ⟨merkle, proof, hm, hp, hv⟩ := hc key digest hl
  refine ⟨merkle, proof, hm, hp, ?_⟩
  intro root
  change (c.verify proof root [(key, digest)]).map _ = .ok (decide (root = c.root t))
  rw [hv root, ok_map, Except.ok.injEq]
  by_cases hr : root = c.root t
  · have ha : c.agrees registered root [(key, digest)] = true := by
      rw [agrees, List.all_eq_true]
      intro u hu
      by_cases hru : c.root u = root
      · simp [hb u hu (hru.trans hr) key, show c.leaf t key = _ from hl]
      · simp [hru]
    rw [ha, Bool.and_true]
  · rw [decide_eq_false hr, Bool.false_and]

end Guarded

end SparseMerkleTree

end DigIdentity.TreeCrate
