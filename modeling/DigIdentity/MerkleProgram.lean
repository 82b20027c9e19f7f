import DigIdentity.LeafPrograms
import DigIdentity.SparseMerkle

namespace DigIdentity.MerkleProgram

open ByteStrings Fallible TreeCrate SparseMerkle LeafPrograms

/-- Bit `i` of a key is bit `i % 8` of its byte `i / 8`. -/
def keyNat (key : H256) : Nat := ofBe key.toList.reverse

def natKey (n : Nat) : H256 := ⟨(toBe 32 n).reverse.toArray, by simp⟩

theorem keyNat_lt (key : H256) : keyNat key < 2 ^ 256 := by
  have h := ofBe_lt key.toList.reverse
  rw [List.length_reverse, Vector.length_toList] at h
  exact h

theorem keyNat_natKey {n : Nat} (h : n < 2 ^ 256) : keyNat (natKey n) = n := by
  simp only [keyNat, natKey, Vector.toList_mk, List.reverse_reverse]
  rw [ofBe_toBe, Nat.mod_eq_of_lt (by simpa using h)]

theorem keyNat_inj {k l : H256} (h : keyNat k = keyNat l) : k = l := by
  have hk := toBe_ofBe k.toList.reverse
  have hl := toBe_ofBe l.toList.reverse
  rw [List.length_reverse, Vector.length_toList] at hk hl
  rw [← keyNat, h, keyNat, hl] at hk
  exact (Vector.toList_inj.mp (List.reverse_injective hk)).symm

/-- A node, where a chain of merges with empty siblings is kept unhashed. -/
inductive MergeValue
  | value (digest : H256)
  | mergeWithZero (baseNode : H256) (zeroBits : BitVec 256) (zeroCount : UInt8)
deriving DecidableEq

def empty : MergeValue := .value zero32

section Hashing

variable (H : Type) [Hasher H]

def digestOf (bytes : List (UInt8 ⊕ H256)) : H256 :=
  Hasher.finish (bytes.foldl (fun h b => b.elim (Hasher.writeByte h) (Hasher.writeH256 h))
    (Hasher.default : H))

def hashBaseNode (height nodeKey : Nat) (v : H256) : H256 :=
  digestOf H [.inl (UInt8.ofNat height), .inr (natKey nodeKey), .inr v]

def MergeValue.hash : MergeValue → H256
  | .value v => v
  | .mergeWithZero baseNode zeroBits zeroCount =>
      digestOf H [.inl 2, .inr baseNode, .inr (natKey zeroBits.toNat), .inl zeroCount]

def mergeWithZero (height nodeKey : Nat) (v : MergeValue) (setBit : Bool) : MergeValue :=
  let bit := if setBit then BitVec.ofNat 256 (2 ^ height) else 0
  match v with
  | .value v => .mergeWithZero (hashBaseNode H height nodeKey v) bit 1
  | .mergeWithZero baseNode zeroBits zeroCount =>
      .mergeWithZero baseNode (zeroBits ||| bit) (zeroCount + 1)

def merge (height nodeKey : Nat) (lhs rhs : MergeValue) : MergeValue :=
  if lhs = empty ∧ rhs = empty then empty
  else if lhs = empty then mergeWithZero H height nodeKey rhs true
  else if rhs = empty then mergeWithZero H height nodeKey lhs false
  else .value (digestOf H [.inl 1, .inl (UInt8.ofNat height), .inr (natKey nodeKey),
    .inr (lhs.hash H), .inr (rhs.hash H)])

theorem merge_empty (height nodeKey : Nat) : merge H height nodeKey empty empty = empty := by
  simp [merge]

end Hashing

/-- The instructions of a compiled proof that climb from a node. -/
inductive Op
  | sibling (node : MergeValue)
  | zeros (count : UInt8)

namespace Op

def encode : Op → Bytes
  | .sibling (.value digest) => 0x50 :: digest.toList
  | .sibling (.mergeWithZero baseNode zeroBits zeroCount) =>
      0x51 :: zeroCount :: (baseNode.toList ++ (natKey zeroBits.toNat).toList)
  | .zeros count => [0x4F, count]

def siblings : Op → List MergeValue
  | .sibling node => [node]
  | .zeros count => List.replicate (zerosCount count) empty

end Op

inductive ProofError
  | emptyKeys
  | incorrectNumberOfLeaves
  | corruptedProof
  | corruptedStack
  | invalidCode (code : UInt8)
deriving DecidableEq

def ProofError.describe : ProofError → String
  | .emptyKeys => "Empty keys"
  | .incorrectNumberOfLeaves => "Incorrect number of leaves"
  | .corruptedProof => "Corrupted proof"
  | .corruptedStack => "Corrupted serialized proof stack"
  | .invalidCode code => "Invalid serialized proof code: " ++ toString code

section Operands

variable {code : UInt8} {bytes rest operand : Bytes} {v : H256} {path : List MergeValue} {n : Nat}

def takeH256 (bytes : Bytes) : Option (H256 × Bytes) :=
  if h : 32 ≤ bytes.length then some (⟨(bytes.take 32).toArray, by simp [h]⟩, bytes.drop 32) else none

theorem takeH256_append (v : H256) (rest : Bytes) : takeH256 (v.toList ++ rest) = some (v, rest) := by
  have hv : v.toList.length = 32 := by simp
  have he : v.toList.toArray = v.toArray := Array.toArray_toList
  simp [takeH256, List.take_left' hv, List.drop_left' hv, he]

theorem takeH256_eq_some {r : H256 × Bytes} (h : takeH256 bytes = some r) :
    bytes = r.1.toList ++ r.2 := by
  unfold takeH256 at h
  by_cases hlen : 32 ≤ bytes.length
  · rw [dif_pos hlen, Option.some.injEq] at h
    rw [← h]
    exact (List.take_append_drop 32 bytes).symm
  · rw [dif_neg hlen] at h
    exact nomatch h

theorem exists_toList_eq (h : operand.length = 32) : ∃ v : H256, v.toList = operand :=
  ⟨⟨operand.toArray, by simp [h]⟩, by simp⟩

/-- The node of a sibling that is not a digest, from the bytes after its code. -/
def readNode : Bytes → Option (MergeValue × Bytes)
  | [] => none
  | zeroCount :: bytes =>
      (takeH256 bytes).bind fun base => (takeH256 base.2).map fun bits =>
        (.mergeWithZero base.1 (BitVec.ofNat 256 (keyNat bits.1)) zeroCount, bits.2)

/-- The siblings that a climb passes, from the bytes after its code. -/
def readSiblings (code : UInt8) (bytes : Bytes) : Option (List MergeValue × Bytes) :=
  if code = 0x50 then (takeH256 bytes).map fun digest => ([.value digest.1], digest.2)
  else if code = 0x51 then (readNode bytes).map fun node => ([node.1], node.2)
  else bytes.head?.map fun count => (List.replicate (zerosCount count) empty, bytes.tail)

theorem readNode_eq_some {node : MergeValue} (h : readNode bytes = some (node, rest)) :
    ∃ operand, bytes = operand ++ rest ∧ operand.length = 65 := by
  cases bytes with
  | nil => exact nomatch h
  | cons count bytes =>
      obtain ⟨base, hbase, hrest⟩ := Option.bind_eq_some_iff.mp h
      obtain ⟨bits, hbits, he⟩ := Option.map_eq_some_iff.mp hrest
      cases he
      refine ⟨count :: (base.1.toList ++ bits.1.toList), ?_, by simp⟩
      rw [takeH256_eq_some hbase, takeH256_eq_some hbits, List.cons_append, List.append_assoc]

theorem exists_readNode_eq (h : operand.length = 65) (rest : Bytes) :
    ∃ node, readNode (operand ++ rest) = some (node, rest) := by
  obtain ⟨count, operand, rfl⟩ := List.exists_cons_of_length_eq_add_one h
  rw [List.length_cons, Nat.add_right_cancel_iff] at h
  have htake : (operand.take 32).length = 32 := by simp [h]
  have hdrop : (operand.drop 32).length = 32 := by simp [h]
  obtain ⟨baseNode, hbase⟩ := exists_toList_eq htake
  obtain ⟨zeroBits, hbits⟩ := exists_toList_eq hdrop
  refine ⟨.mergeWithZero baseNode (BitVec.ofNat 256 (keyNat zeroBits)) count, ?_⟩
  rw [← List.take_append_drop 32 operand, ← hbase, ← hbits]
  simp [readNode, takeH256_append]

theorem climb_of_readSiblings (hcode : code ∈ [0x50, 0x51, 0x4F])
    (h : readSiblings code bytes = some (path, rest)) :
    ∃ operand, bytes = operand ++ rest ∧ Climb code operand path.length := by
  simp only [List.mem_cons, List.not_mem_nil, or_false] at hcode
  rcases hcode with rfl | rfl | rfl
  · obtain ⟨digest, hdigest, he⟩ := Option.map_eq_some_iff.mp h
    cases he
    exact ⟨digest.1.toList, takeH256_eq_some hdigest, .digest _ (by simp)⟩
  · obtain ⟨node, hnode, he⟩ := Option.map_eq_some_iff.mp h
    cases he
    obtain ⟨operand, hbytes, hlength⟩ := readNode_eq_some hnode
    exact ⟨operand, hbytes, .node operand hlength⟩
  · obtain ⟨count, hcount, he⟩ := Option.map_eq_some_iff.mp h
    cases he
    refine ⟨[count], (List.cons_head?_tail hcount).symm, ?_⟩
    rw [List.length_replicate]
    exact .zeros count

theorem readSiblings_of_climb (h : Climb code operand n) (rest : Bytes) :
    ∃ path, readSiblings code (operand ++ rest) = some (path, rest) ∧ path.length = n := by
  cases h with
  | digest _ ho =>
      obtain ⟨digest, rfl⟩ := exists_toList_eq ho
      exact ⟨[.value digest], by simp [readSiblings, takeH256_append], rfl⟩
  | node _ ho =>
      obtain ⟨node, hnode⟩ := exists_readNode_eq ho rest
      exact ⟨[node], by simp [readSiblings, hnode], rfl⟩
  | zeros count => exact ⟨_, rfl, List.length_replicate ..⟩

end Operands

section Execution

variable (H : Type) [Hasher H]

abbrev Stack := List (Nat × Nat × MergeValue)

/-- The bytes and the leaves that are still to come, and the stack. -/
abbrev State := Bytes × List (H256 × H256) × Stack

def putLeaf (bytes : Bytes) (leaves : List (H256 × H256)) (stack : Stack) : Except ProofError State :=
  match leaves with
  | [] => .error .corruptedStack
  | (key, digest) :: leaves => .ok (bytes, leaves, (0, keyNat key, .value digest) :: stack)

def hashPair (bytes : Bytes) (leaves : List (H256 × H256)) (stack : Stack) : Except ProofError State :=
  match stack with
  | (height, key, v) :: (height', key', v') :: stack =>
      if height = height' ∧ height < 256 ∧ parentPath height key = parentPath height key' then
        .ok (bytes, leaves, (height + 1, key, climb (merge H) key height [v'] v) :: stack)
      else .error .corruptedProof
  | [_] | [] => .error .corruptedStack

def climbTop (code : UInt8) (bytes : Bytes) (leaves : List (H256 × H256)) (stack : Stack) :
    Except ProofError State :=
  match stack with
  | [] => .error .corruptedStack
  | (height, key, v) :: stack =>
      match readSiblings code bytes with
      | none => .error .corruptedProof
      | some (path, bytes) =>
          if height + path.length ≤ 256 then
            .ok (bytes, leaves, (height + path.length, key, climb (merge H) key height path v) :: stack)
          else .error .corruptedProof

/-- What the interpreter does at a code, before it reads the next one. -/
def step (code : UInt8) (bytes : Bytes) (leaves : List (H256 × H256)) (stack : Stack) :
    Except ProofError State :=
  if code = 0x4C then putLeaf bytes leaves stack
  else if code = 0x48 then hashPair H bytes leaves stack
  else if code ∈ [0x50, 0x51, 0x4F] then climbTop H code bytes leaves stack
  else .error (.invalidCode code)

def finish (leaves : List (H256 × H256)) : Stack → Except ProofError MergeValue
  | [(height, _, v)] => if height = 256 ∧ leaves = [] then .ok v else .error .corruptedProof
  | [] | _ :: _ :: _ => .error .corruptedStack

/-- The interpreter's loop. Every turn takes a byte at least, so fuel for as many
turns as there are bytes is never used up. -/
def run : Nat → Bytes → List (H256 × H256) → Stack → Except ProofError MergeValue
  | _, [], leaves, stack => finish leaves stack
  | 0, _ :: _, _, _ => .error .corruptedProof
  | fuel + 1, code :: bytes, leaves, stack => do
      let (bytes, leaves, stack) ← step H code bytes leaves stack
      run fuel bytes leaves stack

def interpret (bytes : Bytes) (leaves : List (H256 × H256)) (stack : Stack) :
    Except ProofError MergeValue :=
  run H bytes.length bytes leaves stack

variable {H} {code : UInt8} {bytes bytes' : Bytes} {leaves leaves' : List (H256 × H256)}
  {stack stack' : Stack} {height key : Nat} {v : MergeValue}

theorem climbTop_cons {path : List MergeValue}
    (h : readSiblings code bytes = some (path, bytes')) :
    climbTop H code bytes leaves ((height, key, v) :: stack) =
      if height + path.length ≤ 256 then
        .ok (bytes', leaves, (height + path.length, key, climb (merge H) key height path v) :: stack)
      else .error .corruptedProof := by
  rw [climbTop]
  simp only [h]

/-- All that a step can do: put the next leaf down, hash the two nodes on top into
one, or climb from the top past the siblings that it reads. -/
theorem step_cases {s : State} (h : step H code bytes leaves stack = .ok s) :
    (∃ key digest rest, code = 0x4C ∧ leaves = (key, digest) :: rest ∧
      s = (bytes, rest, (0, keyNat key, .value digest) :: stack)) ∨
    (∃ height key v key' v' rest, code = 0x48 ∧ stack = (height, key, v) :: (height, key', v') :: rest ∧
      height < 256 ∧ parentPath height key = parentPath height key' ∧
      s = (bytes, leaves, (height + 1, key, climb (merge H) key height [v'] v) :: rest)) ∨
    ∃ height key v rest path bytes', code ∈ [0x50, 0x51, 0x4F] ∧ stack = (height, key, v) :: rest ∧
      readSiblings code bytes = some (path, bytes') ∧ height + path.length ≤ 256 ∧
      s = (bytes', leaves, (height + path.length, key, climb (merge H) key height path v) :: rest) := by
  rw [step] at h
  by_cases hleaf : code = 0x4C
  · left
    rw [if_pos hleaf] at h
    cases leaves with
    | nil => cases h
    | cons e rest =>
        cases h
        exact ⟨e.1, e.2, rest, hleaf, rfl, rfl⟩
  rw [if_neg hleaf] at h
  right
  by_cases hhash : code = 0x48
  · left
    rw [if_pos hhash] at h
    rcases stack with _ | ⟨⟨height, key, v⟩, _ | ⟨⟨height', key', v'⟩, rest⟩⟩
    · cases h
    · cases h
    · obtain ⟨⟨rfl, hlt, hparent⟩, rfl⟩ := ite_eq_ok.mp h
      exact ⟨height, key, v, key', v', rest, hhash, rfl, hlt, hparent, rfl⟩
  rw [if_neg hhash] at h
  by_cases hclimb : code ∈ [0x50, 0x51, 0x4F]
  · right
    rw [if_pos hclimb] at h
    rcases stack with _ | ⟨⟨height, key, v⟩, rest⟩
    · cases h
    · cases hread : readSiblings code bytes with
      | none => simp [climbTop, hread] at h
      | some r =>
          rw [climbTop_cons hread] at h
          obtain ⟨hle, rfl⟩ := ite_eq_ok.mp h
          exact ⟨height, key, v, rest, r.1, r.2, hclimb, rfl, rfl, hle, rfl⟩
  · rw [if_neg hclimb] at h
    cases h

theorem step_length (h : step H code bytes leaves stack = .ok (bytes', leaves', stack')) :
    bytes'.length ≤ bytes.length := by
  rcases step_cases h with ⟨_, _, _, _, _, he⟩ | ⟨_, _, _, _, _, _, _, _, _, _, he⟩ |
    ⟨_, _, _, _, _, _, hcode, _, hread, _, he⟩
  · cases he
    exact Nat.le_refl _
  · cases he
    exact Nat.le_refl _
  · cases he
    obtain ⟨operand, hbytes, _⟩ := climb_of_readSiblings hcode hread
    rw [hbytes, List.length_append]
    exact Nat.le_add_left ..

theorem run_of_length_le {fuel fuel' : Nat} (h : bytes.length ≤ fuel) (h' : bytes.length ≤ fuel') :
    run H fuel bytes leaves stack = run H fuel' bytes leaves stack := by
  induction fuel generalizing fuel' bytes leaves stack with
  | zero =>
      obtain rfl := List.eq_nil_of_length_eq_zero (Nat.le_zero.mp h)
      cases fuel' <;> rfl
  | succ fuel ih =>
      cases bytes with
      | nil => cases fuel' <;> rfl
      | cons code bytes =>
          obtain ⟨fuel', rfl⟩ : ∃ n, fuel' = n + 1 := ⟨fuel' - 1, by simp at h'; omega⟩
          rw [run, run]
          cases hstep : step H code bytes leaves stack with
          | error e => rfl
          | ok r =>
              have hlength := step_length hstep
              simp only [List.length_cons] at h h'
              exact ih (by omega) (by omega)

@[simp] theorem interpret_nil : interpret H [] leaves stack = finish leaves stack := rfl

theorem interpret_cons :
    interpret H (code :: bytes) leaves stack =
      (step H code bytes leaves stack).bind fun r => interpret H r.1 r.2.1 r.2.2 := by
  rw [interpret, List.length_cons, run]
  cases hstep : step H code bytes leaves stack with
  | error e => rfl
  | ok r => exact run_of_length_le (step_length hstep) (Nat.le_refl _)

/-- A climb from the top of the stack. -/
theorem interpret_climb {path : List MergeValue} (hcode : code ∈ [0x50, 0x51, 0x4F])
    (h : readSiblings code bytes = some (path, bytes')) :
    interpret H (code :: bytes) leaves ((height, key, v) :: stack) =
      if height + path.length ≤ 256 then
        interpret H bytes' leaves
          ((height + path.length, key, climb (merge H) key height path v) :: stack)
      else .error .corruptedProof := by
  have hstep : step H code bytes leaves ((height, key, v) :: stack) =
      climbTop H code bytes leaves ((height, key, v) :: stack) := by
    simp only [List.mem_cons, List.not_mem_nil, or_false] at hcode
    rcases hcode with rfl | rfl | rfl <;> rfl
  rw [interpret_cons, hstep, climbTop_cons h]
  by_cases hheight : height + path.length ≤ 256
  · rw [if_pos hheight, if_pos hheight]
    rfl
  · rw [if_neg hheight, if_neg hheight]
    rfl

/-- From a single node, with no leaf to come, nothing but a climb leads on. -/
theorem interpret_stuck (h : code ∈ [0x50, 0x51, 0x4F] → readSiblings code bytes = none) :
    ∃ e, interpret H (code :: bytes) [] [(height, key, v)] = .error e := by
  rw [interpret_cons]
  cases hstep : step H code bytes [] [(height, key, v)] with
  | error e => exact ⟨e, rfl⟩
  | ok s =>
      rcases step_cases hstep with ⟨_, _, _, _, hleaves, _⟩ | ⟨_, _, _, _, _, _, _, hstack, _⟩ |
        ⟨_, _, _, _, _, _, hcode, _, hread, _⟩
      · cases hleaves
      · cases hstack
      · cases (h hcode).symm.trans hread

/-- From a single node the interpreter comes to an end on the instructions that
climb the levels left above it, and on no other bytes. By induction on the
number of bytes, an instruction at a time. -/
theorem interpret_isOk_iff (hheight : height ≤ 256) :
    (∃ node, interpret H bytes [] [(height, key, v)] = .ok node) ↔ Climbs (256 - height) bytes := by
  induction hn : bytes.length using Nat.strong_induction_on generalizing bytes height v with
  | _ n ih =>
      cases bytes with
      | nil =>
          rw [interpret_nil, climbs_nil_iff, finish]
          simp only [ite_eq_ok, and_true]
          constructor
          · rintro ⟨_, h, _⟩
            omega
          · intro h
            exact ⟨v, by omega, rfl⟩
      | cons code bytes =>
          by_cases hclimb : ∃ operand rest levels, bytes = operand ++ rest ∧ Climb code operand levels
          · obtain ⟨operand, rest, levels, rfl, hclimb⟩ := hclimb
            obtain ⟨path, hread, rfl⟩ := readSiblings_of_climb hclimb rest
            rw [interpret_climb hclimb.code_mem hread, climbs_cons_iff hclimb]
            by_cases hle : height + path.length ≤ 256
            · have hlt : rest.length < n := by
                rw [← hn, List.length_cons, List.length_append]
                omega
              rw [if_pos hle, ih rest.length hlt hle rfl]
              constructor
              · intro h
                exact ⟨256 - (height + path.length), by omega, h⟩
              · rintro ⟨m, hm, h⟩
                rwa [show 256 - (height + path.length) = m by omega]
            · rw [if_neg hle]
              constructor
              · rintro ⟨_, h⟩
                exact nomatch h
              · rintro ⟨m, hm, _⟩
                omega
          · have hstuck : code ∈ [0x50, 0x51, 0x4F] → readSiblings code bytes = none := by
              intro hcode
              rw [Option.eq_none_iff_forall_ne_some]
              rintro ⟨path, rest⟩ hread
              obtain ⟨operand, hbytes, h⟩ := climb_of_readSiblings hcode hread
              exact hclimb ⟨operand, rest, _, hbytes, h⟩
            obtain ⟨e, he⟩ := interpret_stuck (H := H) hstuck
            rw [he]
            constructor
            · rintro ⟨_, h⟩
              exact nomatch h
            · intro h
              generalize 256 - height = levels at h
              cases h with
              | step h _ => exact absurd ⟨_, _, _, rfl, h⟩ hclimb

end Execution

section Programs

def flush (pending : Nat) : List Op :=
  if pending = 0 then [] else [.zeros (UInt8.ofNat pending)]

/-- Compile a path, lowest sibling first, with its empty siblings counted. -/
def program : Nat → List MergeValue → List Op
  | pending, [] => flush pending
  | pending, node :: path =>
      if node = empty then program (pending + 1) path
      else flush pending ++ .sibling node :: program 0 path

theorem zerosCount_ofNat {n : Nat} (h : n ≠ 0) (hn : n ≤ 256) : zerosCount (UInt8.ofNat n) = n := by
  unfold zerosCount
  have hz : UInt8.ofNat n = 0 ↔ n % 256 = 0 := by
    rw [← UInt8.toNat_inj, UInt8.toNat_ofNat']
    rfl
  by_cases h256 : n = 256
  · simp [h256]
  · rw [if_neg (by rw [hz]; omega), UInt8.toNat_ofNat']
    omega

variable {H : Type} [Hasher H] {leaves : List (H256 × H256)} {stack : Stack} {rest : Bytes}

theorem interpret_encode (op : Op) (height key : Nat) (v : MergeValue)
    (h : height + op.siblings.length ≤ 256) :
    interpret H (op.encode ++ rest) leaves ((height, key, v) :: stack) =
      interpret H rest leaves
        ((height + op.siblings.length, key, climb (merge H) key height op.siblings v) :: stack) := by
  have hread : ∃ code bytes, op.encode ++ rest = code :: bytes ∧ code ∈ [0x50, 0x51, 0x4F] ∧
      readSiblings code bytes = some (op.siblings, rest) := by
    cases op with
    | zeros count => exact ⟨0x4F, _, rfl, by simp, rfl⟩
    | sibling node =>
        cases node with
        | value digest =>
            exact ⟨0x50, _, rfl, by simp, by simp [readSiblings, takeH256_append, Op.siblings]⟩
        | mergeWithZero baseNode zeroBits zeroCount =>
            refine ⟨0x51, _, rfl, by simp, ?_⟩
            simp [readSiblings, readNode, takeH256_append, Op.siblings, keyNat_natKey zeroBits.isLt]
  obtain ⟨code, bytes, he, hcode, hr⟩ := hread
  rw [he, interpret_climb hcode hr, if_pos h]

theorem interpret_flush (pending height key : Nat) (v : MergeValue) (h : height + pending ≤ 256) :
    interpret H ((flush pending).flatMap Op.encode ++ rest) leaves ((height, key, v) :: stack) =
      interpret H rest leaves ((height + pending, key,
        climb (merge H) key height (List.replicate pending empty) v) :: stack) := by
  by_cases hp : pending = 0
  · simp [flush, hp, climb]
  · have hsiblings : (Op.zeros (UInt8.ofNat pending)).siblings = List.replicate pending empty := by
      rw [Op.siblings, zerosCount_ofNat hp (by omega)]
    rw [flush, if_neg hp, List.flatMap_singleton, interpret_encode _ _ _ _ (by simpa [hsiblings] using h),
      hsiblings, List.length_replicate]

theorem interpret_program (path : List MergeValue) (pending height key : Nat) (v : MergeValue)
    (h : height + pending + path.length = 256) :
    interpret H ((program pending path).flatMap Op.encode) [] [(height, key, v)] =
      .ok (climb (merge H) key height (List.replicate pending empty ++ path) v) := by
  induction path generalizing pending height v with
  | nil =>
      rw [List.length_nil, Nat.add_zero] at h
      rw [program, ← List.append_nil (List.flatMap Op.encode _), interpret_flush _ _ _ _ (by omega), h]
      simp [finish]
  | cons node path ih =>
      simp only [List.length_cons] at h
      by_cases hn : node = empty
      · rw [program, if_pos hn, ih (pending + 1) height v (by omega), hn, List.replicate_succ',
          List.append_assoc]
        rfl
      · have hlt : height + pending + (Op.sibling node).siblings.length ≤ 256 := by
          simp only [Op.siblings, List.length_singleton]
          omega
        rw [program, if_neg hn, List.flatMap_append, List.flatMap_cons, interpret_flush _ _ _ _ (by omega),
          interpret_encode _ _ _ _ hlt, ih 0 _ _ (by simp only [Op.siblings, List.length_singleton]; omega),
          climb_append _ _ _ (List.replicate pending empty)]
        simp [climb, Op.siblings]

end Programs

end DigIdentity.MerkleProgram
