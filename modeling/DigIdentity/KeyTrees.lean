import Mathlib.Data.List.Induction
import Mathlib.Data.Set.Function

namespace DigIdentity.KeyTrees

variable {K I L : Type}

def node (derive : K → I → K) (root : K) (path : List I) : K := path.foldl derive root

/-- The steps that lead from a root along a path. -/
def edges (derive : K → I → K) : K → List I → List (K × I)
  | _, [] => []
  | k, i :: path => (k, i) :: edges derive (derive k i) path

variable {derive : K → I → K} {root root' : K} {path path' : List I} {label : K → L}

theorem node_snoc (derive : K → I → K) (root : K) (path : List I) (i : I) :
    node derive root (path ++ [i]) = derive (node derive root path) i := by
  simp [node]

theorem edges_append (derive : K → I → K) (root : K) (path path' : List I) :
    edges derive root (path ++ path') =
      edges derive root path ++ edges derive (node derive root path) path' := by
  induction path generalizing root with
  | nil => rfl
  | cons i path ih => simp [edges, node, ih]

theorem last_mem_edges (derive : K → I → K) (root : K) (path : List I) (i : I) :
    (node derive root path, i) ∈ edges derive root (path ++ [i]) := by
  simp [edges_append, edges]

/-- No two of the steps lead to children with one label. -/
def NoCollision (derive : K → I → K) (label : K → L) (steps : List (K × I)) : Prop :=
  Set.InjOn (fun e : K × I => label (derive e.1 e.2)) {e | e ∈ steps}

theorem NoCollision.mono {steps fewer : List (K × I)} (h : NoCollision derive label steps)
    (hs : fewer ⊆ steps) : NoCollision derive label fewer := Set.InjOn.mono (fun _ he => hs he) h

/-- Two paths of one length, from any two roots, end at one node only if they
are the same path from the same root: equal ends have equal last steps. -/
theorem node_inj (hlen : path.length = path'.length)
    (h : NoCollision derive label (edges derive root path ++ edges derive root' path'))
    (he : node derive root path = node derive root' path') : root = root' ∧ path = path' := by
  induction path using List.reverseRecOn generalizing path' with
  | nil =>
      obtain rfl := List.length_eq_zero_iff.mp hlen.symm
      exact ⟨he, rfl⟩
  | append_singleton path i ih =>
      cases path' using List.reverseRecOn with
      | nil => simp at hlen
      | append_singleton path' j =>
          rw [node_snoc, node_snoc] at he
          have hstep := h (List.mem_append_left _ (last_mem_edges derive root path i))
            (List.mem_append_right _ (last_mem_edges derive root' path' j)) (congrArg label he)
          obtain ⟨hnode, rfl⟩ := Prod.mk.inj hstep
          have hlen' : path.length = path'.length := by simpa using hlen
          have hsub : edges derive root path ++ edges derive root' path' ⊆
              edges derive root (path ++ [i]) ++ edges derive root' (path' ++ [i]) := by
            rw [edges_append, edges_append]
            exact List.append_subset.mpr ⟨fun _ hm => by simp [hm], fun _ hm => by simp [hm]⟩
          obtain ⟨hroot, rfl⟩ := ih hlen' (h.mono hsub) hnode
          exact ⟨hroot, rfl⟩

/-- The same of the labels of their ends, when there is a last step. -/
theorem label_node_inj (hne : path ≠ []) (hlen : path.length = path'.length)
    (h : NoCollision derive label (edges derive root path ++ edges derive root' path'))
    (he : label (node derive root path) = label (node derive root' path')) :
    root = root' ∧ path = path' := by
  refine node_inj hlen h ?_
  cases path using List.reverseRecOn with
  | nil => exact absurd rfl hne
  | append_singleton path i =>
      cases path' using List.reverseRecOn with
      | nil => simp at hlen
      | append_singleton path' j =>
          rw [node_snoc, node_snoc] at he ⊢
          have hstep := h (List.mem_append_left _ (last_mem_edges derive root path i))
            (List.mem_append_right _ (last_mem_edges derive root' path' j)) he
          obtain ⟨hnode, rfl⟩ := Prod.mk.inj hstep
          rw [hnode]

end DigIdentity.KeyTrees
