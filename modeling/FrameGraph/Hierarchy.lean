/-!
# Hierarchies by position

A hierarchy lists, for each position, the position of its parent. Members are added at the end, so
a parent stands before its children and every walk through a hierarchy ends after as many steps as
it has members.
-/

set_option autoImplicit false

namespace FrameGraph

abbrev Hierarchy := List (Option Nat)

namespace Hierarchy

/-- The positions whose parent is `i`, in increasing order. -/
def children (h : Hierarchy) (i : Nat) : List Nat :=
  h.zipIdx.filterMap fun (parent, j) => if parent = some i then some j else none

/-- A position and those at most `depth` steps below it, each before its children. -/
def subtreeTo (h : Hierarchy) : Nat → Nat → List Nat
  | 0, i => [i]
  | depth + 1, i => i :: (h.children i).flatMap (h.subtreeTo depth)

/-- A position and all below it, each before its children. -/
def subtree (h : Hierarchy) (i : Nat) : List Nat := h.subtreeTo h.length i

/-- The position reached from `i` by at most `steps` steps to the parent. -/
def ancestor (h : Hierarchy) : Nat → Nat → Nat
  | 0, i => i
  | steps + 1, i =>
    match h[i]? with
    | some (some parent) => h.ancestor steps parent
    | _ => i

/-- The position at the top of the tree that holds `i`. -/
def root (h : Hierarchy) (i : Nat) : Nat := h.ancestor h.length i

theorem mem_children {h : Hierarchy} {i j : Nat} : j ∈ h.children i ↔ h[j]? = some (some i) := by
  simp only [children, List.mem_filterMap, Prod.exists, List.mk_mem_zipIdx_iff_getElem?,
    Option.ite_none_right_eq_some, Option.some.injEq]
  constructor
  · rintro ⟨p, k, hk, rfl, rfl⟩
    exact hk
  · intro hj
    exact ⟨_, j, hj, rfl, rfl⟩

end Hierarchy

end FrameGraph
