import FrameGraph.Hierarchy

/-!
# Walks through a hierarchy

Where every parent stands before its children (`Hierarchy.Ordered`), the walk through a subtree is
complete: behind each position that it meets come all children of that position
(`Hierarchy.children_after`). Taken backwards, it meets the children first.
-/

set_option autoImplicit false

namespace FrameGraph

/-- A place in joined lists is a place in one of them. -/
theorem exists_split_of_flatMap {α β : Type} {g : α → List β} {l : List α} {xs ys : List β} {b : β}
    (h : l.flatMap g = xs ++ b :: ys) :
    ∃ a ∈ l, ∃ xs' ys' zs, g a = xs' ++ b :: ys' ∧ ys = ys' ++ zs := by
  induction l generalizing xs with
  | nil => simp at h
  | cons a l ih =>
    rw [List.flatMap_cons, List.append_eq_append_iff] at h
    rcases h with ⟨zs, rfl, h⟩ | ⟨zs, hzs, h⟩
    · obtain ⟨a', ha', hsplit⟩ := ih h
      exact ⟨a', List.mem_cons_of_mem _ ha', hsplit⟩
    · cases zs with
      | nil =>
        have hrest : l.flatMap g = [] ++ b :: ys := h.symm
        obtain ⟨a', ha', hsplit⟩ := ih hrest
        exact ⟨a', List.mem_cons_of_mem _ ha', hsplit⟩
      | cons z zs =>
        obtain ⟨rfl, rfl⟩ := List.cons.inj h
        exact ⟨a, List.mem_cons_self, xs, zs, l.flatMap g, hzs, rfl⟩

namespace Hierarchy

/-- Whether every parent stands before its children. -/
def Ordered (h : Hierarchy) : Prop := ∀ i p : Nat, h[i]? = some (some p) → p < i

instance (h : Hierarchy) : Decidable h.Ordered :=
  decidable_of_iff (∀ x ∈ h.zipIdx, ∀ p ∈ x.1, p < x.2) <| by
    constructor
    · intro hall i p hp
      exact hall (some p, i) (List.mk_mem_zipIdx_iff_getElem?.2 hp) p rfl
    · rintro ho ⟨_, i⟩ hx p rfl
      exact ho i p (List.mk_mem_zipIdx_iff_getElem?.1 hx)

variable {h : Hierarchy} {i j k depth : Nat}

theorem Ordered.lt_of_mem_children (ho : h.Ordered) (hk : k ∈ h.children j) : j < k :=
  ho k j (mem_children.1 hk)

theorem lt_length_of_mem_children (hk : k ∈ h.children j) : k < h.length := by
  obtain ⟨hlt, -⟩ := List.getElem?_eq_some_iff.1 (mem_children.1 hk)
  exact hlt

/-- With more members at the end a position has its children first and then more. -/
theorem children_prefix (h more : Hierarchy) (i : Nat) : h.children i <+: children (h ++ more) i := by
  rw [children, children, List.zipIdx_append, List.filterMap_append]
  exact List.prefix_append _ _

theorem children_concat (h : Hierarchy) (parent : Option Nat) (i : Nat) :
    children (h ++ [parent]) i = h.children i ++ if parent = some i then [h.length] else [] := by
  unfold children
  rw [List.zipIdx_append, List.filterMap_append]
  congr 1
  by_cases hp : parent = some i
  · simp [hp]
  · simp [hp]

/-- A new member at the end comes after its parent. -/
theorem Ordered.concat {p : Option Nat} (ho : h.Ordered)
    (hp : ∀ j, p = some j → j < h.length) : Ordered (h ++ [p]) := by
  intro i q hq
  rcases Nat.lt_or_ge i h.length with hi | hi
  · rw [List.getElem?_append_left hi] at hq
    exact ho i q hq
  · rw [List.getElem?_append_right hi] at hq
    obtain ⟨hlt, hget⟩ := List.getElem?_eq_some_iff.1 hq
    have hq' : p = some q := by simpa using hget
    have := hp q hq'
    omega

theorem self_mem_subtreeTo : i ∈ h.subtreeTo depth i := by
  cases depth <;> simp [subtreeTo]

/-- **Behind every position of a subtree come its children**, where the walk goes deep enough to
meet them. -/
theorem children_after (ho : h.Ordered) (hdepth : h.length ≤ i + depth) {xs ys : List Nat}
    (hsplit : h.subtreeTo depth i = xs ++ j :: ys) (hk : k ∈ h.children j) : k ∈ ys := by
  induction depth generalizing i xs ys with
  | zero =>
    have hj : j = i := by
      have hmem : j ∈ h.subtreeTo 0 i := by simp [hsplit]
      simpa [subtreeTo] using hmem
    -- a child of the last position would stand behind the end
    have hlt := ho.lt_of_mem_children hk
    have hlen := lt_length_of_mem_children hk
    omega
  | succ depth ih =>
    rw [subtreeTo] at hsplit
    cases xs with
    | nil =>
      obtain ⟨rfl, rfl⟩ := List.cons.inj hsplit
      exact List.mem_flatMap.2 ⟨k, hk, self_mem_subtreeTo⟩
    | cons x xs =>
      obtain ⟨-, hrest⟩ := List.cons.inj hsplit
      obtain ⟨c, hc, xs', ys', zs, hbelow, rfl⟩ := exists_split_of_flatMap hrest
      have hlt := ho.lt_of_mem_children hc
      exact List.mem_append_left _ (ih (by omega) hbelow)

end Hierarchy

end FrameGraph
