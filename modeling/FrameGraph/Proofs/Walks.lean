import FrameGraph.Proofs.Hierarchies
import Mathlib.Data.List.Induction
import Mathlib.Data.List.Nodup
import Mathlib.Logic.Relation

/-!
# Walks that end

A hierarchy is climbed from parent to parent (`Climbs`), walked down with a stack of positions
(`Unstacks`), and walked down children first (`Postorder`). None of these walks is given a bound,
and where every parent stands before its children all of them end: in the root (`climbs_root`),
having met the subtree in its order (`unstacks_subtree`), and having met it in the opposite order
(`postorder_subtree`).

Every position below is met (`mem_subtree_iff`), and met once (`nodup_subtree`).
-/

set_option autoImplicit false

namespace FrameGraph

open Relation (ReflTransGen)

namespace Hierarchy

variable {h : Hierarchy} {i j k p r r' : Nat}

/-! ## Up -/

/-- The climb from a position to its parent, as long as there is one. -/
inductive Climbs (h : Hierarchy) : Nat → Nat → Prop
  | top {i : Nat} (htop : ∀ p, h[i]? ≠ some (some p)) : Climbs h i i
  | up {i p r : Nat} (hp : h[i]? = some (some p)) (hrest : Climbs h p r) : Climbs h i r

theorem ancestor_of_top (htop : ∀ p, h[i]? ≠ some (some p)) (steps : Nat) :
    h.ancestor steps i = i := by
  cases steps with
  | zero => rfl
  | succ steps =>
    unfold ancestor
    split
    · next p hp => exact absurd hp (htop p)
    · rfl

theorem ancestor_of_parent (hp : h[i]? = some (some p)) (steps : Nat) :
    h.ancestor (steps + 1) i = h.ancestor steps p := by
  rw [ancestor, hp]

/-- As many steps as there are positions before it take a position to its root. -/
theorem climbs_ancestor (ho : h.Ordered) {steps : Nat} (hsteps : i ≤ steps) :
    h.Climbs i (h.ancestor steps i) := by
  induction steps generalizing i with
  | zero =>
    refine .top fun p hp => ?_
    have hlt := ho i p hp
    omega
  | succ steps ih =>
    by_cases htop : ∀ p, h[i]? ≠ some (some p)
    · rw [ancestor_of_top htop]
      exact .top htop
    · obtain ⟨p, hp⟩ : ∃ p, h[i]? = some (some p) := by simpa using htop
      have hlt := ho i p hp
      rw [ancestor_of_parent hp]
      exact .up hp (ih (by omega))

/-- **The climb ends in the root.** -/
theorem climbs_root (ho : h.Ordered) (i : Nat) : h.Climbs i (h.root i) := by
  rcases Nat.lt_or_ge i h.length with hi | hi
  · exact climbs_ancestor ho (Nat.le_of_lt hi)
  · have htop (p : Nat) : h[i]? ≠ some (some p) := by simp [List.getElem?_eq_none hi]
    rw [root, ancestor_of_top htop]
    exact .top htop

theorem Climbs.unique (hr : h.Climbs i r) (hr' : h.Climbs i r') : r = r' := by
  induction hr with
  | top htop =>
    cases hr' with
    | top => rfl
    | up hp => exact absurd hp (htop _)
  | up hp _ ih =>
    cases hr' with
    | top htop => exact absurd hp (htop _)
    | up hp' hrest =>
      rw [hp] at hp'
      cases hp'
      exact ih hrest

theorem Climbs.root_eq (ho : h.Ordered) (hr : h.Climbs i r) : h.root i = r :=
  (climbs_root ho i).unique hr

theorem Climbs.top_of (hr : h.Climbs i r) (p : Nat) : h[r]? ≠ some (some p) := by
  induction hr with
  | top htop => exact htop p
  | up _ _ ih => exact ih

theorem root_of_top (htop : ∀ p, h[i]? ≠ some (some p)) : h.root i = i :=
  ancestor_of_top htop _

theorem root_of_parent (ho : h.Ordered) (hp : h[i]? = some (some p)) : h.root i = h.root p :=
  (Climbs.up hp (climbs_root ho p)).root_eq ho

theorem root_root (ho : h.Ordered) (i : Nat) : h.root (h.root i) = h.root i :=
  root_of_top (climbs_root ho i).top_of

theorem root_le (ho : h.Ordered) (i : Nat) : h.root i ≤ i := by
  have hr := climbs_root ho i
  generalize h.root i = r at hr
  induction hr with
  | top => exact Nat.le_refl _
  | up hp _ ih => exact Nat.le_trans ih (Nat.le_of_lt (ho _ _ hp))

/-- A climb stays what it is as long as no member gets another parent. -/
theorem Climbs.mono {h' : Hierarchy} (ho : h.Ordered) (hr : h.Climbs i r) (hi : i < h.length)
    (hkeep : ∀ (j : Nat) parent, h[j]? = some parent → h'[j]? = some parent) :
    h'.Climbs i r := by
  induction hr with
  | @top i htop =>
    obtain ⟨parent, hparent⟩ : ∃ parent, h[i]? = some parent := ⟨h[i], List.getElem?_eq_getElem hi⟩
    refine .top fun p hp => htop p ?_
    rw [hkeep i parent hparent] at hp
    rw [hparent, hp]
  | @up i p r hp _ ih => exact .up (hkeep i _ hp) (ih (Nat.lt_trans (ho i p hp) hi))

/-! ## The child relation -/

/-- Whether the second position is a child of the first. -/
def Above (h : Hierarchy) (i j : Nat) : Prop := j ∈ h.children i

theorem above_iff : h.Above i j ↔ h[j]? = some (some i) := mem_children

/-- What holds of a position as soon as it holds of its children holds of every position. -/
theorem Ordered.induction_down {P : Nat → Prop} (ho : h.Ordered)
    (hP : ∀ i, (∀ j ∈ h.children i, P j) → P i) (i : Nat) : P i := by
  induction hn : h.length - i using Nat.strongRecOn generalizing i with
  | _ n ih =>
    refine hP i fun j hj => ih (h.length - j) ?_ j rfl
    have hij := ho.lt_of_mem_children hj
    have hlen := lt_length_of_mem_children hj
    omega

theorem le_of_below (ho : h.Ordered) (hij : ReflTransGen h.Above i j) : i ≤ j := by
  induction hij with
  | refl => exact Nat.le_refl i
  | tail _ hstep ih => exact Nat.le_trans ih (Nat.le_of_lt (ho.lt_of_mem_children hstep))

/-- The root of a position is the root that it is below. -/
theorem climbs_iff : h.Climbs j r ↔
    (∀ p, h[r]? ≠ some (some p)) ∧ ReflTransGen h.Above r j := by
  constructor
  · intro hr
    refine ⟨hr.top_of, ?_⟩
    induction hr with
    | top => exact .refl
    | up hp _ ih => exact .tail ih (above_iff.2 hp)
  · rintro ⟨htop, hbelow⟩
    induction hbelow with
    | refl => exact .top htop
    | tail _ hstep ih => exact .up (above_iff.1 hstep) ih

theorem nodup_children (h : Hierarchy) (i : Nat) : (h.children i).Nodup := by
  unfold children
  refine List.Nodup.filterMap ?_ (List.Nodup.of_map Prod.snd ?_)
  · rintro ⟨p, j⟩ ⟨q, k⟩ a hj hk
    simp only [Option.mem_def, Option.ite_none_right_eq_some, Option.some.injEq] at hj hk
    obtain ⟨rfl, rfl⟩ := hj
    obtain ⟨rfl, rfl⟩ := hk
    rfl
  · rw [List.zipIdx_map_snd]
    exact List.nodup_range'

/-! ## Down -/

theorem children_eq_nil (ho : h.Ordered) (hi : h.length ≤ i) : h.children i = [] := by
  refine List.eq_nil_iff_forall_not_mem.2 fun j hj => ?_
  have hij := ho.lt_of_mem_children hj
  have hlen := lt_length_of_mem_children hj
  omega

/-- A walk that goes deep enough meets no more when it goes deeper. -/
theorem subtreeTo_congr (ho : h.Ordered) {m n : Nat} (hm : h.length ≤ i + m)
    (hn : h.length ≤ i + n) : h.subtreeTo m i = h.subtreeTo n i := by
  induction m generalizing i n with
  | zero =>
    cases n with
    | zero => rfl
    | succ n => rw [subtreeTo, subtreeTo, children_eq_nil ho (i := i) hm, List.flatMap_nil]
  | succ m ih =>
    cases n with
    | zero => rw [subtreeTo, subtreeTo, children_eq_nil ho (i := i) hn, List.flatMap_nil]
    | succ n =>
      rw [subtreeTo, subtreeTo]
      refine congrArg (i :: ·) (List.flatMap_congr fun c hc => ?_)
      have hlt := ho.lt_of_mem_children hc
      exact ih (by omega) (by omega)

/-- A subtree is its top and, behind it, the subtrees of the children in their order. -/
theorem subtree_eq (ho : h.Ordered) (i : Nat) :
    h.subtree i = i :: (h.children i).flatMap h.subtree := by
  have hdeeper : h.subtree i = h.subtreeTo (h.length + 1) i :=
    subtreeTo_congr ho (by omega) (by omega)
  rw [hdeeper, subtreeTo]
  rfl

/-- **Every position below is met.** -/
theorem mem_subtree_iff (ho : h.Ordered) : j ∈ h.subtree i ↔ ReflTransGen h.Above i j := by
  induction i using ho.induction_down with
  | hP i ih =>
    rw [subtree_eq ho, List.mem_cons, List.mem_flatMap, Relation.ReflTransGen.cases_head_iff]
    refine or_congr eq_comm (exists_congr fun c => ?_)
    exact and_congr_right fun hc => ih c hc

/-- The tree of a root is all that has this root. -/
theorem mem_subtree_root_iff (ho : h.Ordered) (htop : ∀ p, h[r]? ≠ some (some p)) :
    j ∈ h.subtree r ↔ h.root j = r := by
  rw [mem_subtree_iff ho]
  constructor
  · intro hbelow
    exact (climbs_iff.2 ⟨htop, hbelow⟩).root_eq ho
  · rintro rfl
    exact (climbs_iff.1 (climbs_root ho j)).2

/-- Below two children of one position is nothing in common. -/
theorem child_unique (ho : h.Ordered) (hj : j ∈ h.children i) (hk : k ∈ h.children i) {x : Nat}
    (hjx : ReflTransGen h.Above j x) (hkx : ReflTransGen h.Above k x) : j = k := by
  have huniq : Relator.RightUnique (Function.swap h.Above) := by
    intro a b c hb hc
    have hbc := (above_iff.1 hb).symm.trans (above_iff.1 hc)
    simpa using hbc
  -- the one child is below the other, or the other way round
  have hcases := ReflTransGen.total_of_right_unique huniq hjx.swap hkx.swap
  have hbelow {a b : Nat} (ha : a ∈ h.children i) (hb : b ∈ h.children i)
      (hab : ReflTransGen h.Above a b) : a = b := by
    rcases hab.cases_tail with rfl | ⟨c, hac, hcb⟩
    · rfl
    · have hci : c = i := by
        have hparents := (above_iff.1 hcb).symm.trans (mem_children.1 hb)
        simpa using hparents
      have hle := le_of_below ho hac
      have hlt := ho.lt_of_mem_children ha
      omega
  rcases hcases with hkj | hjk
  · exact (hbelow hk hj hkj.swap).symm
  · exact hbelow hj hk hjk.swap

/-- **No position is met twice.** -/
theorem nodup_subtree (ho : h.Ordered) (i : Nat) : (h.subtree i).Nodup := by
  induction i using ho.induction_down with
  | hP i ih =>
    rw [subtree_eq ho, List.nodup_cons, List.nodup_flatMap]
    refine ⟨fun hi => ?_, ih, ?_⟩
    · obtain ⟨c, hc, hi⟩ := List.mem_flatMap.1 hi
      have hle := le_of_below ho ((mem_subtree_iff ho).1 hi)
      have hlt := ho.lt_of_mem_children hc
      omega
    · refine (h.nodup_children i).imp_of_mem fun {j k} hj hk hne x hjx hkx => hne ?_
      exact child_unique ho hj hk ((mem_subtree_iff ho).1 hjx) ((mem_subtree_iff ho).1 hkx)

/-! ## With a stack -/

/-- The walk that takes a position from a stack and puts its children there instead, and the
positions that it takes until the stack is empty. -/
inductive Unstacks (h : Hierarchy) : List Nat → List Nat → Prop
  | done : Unstacks h [] []
  | take {i : Nat} {stack out : List Nat} (hrest : Unstacks h (h.children i ++ stack) out) :
      Unstacks h (i :: stack) (i :: out)

theorem Unstacks.cons (ho : h.Ordered) (i : Nat) {stack out : List Nat}
    (hs : h.Unstacks stack out) : h.Unstacks (i :: stack) (h.subtree i ++ out) := by
  induction i using ho.induction_down generalizing stack out with
  | hP i ih =>
    rw [subtree_eq ho, List.cons_append]
    refine .take ?_
    generalize h.children i = cs at ih
    induction cs with
    | nil => exact hs
    | cons c cs ih' =>
      rw [List.flatMap_cons, List.append_assoc]
      refine ih c List.mem_cons_self (ih' fun c' hc' => ih c' (List.mem_cons_of_mem c hc'))

/-- **The walk with a stack ends, having met the subtree in its order.** -/
theorem unstacks_subtree (ho : h.Ordered) (i : Nat) : h.Unstacks [i] (h.subtree i) := by
  have hwalk := Unstacks.cons ho i .done
  rwa [List.append_nil] at hwalk

/-! ## Children first -/

/-- The walk that comes to a position after all below it, the last child first, for one position
after the other. -/
inductive Postorder (h : Hierarchy) : List Nat → List Nat → Prop
  | done : Postorder h [] []
  | node {i : Nat} {rest below out : List Nat} (hbelow : Postorder h (h.children i).reverse below)
      (hrest : Postorder h rest out) : Postorder h (i :: rest) (below ++ i :: out)

theorem Postorder.cons (ho : h.Ordered) (i : Nat) {rest out : List Nat}
    (hrest : h.Postorder rest out) :
    h.Postorder (i :: rest) ((h.subtree i).reverse ++ out) := by
  induction i using ho.induction_down generalizing rest out with
  | hP i ih =>
    rw [subtree_eq ho, List.reverse_cons, List.append_assoc, List.reverse_flatMap]
    refine .node ?_ hrest
    have ih' : ∀ c ∈ (h.children i).reverse, ∀ {rest out}, h.Postorder rest out →
        h.Postorder (c :: rest) ((h.subtree c).reverse ++ out) :=
      fun c hc _ _ => ih c (List.mem_reverse.1 hc)
    generalize (h.children i).reverse = cs at ih'
    induction cs with
    | nil => exact .done
    | cons c cs ih'' =>
      exact ih' c List.mem_cons_self (ih'' fun c' hc' => ih' c' (List.mem_cons_of_mem c hc'))

/-- **The walk that comes to the children first ends, having met the subtree backwards.** -/
theorem postorder_subtree (ho : h.Ordered) (i : Nat) :
    h.Postorder [i] (h.subtree i).reverse := by
  have hwalk := Postorder.cons ho i .done
  rwa [List.append_nil] at hwalk

/-! ## Lists of children -/

/-- The lists of children after one more member, which is put at the end of its parent's list. -/
def addMember (lists : List (List Nat)) (parent : Option Nat) : List (List Nat) :=
  match parent with
  | none => lists ++ [[]]
  | some p => lists.modify p (· ++ [lists.length]) ++ [[]]

/-- The list of children of every member, as the lists grow while members are added. -/
def childLists (h : Hierarchy) : List (List Nat) := h.foldl addMember []

theorem Ordered.of_append {more : Hierarchy} (ho : Ordered (h ++ more)) : h.Ordered := by
  intro i p hp
  obtain ⟨hlt, -⟩ := List.getElem?_eq_some_iff.1 hp
  exact ho i p (by rw [List.getElem?_append_left hlt, hp])

/-- **The lists that grow member by member are those of the children.** -/
theorem childLists_eq (ho : h.Ordered) : h.childLists = (List.range h.length).map h.children := by
  induction h using List.reverseRecOn with
  | nil => rfl
  | append_singleton h parent ih =>
    have hlast : children (h ++ [parent]) h.length = [] := by
      refine List.eq_nil_iff_forall_not_mem.2 fun j hj => ?_
      have hlt := ho.lt_of_mem_children hj
      have hlen := lt_length_of_mem_children hj
      rw [List.length_append, List.length_singleton] at hlen
      omega
    rw [childLists, List.foldl_append, ← childLists, ih ho.of_append, List.length_append,
      List.length_singleton, List.range_succ, List.map_append, List.map_singleton, hlast,
      List.foldl_cons, List.foldl_nil]
    cases parent with
    | none =>
      refine congrArg (· ++ [[]]) (List.map_congr_left fun i _ => ?_)
      rw [children_concat]
      simp
    | some p =>
      rw [addMember, List.length_map, List.length_range]
      refine congrArg (· ++ [[]]) (List.ext_getElem? fun i => ?_)
      rw [List.getElem?_modify, List.getElem?_map, List.getElem?_map]
      rcases Nat.lt_or_ge i h.length with hi | hi
      · rw [List.getElem?_range hi]
        by_cases hpi : p = i
        · simp [children_concat, hpi]
        · simp [children_concat, hpi]
      · simp [hi]

end Hierarchy

end FrameGraph
