import FrameGraph.Proofs.Frames

/-!
# What a frame makes of a node

Every node has a timeline in a frame, empty where the frame leaves the node alone
(`Timeline.ofNode`), and after the frame it is `Timeline.after` of it: the same node, in the state
in which the frame leaves it (`nodes_carry_ofFrame`).
-/

set_option autoImplicit false

namespace FrameGraph

/-- How the accesses to a node are joined. -/
def Node.joins (n : Node) : AccessState → AccessState → Bool :=
  match n.payload with
  | .buffer _ _ => Move.buffersJoin
  | _ => Move.imagesJoin

namespace Timeline

theorem reduction_eq (t : Timeline) : t.reduction = Move.along t.node.joins t.start t.entries := by
  unfold reduction Node.joins
  cases t.node.payload <;> rfl

/-- What an access is to a node depends on what stands behind the node. -/
theorem entriesFrom_congr {n n' : Node} (h : n'.payload = n.payload) (index first : Nat)
    (xs : List (List NodeUse)) : entriesFrom index n' first xs = entriesFrom index n first xs := by
  have himage : n'.imageDesc? = n.imageDesc? := by simp only [Node.imageDesc?, h]
  induction xs generalizing first with
  | nil => rfl
  | cons uses xs ih => simp only [entriesFrom, Usage.stateOf, himage, ih]

/-- The timeline of a node, touched or not. -/
def ofNode (i : Nat) (n : Node) (frame : List (List NodeUse)) : Timeline :=
  ⟨i, n, entriesFrom i n 0 frame⟩

/-- The state that a node carries after a frame. -/
def left (t : Timeline) : AccessState :=
  if t.node.residency = .dontCare ∨ t.entries = [] then t.node.current else t.finish

/-- The node after a frame. -/
def after (t : Timeline) : Node := { t.node with current := t.left }

theorem left_of_idle {t : Timeline} (h : t.node.residency = .dontCare ∨ t.entries = []) :
    t.left = t.node.current := if_pos h

theorem left_of_used {t : Timeline} (hres : t.node.residency ≠ .dontCare) (he : t.entries ≠ []) :
    t.left = t.finish := if_neg fun h => h.elim hres he

section
variable {nodes : List Node} {frame : List (List NodeUse)} {i : Nat} {n : Node}

theorem mem_touched_iff : i ∈ touched frame ↔ (ofNode i n frame).entries ≠ [] := by
  rw [mem_touched]
  constructor
  · rintro ⟨uses, huses, v, hv⟩
    obtain ⟨k, hk⟩ := List.mem_iff_getElem?.1 huses
    obtain ⟨u, hu⟩ := Option.isSome_iff_exists.1 (isSome_usageIn_iff.2 ⟨v, hv⟩)
    exact List.ne_nil_of_mem (mem_entriesFrom_iff.2 ⟨k, uses, u, hk, hu, rfl⟩)
  · intro h
    obtain ⟨e, he⟩ := List.exists_mem_of_ne_nil _ h
    obtain ⟨k, uses, u, hk, hu, -⟩ := mem_entriesFrom_iff.1 he
    obtain ⟨v, hv⟩ := isSome_usageIn_iff.1 (Option.isSome_of_mem hu)
    exact ⟨uses, List.mem_of_getElem? hk, v, hv⟩

/-- A node that is touched has its timeline among those of the frame. -/
theorem ofNode_mem_iff (hn : nodes[i]? = some n) :
    ofNode i n frame ∈ ofFrame nodes frame ↔ (ofNode i n frame).entries ≠ [] := by
  rw [mem_ofFrame_iff, ← mem_touched_iff (n := n)]
  exact ⟨fun h => h.1, fun h => ⟨h, hn, rfl⟩⟩

theorem eq_ofNode {t : Timeline} (ht : t ∈ ofFrame nodes frame) (hi : t.index = i)
    (hn : nodes[i]? = some n) : t = ofNode i n frame := by
  obtain ⟨htouched, -, -⟩ := mem_ofFrame_iff.1 ht
  rw [hi] at htouched
  exact eq_of_index_eq ht ((ofNode_mem_iff hn).2 (mem_touched_iff.1 htouched)) hi

/-- The timeline of a node that a frame touches is found by its position. -/
theorem find?_ofFrame (hi : i ∈ touched frame) (hn : nodes[i]? = some n) :
    (ofFrame nodes frame).find? (·.index == i) = some (ofNode i n frame) := by
  have hmem : ofNode i n frame ∈ ofFrame nodes frame :=
    (ofNode_mem_iff hn).2 (mem_touched_iff.1 hi)
  cases hfind : (ofFrame nodes frame).find? (·.index == i) with
  | none => exact absurd (beq_self_eq_true i) (List.find?_eq_none.1 hfind _ hmem)
  | some t =>
    rw [eq_ofNode (List.mem_of_find?_eq_some hfind) (by simpa using List.find?_some hfind) hn]

end

end Timeline

/-- The nodes after a frame. -/
theorem nodes_carry_ofFrame (f : Forest) (frame : List (List NodeUse)) (i : Nat) :
    (f.carry (Timeline.ofFrame f.nodes frame)).nodes[i]? =
      (f.nodes[i]?).map fun n => (Timeline.ofNode i n frame).after := by
  cases hn : f.nodes[i]? with
  | none =>
    cases hn' : (f.carry (Timeline.ofFrame f.nodes frame)).nodes[i]? with
    | none => rfl
    | some n' =>
      obtain ⟨n, hn''⟩ := Forest.exists_of_nodes_carry hn'
      simp [hn] at hn''
  | some n =>
    obtain ⟨s, hs, hlast⟩ := Forest.exists_carry (Timeline.ofFrame f.nodes frame) hn
    have hleft : s = (Timeline.ofNode i n frame).left := by
      rcases hlast with ⟨t, ht, hi, hres, rfl⟩ | ⟨rfl, hall⟩
      · obtain rfl := Timeline.eq_ofNode ht hi hn
        have hentries := (Timeline.ofNode_mem_iff hn).1 ht
        exact (Timeline.left_of_used hres hentries).symm
      · by_cases htouched : (Timeline.ofNode i n frame).entries = []
        · exact (Timeline.left_of_idle (.inr htouched)).symm
        · have hres := hall _ ((Timeline.ofNode_mem_iff hn).2 htouched) rfl
          exact (Timeline.left_of_idle (.inl hres)).symm
    rw [hs, hleft]
    rfl

end FrameGraph
