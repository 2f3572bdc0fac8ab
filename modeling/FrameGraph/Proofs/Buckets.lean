import FrameGraph.Proofs.Carried
import FrameGraph.Proofs.WellFormed

/-!
# What a frame does to one resource

The barriers on a resource, before each pass (`Analysis.bucketsOf`) and after the last
(`TransitionBatch.ofResource`), are those for which the timelines of its name ask
(`ofResource_before`, `ofResource_atEnd`). In a well-formed forest a name has one timeline at most,
that of its node (`filter_name_ofFrame`).
-/

set_option autoImplicit false

namespace FrameGraph

/-- The transitions of a batch that are on the resource of that name. -/
def TransitionBatch.ofResource (b : TransitionBatch) (name : String) : TransitionBatch where
  images := b.images.filter (·.resource == name)
  buffers := b.buffers.filter (·.resource == name)

/-- The barriers on a resource before each pass. -/
def Analysis.bucketsOf (a : Analysis) (name : String) : List TransitionBatch :=
  a.barriers.map (·.ofResource name)

/-! ## Transitions by timeline -/

namespace Timeline

variable {t : Timeline} {src dst : AccessState}

theorem resource_of_imageTransition {x : ImageTransition}
    (h : t.imageTransition? src dst = some x) : x.resource = t.node.name := by
  unfold imageTransition? at h
  split at h
  · obtain rfl := Option.some.inj h
    rfl
  · cases h

theorem resource_of_bufferTransition {x : BufferTransition}
    (h : t.bufferTransition? src dst = some x) : x.resource = t.node.name := by
  unfold bufferTransition? at h
  split at h
  · obtain rfl := Option.some.inj h
    rfl
  · cases h

end Timeline

/-- What timelines give under their names, they give under one name if they have it. -/
theorem filter_flatMap_of_name {α : Type} (nameOf : α → String) {g : Timeline → List α}
    (hname : ∀ t, ∀ x ∈ g t, nameOf x = t.node.name) (ts : List Timeline) (name : String) :
    (ts.flatMap g).filter (nameOf · == name) = (ts.filter (·.node.name == name)).flatMap g := by
  induction ts with
  | nil => rfl
  | cons t ts ih =>
    rw [List.flatMap_cons, List.filter_append, ih]
    by_cases ht : t.node.name = name
    · have hall : (g t).filter (nameOf · == name) = g t := by
        refine List.filter_eq_self.2 fun x hx => ?_
        rw [hname t x hx, ht]
        exact beq_self_eq_true name
      rw [hall, List.filter_cons_of_pos (by simpa using ht), List.flatMap_cons]
    · have hnone : (g t).filter (nameOf · == name) = [] := by
        refine List.filter_eq_nil_iff.2 fun x hx => ?_
        rw [hname t x hx]
        simpa using ht
      rw [hnone, List.filter_cons_of_neg (by simpa using ht), List.nil_append]

/-- The barriers on a resource before a pass. -/
theorem ofResource_before (p : Nat) (ts : List Timeline) (name : String) :
    (TransitionBatch.before p ts).ofResource name =
      .before p (ts.filter (·.node.name == name)) := by
  have himages := filter_flatMap_of_name ImageTransition.resource
    (g := fun t => (t.movesAt p).filterMap fun m => t.imageTransition? m.src m.dst)
    (fun t x hx => by
      obtain ⟨m, -, hm⟩ := List.mem_filterMap.1 hx
      exact Timeline.resource_of_imageTransition hm) ts name
  have hbuffers := filter_flatMap_of_name BufferTransition.resource
    (g := fun t => (t.movesAt p).filterMap fun m => t.bufferTransition? m.src m.dst)
    (fun t x hx => by
      obtain ⟨m, -, hm⟩ := List.mem_filterMap.1 hx
      exact Timeline.resource_of_bufferTransition hm) ts name
  unfold TransitionBatch.ofResource TransitionBatch.before
  rw [himages, hbuffers]

/-- The barriers on a resource at the end of a frame. -/
theorem ofResource_atEnd (ts : List Timeline) (name : String) :
    (TransitionBatch.atEnd ts).ofResource name = .atEnd (ts.filter (·.node.name == name)) := by
  have himages := filter_flatMap_of_name ImageTransition.resource
    (g := fun t => if t.isShown then (t.imageTransition? t.reduction.2 .present).toList else [])
    (fun t x hx => by
      split at hx
      · exact Timeline.resource_of_imageTransition (Option.mem_toList.1 hx)
      · cases hx) ts name
  rw [← images_atEnd, ← images_atEnd] at himages
  unfold TransitionBatch.ofResource
  rw [himages]
  rfl

/-! ## The timelines of a name -/

section
variable {f : Forest} {n : Node} {i : Nat} {frame : List (List NodeUse)}

/-- The name of a node tells its timeline. -/
theorem Timeline.eq_ofNode_of_name (hf : f.WellFormed) (hn : f.nodes[i]? = some n) {t : Timeline}
    (ht : t ∈ ofFrame f.nodes frame) (hname : t.node.name = n.name) : t = .ofNode i n frame := by
  obtain ⟨-, hnode, -⟩ := mem_ofFrame_iff.1 ht
  exact eq_ofNode ht (hf.index_unique hnode hn hname) hn

/-- **A name has one timeline**, if its node is touched, and none otherwise. -/
theorem filter_name_ofFrame (hf : f.WellFormed) (hn : f.nodes[i]? = some n)
    (frame : List (List NodeUse)) :
    (Timeline.ofFrame f.nodes frame).filter (·.node.name == n.name) =
      if (Timeline.ofNode i n frame).entries = [] then [] else [.ofNode i n frame] := by
  have hmem (t : Timeline) : t ∈ (Timeline.ofFrame f.nodes frame).filter (·.node.name == n.name) ↔
      t = .ofNode i n frame ∧ t.entries ≠ [] := by
    rw [List.mem_filter, beq_iff_eq]
    constructor
    · rintro ⟨ht, hname⟩
      obtain rfl := Timeline.eq_ofNode_of_name hf hn ht hname
      exact ⟨rfl, (Timeline.ofNode_mem_iff hn).1 ht⟩
    · rintro ⟨rfl, hne⟩
      exact ⟨(Timeline.ofNode_mem_iff hn).2 hne, rfl⟩
  split
  · next hnil =>
    refine List.eq_nil_iff_forall_not_mem.2 fun t ht => ?_
    obtain ⟨rfl, hne⟩ := (hmem t).1 ht
    exact hne hnil
  · next hne =>
    refine List.perm_singleton.1 ((List.perm_ext_iff_of_nodup (Timeline.nodup_ofFrame.filter _)
      (by simp)).2 fun t => ?_)
    rw [hmem, List.mem_singleton, and_iff_left_iff_imp]
    rintro rfl
    exact hne

/-- The timeline under the name of a node is that of the node, if there is anything in it. -/
theorem timeline?_eq {a : Analysis} (ha : a.timelines = Timeline.ofFrame f.nodes frame)
    (hf : f.WellFormed) (hn : f.nodes[i]? = some n) : a.timeline? n.name =
      if (Timeline.ofNode i n frame).entries = [] then none
      else some (Timeline.ofNode i n frame).entries := by
  unfold Analysis.timeline?
  rw [ha, ← List.head?_filter, filter_name_ofFrame hf hn]
  split <;> rfl

/-- The barriers of a frame on a resource. -/
theorem bucketsOf_eq {shaders : Registry} {passes : List Pass} {a : Analysis} {f' : Forest}
    (h : (analyze passes f shaders).result = .ok (a, f'))
    (ha : a.timelines = Timeline.ofFrame f.nodes frame) (hf : f.WellFormed)
    (hn : f.nodes[i]? = some n) :
    a.bucketsOf n.name = (List.range passes.length).map (.before · [.ofNode i n frame]) := by
  unfold Analysis.bucketsOf
  rw [(barriers_eq h).1, ha, List.map_map]
  refine List.map_congr_left fun p _ => ?_
  rw [Function.comp_apply, ofResource_before, filter_name_ofFrame hf hn]
  split
  · next hnil =>
    have hmoves : (Timeline.ofNode i n frame).movesAt p = [] := by
      rw [Timeline.movesAt, Timeline.moves, Timeline.reduction_eq, hnil]
      rfl
    simp only [TransitionBatch.before, List.flatMap_nil, List.flatMap_singleton, hmoves,
      List.filterMap_nil]
  · rfl

/-- After the last pass nothing happens to a resource that is not shown. -/
theorem atEnd_of_hidden (hf : f.WellFormed) (hn : f.nodes[i]? = some n)
    (hres : n.residency ≠ .swapchain) (frame : List (List NodeUse)) :
    (TransitionBatch.atEnd (Timeline.ofFrame f.nodes frame)).ofResource n.name = .empty := by
  have hshown : (Timeline.ofNode i n frame).isShown = false := by
    simp [Timeline.isShown, Timeline.ofNode, hres]
  rw [ofResource_atEnd, filter_name_ofFrame hf hn]
  split
  · rfl
  · rw [TransitionBatch.atEnd, List.filter_cons_of_neg (by simp [hshown])]
    rfl

end

end FrameGraph
