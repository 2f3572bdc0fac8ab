import FrameGraph.Proofs.Carried
import FrameGraph.Proofs.SampleUses

/-!
# Timelines of the sample frame

What the passes of the sample frame do to each of its resources. Every frame leaves a resource in
the same state (`Sample.worn`), whether it finds it as new or as the frame before has left it, and
changes its state equally often. So a plan of the frame always has as many barriers
(`Sample.moves_and_shown`), and render passes of the same description (`Sample.targets_eq`).
-/

set_option autoImplicit false

namespace FrameGraph

theorem Usage.stateOf_image {u : Usage} {n : Node} {format : Format}
    (h : n.imageDesc?.map (·.format) = some format) :
    u.stateOf n = ⟨u.stage, u.access, imageLayout u.access format⟩ := by
  obtain ⟨desc, hdesc, rfl⟩ := Option.map_eq_some_iff.1 h
  rw [stateOf, hdesc]

namespace Timeline

variable {i : Nat} {n : Node} {frame : List (List NodeUse)} {es : List TimelineEntry}
  {joins : AccessState → AccessState → Bool}

theorem reduction_ofNode (hes : (ofNode i n frame).entries = es) (hjoins : n.joins = joins) :
    (ofNode i n frame).reduction = Move.along joins (ofNode i n frame).start es := by
  rw [reduction_eq, hes, ← hjoins]
  rfl

end Timeline

namespace Sample

variable {extent : Extent} {images : List (Handle .image)} {acquired i : Nat} {ids : Nat → Nat}
  {f : Forest} {m : Node}

/-- What the passes do, when the image of number `acquired` is drawn to. -/
def frameWith (acquired : Nat) : List (List NodeUse) := [uploadUses, cullUses, gbufferUses,
  opaqueUses, [colorWrite (2 * acquired + 12)], fullscreenUses]

/-- The positions of the images and buffers, in the order in which the passes touch them. -/
def localPositions : List Nat := [7, 8, 9, 10, 6, 0, 2, 4]

theorem touched_frameWith (acquired : Nat) :
    Timeline.touched (frameWith acquired) = localPositions ++ [2 * acquired + 12] := rfl

/-! ## The states -/

/-- The state that a frame leaves behind. -/
def worn : Nat → AccessState
  | 0 | 2 | 4 => ⟨.fragmentShader, .shaderRead, .shaderReadOnly⟩
  | 6 => .ofBuffer (StageMask.topOfPipe ∪ .computeShader ∪ .vertexShader ∪ .fragmentShader)
    .uniformRead
  | 7 => .ofBuffer (StageMask.topOfPipe ∪ .transfer) .transferRead
  | 8 => .ofBuffer .fragmentShader .shaderRead
  | 9 => .ofBuffer (StageMask.topOfPipe ∪ .computeShader ∪ .vertexShader) .shaderRead
  | 10 => .undefined
  | _ => .present

/-- Whether each node is as new or as a frame leaves it. -/
def Worn (f : Forest) : Prop := ∀ i, f.stateAt i = .undefined ∨ f.stateAt i = worn i

/-! ## Images and buffers -/

/-- What the passes do to an image or a buffer. -/
def localEntries : Nat → List TimelineEntry
  | 0 | 2 => [
    ⟨2, .colorAttachmentOutput, .colorAttachmentWrite, .colorAttachment⟩,
    ⟨5, .fragmentShader, .shaderRead, .shaderReadOnly⟩]
  | 4 => [
    ⟨2, Usage.depthStages, .depthStencilAttachmentWrite, .depthAttachment⟩,
    ⟨5, .fragmentShader, .shaderRead, .shaderReadOnly⟩]
  | 6 => [
    ⟨1, .ofBuffer .computeShader .uniformRead⟩,
    ⟨3, .ofBuffer (StageMask.vertexShader ∪ .fragmentShader) .uniformRead⟩,
    ⟨5, .ofBuffer .fragmentShader .uniformRead⟩]
  | 7 => [⟨0, .ofBuffer .transfer .transferRead⟩]
  | 8 => [
    ⟨0, .ofBuffer .transfer .transferWrite⟩,
    ⟨5, .ofBuffer .fragmentShader .shaderRead⟩]
  | 9 => [
    ⟨1, .ofBuffer .computeShader .shaderRead⟩,
    ⟨3, .ofBuffer .vertexShader .shaderRead⟩]
  | 10 => [
    ⟨1, .ofBuffer .computeShader .shaderWrite⟩,
    ⟨3, .ofBuffer .drawIndirect .indirectCommandRead⟩]
  | _ => []

def localJoins (i : Nat) : AccessState → AccessState → Bool :=
  if i < 6 then Move.imagesJoin else Move.buffersJoin

def localResidency : Nat → Residency
  | 0 | 2 | 4 => .transient
  | 10 => .dontCare
  | _ => .persistent

/-- How often a frame changes the state. -/
def localMoves : Nat → Nat
  | 0 | 2 | 4 | 8 | 10 => 2
  | _ => 0

theorem along_local : ∀ i ∈ localPositions, ∀ c ∈ [.undefined, worn i],
    (Move.along (localJoins i) c (localEntries i)).1.length = localMoves i ∧
      (i ≠ 10 → (Move.along (localJoins i) c (localEntries i)).2 = worn i) := by
  decide +kernel

/-- The timeline of the node at a position. -/
def timelineAt (f : Forest) (ids : Nat → Nat) (acquired i : Nat) (m : Node) : Timeline :=
  .ofNode i (f.dressed ids i m) (frameWith acquired)

theorem entries_local (hi : i ∈ localPositions)
    (hm : (unfolded extent images acquired)[i]? = some m) :
    (timelineAt f ids acquired i m).entries = localEntries i := by
  simp only [localPositions, List.mem_cons, List.not_mem_nil, or_false] at hi
  rcases hi with rfl | rfl | rfl | rfl | rfl | rfl | rfl | rfl
  case inr.inr.inr.inr.inr.inr.inr =>
    -- the layout of a depth image depends on its format
    obtain rfl := Option.some.inj hm
    have hstate (u : Usage) (m : Node)
        (h : (f.dressed ids 4 m).imageDesc?.map (·.format) = some .d32Sfloat) :
        u.stateOf (f.dressed ids 4 m) =
          ⟨u.stage, u.access, Usage.imageLayout u.access .d32Sfloat⟩ :=
      Usage.stateOf_image h
    show [TimelineEntry.mk 2 (Usage.stateOf ⟨Usage.depthStages, .depthStencilAttachmentWrite⟩ _),
      ⟨5, Usage.stateOf ⟨.fragmentShader, .shaderRead⟩ _⟩] = _
    rw [hstate _ _ rfl, hstate _ _ rfl]
    decide
  all_goals
    obtain rfl := Option.some.inj hm
    rfl

theorem local_cases (hi : i ∈ localPositions)
    (hm : (unfolded extent images acquired)[i]? = some m) :
    (f.dressed ids i m).joins = localJoins i ∧
      (f.dressed ids i m).residency = localResidency i := by
  simp only [localPositions, List.mem_cons, List.not_mem_nil, or_false] at hi
  rcases hi with rfl | rfl | rfl | rfl | rfl | rfl | rfl | rfl
  all_goals
    obtain rfl := Option.some.inj hm
    exact ⟨rfl, rfl⟩

theorem residency_local : ∀ i ∈ localPositions, localResidency i ≠ .swapchain ∧
    localEntries i ≠ [] ∧ (localResidency i = .dontCare ↔ i = 10) := by
  decide

/-- **A frame leaves an image or a buffer in the same state as every frame does.** -/
theorem left_local (hworn : Worn f) (hi : i ∈ localPositions)
    (hm : (unfolded extent images acquired)[i]? = some m) :
    (timelineAt f ids acquired i m).moves.length = localMoves i ∧
      (timelineAt f ids acquired i m).left = worn i ∧
      (timelineAt f ids acquired i m).isShown = false := by
  have hes : (timelineAt f ids acquired i m).entries = localEntries i := entries_local hi hm
  obtain ⟨hjoins, hresidency⟩ : (f.dressed ids i m).joins = localJoins i ∧
      (f.dressed ids i m).residency = localResidency i := local_cases hi hm
  obtain ⟨hswapchain, hne, hcare⟩ := residency_local i hi
  have hreduction := Timeline.reduction_ofNode hes hjoins
  have hstart : (timelineAt f ids acquired i m).start ∈ [.undefined, worn i] := by
    unfold Timeline.start
    split
    · exact List.mem_cons_self
    · rcases hworn i with h | h <;> simp [timelineAt, Timeline.ofNode, Forest.dressed, h]
  obtain ⟨hmoves, hlast⟩ := along_local i hi _ hstart
  have hshown : (timelineAt f ids acquired i m).isShown = false := by
    refine Bool.and_eq_false_iff.2 (.inr (beq_eq_false_iff_ne.2 ?_))
    rw [← hresidency] at hswapchain
    exact hswapchain
  refine ⟨(congrArg (·.1.length) hreduction).trans hmoves, ?_, hshown⟩
  by_cases h10 : i = 10
  · subst h10
    rw [Timeline.left_of_idle (.inl (hresidency.trans (hcare.2 rfl)))]
    exact (hworn 10).elim id id
  · have hused : (timelineAt f ids acquired i m).node.residency ≠ .dontCare :=
      fun h => h10 (hcare.1 (hresidency.symm.trans h))
    rw [Timeline.left_of_used hused (hes ▸ hne), Timeline.finish, hshown]
    exact (congrArg Prod.snd hreduction).trans (hlast h10)

/-! ## The image drawn to last -/

section
variable {image : Handle .image}

theorem entries_window :
    (timelineAt f ids acquired (2 * acquired + 12) (imageNode extent image acquired)).entries =
      [⟨4, .colorAttachmentOutput, .colorAttachmentWrite, .colorAttachment⟩] := by
  have hused : Timeline.usageIn (2 * acquired + 12) [colorWrite (2 * acquired + 12)] =
      some ⟨.colorAttachmentOutput, .colorAttachmentWrite⟩ := by
    simp [Timeline.usageIn, Timeline.usesOf, colorWrite]
  have hupload : Timeline.usageIn (2 * acquired + 12) uploadUses = none := rfl
  have hcull : Timeline.usageIn (2 * acquired + 12) cullUses = none := rfl
  have hgbuffer : Timeline.usageIn (2 * acquired + 12) gbufferUses = none := rfl
  have hopaque : Timeline.usageIn (2 * acquired + 12) opaqueUses = none := rfl
  have hfullscreen : Timeline.usageIn (2 * acquired + 12) fullscreenUses = none := rfl
  simp only [timelineAt, Timeline.ofNode, frameWith, Timeline.entriesFrom, hused, hupload, hcull,
    hgbuffer, hopaque, hfullscreen]
  rfl

/-- **A frame leaves the image ready to be shown.** -/
theorem left_window (hworn : Worn f) {t : Timeline} (ht :
      t = timelineAt f ids acquired (2 * acquired + 12) (imageNode extent image acquired)) :
    t.moves.length = 1 ∧ t.left = .present ∧ t.isShown = true := by
  subst ht
  have hes : (timelineAt f ids acquired (2 * acquired + 12)
      (imageNode extent image acquired)).entries = _ := entries_window
  refine ⟨?_, ?_, rfl⟩
  · rw [Timeline.moves, timelineAt, Timeline.reduction_ofNode hes rfl]
    show (Move.along Move.imagesJoin (f.stateAt (2 * acquired + 12)) _).1.length = 1
    rcases hworn (2 * acquired + 12) with h | h <;> rw [h] <;> rfl
  · rw [Timeline.left_of_used (fun h => by cases h) (by rw [hes]; simp)]
    rfl

end

/-! ## The frame as a whole -/

section
variable {image : Handle .image} (h : Laid extent images acquired ids f)
  (hj : images[acquired]? = some image)

theorem exists_local (extent : Extent) (images : List (Handle .image)) (acquired : Nat)
    (hi : i ∈ localPositions) : ∃ m, (unfolded extent images acquired)[i]? = some m := by
  simp only [localPositions, List.mem_cons, List.not_mem_nil, or_false] at hi
  rcases hi with rfl | rfl | rfl | rfl | rfl | rfl | rfl | rfl <;> exact ⟨_, rfl⟩

include h hj

/-- The timelines of the images and buffers, and then that of the image drawn to last. -/
theorem exists_timelines : ∃ nodeAt : Nat → Node,
    (∀ i ∈ localPositions, (unfolded extent images acquired)[i]? = some (nodeAt i)) ∧
    Timeline.ofFrame f.nodes (frameWith acquired) =
      (localPositions.map fun i => timelineAt f ids acquired i (nodeAt i)) ++
        [timelineAt f ids acquired (2 * acquired + 12) (imageNode extent image acquired)] := by
  have hnode (i : Nat) : ∃ m, i ∈ localPositions →
      (unfolded extent images acquired)[i]? = some m := by
    by_cases hi : i ∈ localPositions
    · exact (exists_local extent images acquired hi).imp fun m hm _ => hm
    · exact ⟨swapchainNode extent images acquired, fun hmem => absurd hmem hi⟩
  choose nodeAt hnodeAt using hnode
  refine ⟨nodeAt, hnodeAt, ?_⟩
  rw [Timeline.ofFrame, touched_frameWith, List.filterMap_append, ← List.filterMap_eq_map]
  congr 1
  · refine List.filterMap_congr fun i hi => ?_
    rw [h.node (hnodeAt i hi)]
    rfl
  · rw [List.filterMap_cons, h.node (unfolded_image hj)]
    rfl

/-- **Every frame changes states equally often**, and shows one image. -/
theorem moves_and_shown (hworn : Worn f) :
    ((Timeline.ofFrame f.nodes (frameWith acquired)).flatMap (·.moves)).length +
      ((Timeline.ofFrame f.nodes (frameWith acquired)).filter (·.isShown)).length = 12 := by
  obtain ⟨nodeAt, hnodeAt, hall⟩ := exists_timelines h hj
  obtain ⟨hmoves, -, hshown⟩ := left_window hworn
    (t := timelineAt f ids acquired (2 * acquired + 12) (imageNode extent image acquired)) rfl
  have hlocal : ∀ is : List Nat, (∀ i ∈ is, i ∈ localPositions) →
      ((is.map fun i => timelineAt f ids acquired i (nodeAt i)).flatMap (·.moves)).length =
        (is.map localMoves).foldr (· + ·) 0 ∧
      (is.map fun i => timelineAt f ids acquired i (nodeAt i)).filter (·.isShown) = [] := by
    intro is his
    induction is with
    | nil => exact ⟨rfl, rfl⟩
    | cons i is ih =>
      obtain ⟨hi, his⟩ := List.forall_mem_cons.1 his
      obtain ⟨hmovesAt, -, hshownAt⟩ : (timelineAt f ids acquired i (nodeAt i)).moves.length =
          localMoves i ∧ _ ∧ (timelineAt f ids acquired i (nodeAt i)).isShown = false :=
        left_local hworn hi (hnodeAt i hi)
      obtain ⟨hcount, hnone⟩ := ih his
      refine ⟨?_, ?_⟩
      · rw [List.map_cons, List.flatMap_cons, List.length_append, hmovesAt, hcount]
        rfl
      · rw [List.map_cons, List.filter_cons, hshownAt]
        exact hnone
  obtain ⟨hcount, hnone⟩ := hlocal localPositions fun i hi => hi
  rw [hall, List.flatMap_append, List.length_append, List.filter_append, hcount, hnone]
  simp only [List.flatMap_cons, List.flatMap_nil, List.append_nil, hmoves, List.filter_cons,
    hshown]
  rfl

/-- **A frame leaves the forest laid out**, with each node as new or as frames leave it. -/
theorem laid_carry (hworn : Worn f) :
    Laid extent images acquired ids (f.carry (Timeline.ofFrame f.nodes (frameWith acquired))) ∧
      Worn (f.carry (Timeline.ofFrame f.nodes (frameWith acquired))) := by
  refine ⟨(Forest.map_nodes_carry (fun _ _ => rfl) f _).trans h, fun i => ?_⟩
  unfold Forest.stateAt
  rw [nodes_carry_ofFrame]
  cases hn : f.nodes[i]? with
  | none => exact .inl rfl
  | some n =>
    obtain ⟨m, hm, rfl⟩ := h.exists_node hn
    show (timelineAt f ids acquired i m).left = _ ∨ (timelineAt f ids acquired i m).left = _
    by_cases hi : i ∈ Timeline.touched (frameWith acquired)
    · rw [touched_frameWith, List.mem_append, List.mem_singleton] at hi
      rcases hi with hi | rfl
      · exact .inr (left_local hworn hi hm).2.1
      · obtain rfl := Option.some.inj (hm.symm.trans (unfolded_image hj))
        exact .inr (left_window hworn rfl).2.1
    · have hidle : (timelineAt f ids acquired i m).entries = [] :=
        not_not.1 fun hne => hi (Timeline.mem_touched_iff.2 hne)
      rw [Timeline.left_of_idle (.inr hidle)]
      exact hworn i

end

end Sample

end FrameGraph
