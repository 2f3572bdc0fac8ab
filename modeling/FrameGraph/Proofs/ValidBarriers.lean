import FrameGraph.Proofs.CarriedStates
import FrameGraph.Proofs.SupportedAccesses

/-!
# Barriers that Vulkan takes

Every barrier that a frame records names stages at both ends, and among them one that supports each
access. An image ends up in a layout that an image can be put into; a buffer has none
(`Analysis.IsValid`). It holds in every session, for the states that nodes carry from frame to frame
are in order as well (`Forest.CarriesSupported`, `barriers_valid`).
-/

set_option autoImplicit false

namespace FrameGraph

open Relation (ReflTransGen)

/-! ## What makes a barrier valid -/

namespace AccessState

/-- Whether the stages of a state support its accesses. -/
def IsSupported (s : AccessState) : Prop := s.stage.Supports s.access

/-- Whether an image can be put into the layout of a state. -/
def HasTarget (s : AccessState) : Prop := s.layout ≠ .undefined ∧ s.layout ≠ .preinitialized

theorem IsSupported.undefined : undefined.IsSupported := .none (by decide)

theorem IsSupported.present : present.IsSupported := .none (by decide)

theorem HasTarget.present : present.HasTarget := ⟨by decide, by decide⟩

theorem IsSupported.mergeRead {s t : AccessState} (hs : s.IsSupported) (ht : t.IsSupported) :
    (s.mergeRead t).IsSupported := hs.union ht

end AccessState

/-- Whether both ends of a barrier name stages that support their accesses. -/
structure BarrierMask.IsValid (m : BarrierMask) : Prop where
  src : m.srcStage.Supports m.srcAccess
  dst : m.dstStage.Supports m.dstAccess

/-- What is made available is part of what was accessed. -/
theorem BarrierMask.IsValid.between {src dst : AccessState} (hsrc : src.IsSupported)
    (hdst : dst.IsSupported) : (BarrierMask.between src dst).IsValid where
  src := hsrc.anti (Mask.subset_iff.2 fun _ hi => (Mask.mem_inter.1 hi).1)
  dst := hdst

/-- Whether the transitions of a batch are barriers that Vulkan takes. -/
structure TransitionBatch.IsValid (b : TransitionBatch) : Prop where
  images : ∀ t ∈ b.images, t.command.mask.IsValid ∧ t.dst.HasTarget
  buffers : ∀ t ∈ b.buffers,
    t.command.mask.IsValid ∧ t.src.layout = .undefined ∧ t.dst.layout = .undefined

/-- Whether a state in which a node is used is in order. -/
structure Node.UsedIn (n : Node) (s : AccessState) : Prop where
  isSupported : s.IsSupported
  layout : n.kind = .image ∧ s.HasTarget ∨ n.kind = .buffer ∧ s.layout = .undefined

/-- Whether all barriers and timelines of a frame are in order. -/
structure Analysis.IsValid (a : Analysis) : Prop where
  barriers : ∀ b ∈ a.barriers, b.IsValid
  endOfFrame : a.endOfFrame.IsValid
  entries : ∀ t ∈ a.timelines, ∀ e ∈ t.entries, t.node.UsedIn e.state

/-! ## Along a timeline -/

/-- What holds of the states of a timeline and of merged states holds of both ends of every move and
of the last state. -/
theorem Move.along_inv {P : AccessState → Prop} {joins : AccessState → AccessState → Bool}
    (hmerge : ∀ s t, P s → P t → P (s.mergeRead t)) {s : AccessState} {es : List TimelineEntry}
    (hs : P s) (hes : ∀ e ∈ es, P e.state) :
    (∀ m ∈ (along joins s es).1, P m.src ∧ P m.dst) ∧ P (along joins s es).2 := by
  induction es generalizing s with
  | nil => exact ⟨by simp [along], hs⟩
  | cons e es ih =>
    obtain ⟨he, hes⟩ := List.forall_mem_cons.1 hes
    cases hj : joins s e.state with
    | true =>
      rw [along_joined hj]
      exact ih (hmerge _ _ hs he) hes
    | false =>
      rw [along_moved hj]
      obtain ⟨hmoves, hlast⟩ := ih he hes
      exact ⟨List.forall_mem_cons.2 ⟨⟨hs, he⟩, hmoves⟩, hlast⟩

namespace Timeline

variable {t : Timeline}

theorem reduction_inv {P : AccessState → Prop} (hmerge : ∀ s t, P s → P t → P (s.mergeRead t))
    (hs : P t.start) (hes : ∀ e ∈ t.entries, P e.state) :
    (∀ m ∈ t.moves, P m.src ∧ P m.dst) ∧ P t.reduction.2 := by
  rw [moves, reduction_eq]
  exact Move.along_inv hmerge hs hes

/-- What holds of the undefined state and of the state that a node carries holds where a frame
starts. -/
theorem start_of {P : AccessState → Prop} (h : P .undefined) (hcurrent : P t.node.current) :
    P t.start := by
  unfold start
  split
  · exact h
  · exact hcurrent

theorem kind_of_imageTransition {src dst : AccessState} {x : ImageTransition}
    (h : t.imageTransition? src dst = some x) : t.node.kind = .image := by
  unfold imageTransition? at h
  split at h
  · next hp => rw [Node.kind, hp, Payload.kind]
  · cases h

theorem kind_of_bufferTransition {src dst : AccessState} {x : BufferTransition}
    (h : t.bufferTransition? src dst = some x) : t.node.kind = .buffer := by
  unfold bufferTransition? at h
  split at h
  · next hp => rw [Node.kind, hp, Payload.kind]
  · cases h

/-- A transition between states that are in order is valid. -/
theorem isValid_of_imageTransition {src dst : AccessState} {x : ImageTransition}
    (h : t.imageTransition? src dst = some x) (hsrc : src.IsSupported) (hdst : dst.IsSupported)
    (htarget : dst.HasTarget) : x.command.mask.IsValid ∧ x.dst.HasTarget := by
  unfold imageTransition? at h
  split at h
  · obtain rfl := Option.some.inj h
    exact ⟨.between hsrc hdst, htarget⟩
  · cases h

theorem isValid_of_bufferTransition {src dst : AccessState} {x : BufferTransition}
    (h : t.bufferTransition? src dst = some x) (hsrc : src.IsSupported) (hdst : dst.IsSupported)
    (hsrcLayout : src.layout = .undefined) (hdstLayout : dst.layout = .undefined) :
    x.command.mask.IsValid ∧ x.src.layout = .undefined ∧ x.dst.layout = .undefined := by
  unfold bufferTransition? at h
  split at h
  · obtain rfl := Option.some.inj h
    exact ⟨.between hsrc hdst, hsrcLayout, hdstLayout⟩
  · cases h

end Timeline

/-! ## A frame -/

/-- No access asks for the layout of an image whose contents the host has written. -/
theorem Usage.imageLayout_ne_preinitialized (access : AccessMask) (format : Format) :
    imageLayout access format ≠ .preinitialized := by
  unfold imageLayout
  refine ite_ne_of (by decide) fun _ => ite_ne_of (by decide) fun _ => ?_
  refine ite_ne_of (by decide) fun _ => ite_ne_of (by decide) fun _ => ?_
  refine ite_ne_of (by decide) fun _ => ite_ne_of (by decide) fun _ => ?_
  refine ite_ne_of (ite_ne_of (by decide) fun _ => by decide) fun _ => ?_
  exact ite_ne_of (by decide) fun _ => by decide

/-- Whether the states that nodes carry are in order. -/
def Forest.CarriesSupported (f : Forest) : Prop :=
  ∀ (i : Nat) n, f.nodes[i]? = some n → n.current.IsSupported

section
variable {f f' : Forest} {passes : List Pass} {shaders : Registry} {uses : List PassUses}
  {a : Analysis} {t : Timeline} {e : TimelineEntry}

/-- **Every entry of a timeline is in order.** -/
theorem usedIn_of_entry (hf : f.Seated) (huses : (frameUses f shaders passes).result = .ok uses)
    (ht : t ∈ (Analysis.ofUses f uses).timelines) (he : e ∈ t.entries) :
    t.node.UsedIn e.state := by
  obtain ⟨htouched, hn, hentries⟩ := Timeline.mem_ofFrame_iff.1 ht
  obtain ⟨us, u, hus, hu, hstate⟩ := (Timeline.mem_entries_iff ht).1 he
  constructor
  · rw [hstate]
    refine Timeline.supports_usageIn hu fun v hv => ?_
    obtain ⟨pass, -, use, -, p, -, -, hclassify, -⟩ :=
      exists_declares huses (List.mem_of_getElem? hus) hv
    exact Usage.supports_classify hclassify
  · rw [hentries] at he
    rcases isTracked_of_touched hf huses hn htouched with hkind | hkind
    · exact .inr ⟨hkind, layout_of_buffer_entry (i := t.index) hkind he⟩
    · refine .inl ⟨hkind, (layout_of_entry huses hn hkind he).1, ?_⟩
      obtain ⟨desc, hdesc⟩ := Option.isSome_iff_exists.1 (t.node.isSome_imageDesc hkind)
      simp only [hstate, Usage.stateOf, hdesc]
      exact Usage.imageLayout_ne_preinitialized _ _

/-- A state that a frame starts from, passes through or ends in is supported, and one of a buffer has
no layout. -/
theorem supported_along (hf : f.Seated) (hfit : f.CarriesFit)
    (hcarry : f.CarriesSupported)
    (huses : (frameUses f shaders passes).result = .ok uses)
    (ht : t ∈ (Analysis.ofUses f uses).timelines) :
    (∀ m ∈ t.moves, (m.src.IsSupported ∧ (t.node.kind = .buffer → m.src.layout = .undefined)) ∧
      m.dst.IsSupported ∧ (t.node.kind = .buffer → m.dst.layout = .undefined)) ∧
      t.reduction.2.IsSupported ∧ (t.node.kind = .buffer → t.reduction.2.layout = .undefined) := by
  obtain ⟨-, hn, -⟩ := Timeline.mem_ofFrame_iff.1 ht
  let P (s : AccessState) : Prop :=
    s.IsSupported ∧ (t.node.kind = .buffer → s.layout = .undefined)
  have hstart : P t.start :=
    Timeline.start_of (P := P) ⟨.undefined, fun _ => rfl⟩ ⟨hcarry _ _ hn, (hfit _ _ hn).buffer⟩
  refine Timeline.reduction_inv (P := P) (fun s s' hs hs' => ⟨hs.1.mergeRead hs'.1, hs.2⟩) hstart
    fun e he => ?_
  obtain ⟨hsupported, ⟨himage, -⟩ | ⟨-, hlayout⟩⟩ := usedIn_of_entry hf huses ht he
  · refine ⟨hsupported, fun hbuffer => ?_⟩
    rw [himage] at hbuffer
    cases hbuffer
  · exact ⟨hsupported, fun _ => hlayout⟩

/-- **A frame that starts from states that are in order records barriers that are.** -/
theorem isValid_of_frame (hf : f.Seated) (hfit : f.CarriesFit)
    (hcarry : f.CarriesSupported)
    (h : (analyze passes f shaders).result = .ok (a, f')) : a.IsValid := by
  obtain ⟨uses, huses, rfl, -⟩ := analyze_ok_iff.1 h
  refine ⟨fun b hb => ?_, ⟨fun x hx => ?_, fun x hx => ?_⟩,
    fun t ht e he => usedIn_of_entry hf huses ht he⟩
  · obtain ⟨p, -, rfl⟩ := List.mem_map.1 hb
    refine ⟨fun x hx => ?_, fun x hx => ?_⟩
    · obtain ⟨t, ht, hx⟩ := List.mem_flatMap.1 hx
      obtain ⟨m, hm, hx⟩ := List.mem_filterMap.1 hx
      obtain ⟨hm, -⟩ := List.mem_filter.1 hm
      obtain ⟨⟨hsrc, -⟩, hdst, -⟩ := (supported_along hf hfit hcarry huses ht).1 m hm
      refine Timeline.isValid_of_imageTransition hx hsrc hdst ?_
      -- a move leads into an entry, and an image is never used without a layout
      obtain ⟨e, he, -, hstate⟩ := Timeline.exists_entry_of_mem_moves hm
      rcases (usedIn_of_entry hf huses ht he).layout with ⟨-, htarget⟩ | ⟨hbuffer, -⟩
      · rw [hstate]
        exact htarget
      · rw [Timeline.kind_of_imageTransition hx] at hbuffer
        cases hbuffer
    · obtain ⟨t, ht, hx⟩ := List.mem_flatMap.1 hx
      obtain ⟨m, hm, hx⟩ := List.mem_filterMap.1 hx
      obtain ⟨⟨hsrc, hsrcLayout⟩, hdst, hdstLayout⟩ :=
        (supported_along hf hfit hcarry huses ht).1 m (List.mem_filter.1 hm).1
      have hkind := Timeline.kind_of_bufferTransition hx
      exact Timeline.isValid_of_bufferTransition hx hsrc hdst (hsrcLayout hkind) (hdstLayout hkind)
  · obtain ⟨t, ht, hx⟩ := List.mem_filterMap.1 hx
    have hlast := (supported_along hf hfit hcarry huses (List.mem_filter.1 ht).1).2.1
    exact Timeline.isValid_of_imageTransition hx hlast .present .present
  · cases hx

/-- A frame leaves states that are in order. -/
theorem supported_of_frame (hf : f.Seated) (hfit : f.CarriesFit)
    (h : (analyze passes f shaders).result = .ok (a, f'))
    (hcarry : f.CarriesSupported) : f'.CarriesSupported := by
  intro i n' hn'
  obtain ⟨n, s, hn, rfl, ⟨t, ht, rfl, -, rfl⟩ | ⟨rfl, -⟩⟩ := exists_node_before h hn'
  · obtain ⟨uses, huses, rfl, -⟩ := analyze_ok_iff.1 h
    show t.finish.IsSupported
    unfold Timeline.finish
    split
    · exact .present
    · exact (supported_along hf hfit hcarry huses ht).2.1
  · exact hcarry i n hn

end

/-- Operations leave states that are in order. -/
theorem Operation.supported {δ : Type} [Device δ] {d d' : δ} {o : Operation} {f f' : Forest}
    (h : o.run f d = .ok (f', d')) (hcarry : f.CarriesSupported) : f'.CarriesSupported := by
  intro i n' hn'
  rcases Operation.carriesFrom h i n' hn' with hnone | ⟨n, hn, hkept⟩
  · rw [hnone]
    exact .undefined
  · rw [hkept]
    exact hcarry i n hn

/-! ## Sessions -/

/-- **Every barrier of every frame is one that Vulkan takes**, and every entry of a timeline is in
order. -/
theorem barriers_valid {δ : Type} [Device δ] {Aside : ObjectCache × δ → ObjectCache × δ → Prop}
    {d : δ} {s : Session δ} {passes : List Pass} {shaders : Registry} {a : Analysis} {f' : Forest}
    (hrun : ReflTransGen (Session.Step Aside) { device := d } s)
    (h : (analyze passes s.forest shaders).result = .ok (a, f')) : a.IsValid := by
  have hkept : s.forest.Seated ∧ s.forest.CarriesFit ∧
      s.forest.CarriesSupported := by
    refine Session.forest_kept
      (P := fun f => f.Seated ∧ f.CarriesFit ∧ f.CarriesSupported)
      (fun ho hf => ⟨Operation.seated ho hf.1, Operation.carriesFit ho hf.2.1,
        Operation.supported ho hf.2.2⟩)
      (fun ha hf => ⟨seated_of_frame ha hf.1, carriesFit_of_frame hf.1 ha hf.2.1,
        supported_of_frame hf.1 hf.2.1 ha hf.2.2⟩) hrun ⟨.empty, ?_, ?_⟩
    · intro i n hn
      simp at hn
    · intro i n hn
      simp at hn
  exact isValid_of_frame hkept.1 hkept.2.1 hkept.2.2 h

/-- The window is shown once more, from the states in which the frame before left everything. -/
theorem Notes.analyze_used : (analyze passes used.forest {}).result =
    .ok (Analysis.ofUses used.forest uses, used.forest) := rfl

theorem barriers_valid_notes :
    Notes.Run { device := {} } Notes.used ∧
    ∃ a, (analyze Notes.passes Notes.used.forest {}).result = .ok (a, Notes.used.forest) ∧
      a.barrierCount = 2 ∧ a.IsValid :=
  ⟨Notes.run_used, _, Notes.analyze_used, rfl, barriers_valid Notes.run_used Notes.analyze_used⟩

end FrameGraph
