import FrameGraph.Proofs.SampleTimelines
import FrameGraph.Proofs.Tallies

/-!
# Render targets of the sample frame

Both render passes of the sample frame start from cleared contents and keep what they draw
(`AttachmentUse.finish_cleared`). So the render passes have the same description in every frame, and
a framebuffer differs from that of another frame only in the view of the image that is drawn to last
(`Sample.targets_eq`).
-/

set_option autoImplicit false

namespace FrameGraph

/-! ## Cleared attachments -/

/-- An attachment without stencil that starts from cleared contents and keeps what is drawn. -/
def AttachmentUse.cleared (a : AttachmentUse) (layout : ImageLayout) : Attachment where
  toAttachmentUse := a
  loadOp := .clear
  storeOp := .store
  stencilLoadOp := .dontCare
  stencilStoreOp := .dontCare
  initialLayout := .undefined
  finalLayout := layout
  layout

/-- **What is drawn first in a frame is drawn over cleared contents**, and stored if it is used
later or is a color. -/
theorem AttachmentUse.finish_cleared {ts : List Timeline} {t : Timeline} {a : AttachmentUse}
    {pass : Nat} {state : AccessState} {rest : List TimelineEntry}
    (ht : ts.find? (·.index == a.tracked) = some t) (hes : t.entries = ⟨pass, state⟩ :: rest)
    (hrole : a.role = .output) (hresidency : t.node.residency ≠ .persistent)
    (hreads : state.access.meets attachmentReads = false)
    (hlater : a.kind.isDepthOrStencil = false ∨ rest ≠ [])
    (hstencil : a.format.hasStencil = false) :
    a.finish ts pass = a.cleared state.layout := by
  have hcleared : a.isCleared t.node.residency 0 state = true := by
    simp [isCleared, hrole, hresidency, hreads]
  have hdropped : a.isDropped t.node.residency (!rest.isEmpty) = false := by
    rcases hlater with hkind | hrest
    · simp [isDropped, hkind]
    · simp [isDropped, hrest]
  have hsplit : t.entries = [] ++ ⟨pass, state⟩ :: rest := hes
  have hsettled := finish_eq_settle ht hsplit (by simp)
  rw [List.length_nil, hcleared, hdropped] at hsettled
  rw [hsettled, settle, cleared]
  simp [hstencil]

namespace Sample

variable {extent : Extent} {images : List (Handle .image)} {acquired : Nat} {ids : Nat → Nat}
  {f : Forest} {image : Handle .image}

/-! ## The render passes -/

/-- What color, normal and depth are drawn to. -/
def gbufferDrawn (extent : Extent) (ids : Nat → Nat) : RenderTarget Attachment :=
  (gbufferTarget extent ids).map fun a =>
    a.cleared (if a.kind = .color then .colorAttachment else .depthAttachment)

/-- What the lighting is drawn to. -/
def lightingDrawn (extent : Extent) (ids : Nat → Nat) (acquired : Nat) : RenderTarget Attachment :=
  (lightingTarget extent ids acquired).map (·.cleared .colorAttachment)

theorem drawn_local : ∀ i ∈ [0, 2, 4],
    i ∈ localPositions ∧ localResidency i ≠ .persistent := by
  decide

section
variable (h : Laid extent images acquired ids f) (hj : images[acquired]? = some image)
include h hj

/-- **The attachments of the frame.** -/
theorem targets_eq : (Analysis.ofUses f (uses extent ids acquired)).targets =
    [gbufferDrawn extent ids, lightingDrawn extent ids acquired] := by
  have hlocal {a : AttachmentUse} {state : AccessState} {rest : List TimelineEntry}
      (hi : a.tracked ∈ [0, 2, 4]) (hes : localEntries a.tracked = ⟨2, state⟩ :: rest)
      (hrole : a.role = .output)
      (hreads : state.access.meets AttachmentUse.attachmentReads = false)
      (hlater : a.kind.isDepthOrStencil = false ∨ rest ≠ [])
      (hstencil : a.format.hasStencil = false) :
      a.finish (Timeline.ofFrame f.nodes (frameWith acquired)) 2 = a.cleared state.layout := by
    obtain ⟨hi, hresidency⟩ := drawn_local _ hi
    obtain ⟨m, hm⟩ := exists_local extent images acquired hi
    have htouched : a.tracked ∈ Timeline.touched (frameWith acquired) := by
      rw [touched_frameWith]
      exact List.mem_append_left _ hi
    refine AttachmentUse.finish_cleared (Timeline.find?_ofFrame htouched (h.node hm))
      ((entries_local hi hm).trans hes) hrole ?_ hreads hlater hstencil
    rw [← (local_cases (f := f) hi hm).2] at hresidency
    exact hresidency
  have hcolor : Format.hasStencil .r8g8b8a8Unorm = false := rfl
  have hnormal : Format.hasStencil .r16g16b16a16Sfloat = false := rfl
  have hdepth : Format.hasStencil .d32Sfloat = false := rfl
  have hshown : Format.hasStencil .b8g8r8a8Unorm = false := rfl
  have hwindow : (2 * acquired + 12) ∈ Timeline.touched (frameWith acquired) := by
    rw [touched_frameWith]
    exact List.mem_append_right _ (List.mem_singleton.2 rfl)
  have hgbuffer : (gbufferTarget extent ids).map
      (AttachmentUse.finish (Timeline.ofFrame f.nodes (frameWith acquired)) 2) =
        gbufferDrawn extent ids := by
    simp only [RenderTarget.map, gbufferTarget, List.map_cons, List.map_nil,
      hlocal (a := drawn "albedo" (ids 1) .color .r8g8b8a8Unorm 0) (by simp [drawn]) rfl rfl rfl
        (.inl rfl) hcolor,
      hlocal (a := drawn "normal" (ids 3) .color .r16g16b16a16Sfloat 2) (by simp [drawn]) rfl rfl
        rfl (.inl rfl) hnormal,
      hlocal (a := drawn "depth" (ids 5) .depthStencil .d32Sfloat 4) (by simp [drawn]) rfl rfl rfl
        (.inr (by simp)) hdepth]
    rfl
  have hlighting : (lightingTarget extent ids acquired).map
      (AttachmentUse.finish (Timeline.ofFrame f.nodes (frameWith acquired)) 4) =
        lightingDrawn extent ids acquired := by
    have hfind := Timeline.find?_ofFrame hwindow (h.node (unfolded_image hj))
    simp only [RenderTarget.map, lightingTarget, List.map_cons, List.map_nil,
      AttachmentUse.finish_cleared (a := drawn swapchain (ids (2 * acquired + 13)) .color
        .b8g8r8a8Unorm (2 * acquired + 12)) hfind entries_window rfl (fun h => by cases h) rfl
        (.inl rfl) hshown]
    rfl
  show [_, _] = [_, _]
  exact congrArg₂ (fun s t => [s, t]) hgbuffer hlighting

end

end Sample

end FrameGraph
