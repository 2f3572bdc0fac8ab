import FrameGraph.Proofs.Declarations
import FrameGraph.Proofs.Timelines

/-!
# Accesses that their stages support

Vulkan takes a pair of stages and accesses only if each access is one that some stage can make:
`AccessMask.supportTable` lists which, and `StageMask.Supports` says that a pair is in order.

Every declaration that is accepted comes to such a pair (`Usage.supports_classify`), whatever the
pass, the shader and the visibility of its bindings, and so do all uses of a node in a pass together
(`Timeline.supports_usageIn`).
-/

set_option autoImplicit false

namespace FrameGraph

/-! ## Which stages make which accesses -/

namespace StageMask

/-- The stages of a draw. -/
def graphics : StageMask :=
  drawIndirect ∪ vertexInput ∪ vertexShader ∪ tessellationControl ∪ tessellationEvaluation ∪
    geometryShader ∪ taskShader ∪ meshShader ∪ shadingRateAttachment ∪ earlyFragmentTests ∪
    fragmentShader ∪ lateFragmentTests ∪ colorAttachmentOutput

/-- The stages that run a shader. -/
def programmable : StageMask :=
  vertexShader ∪ tessellationControl ∪ tessellationEvaluation ∪ geometryShader ∪ fragmentShader ∪
    computeShader ∪ taskShader ∪ meshShader

def every : StageMask := ⟨BitVec.allOnes 64⟩

/-- The stages of a mask, with all stages that its collective flags stand for. -/
def expanded (m : StageMask) : StageMask :=
  m ∪ ((if allGraphics ⊆ m then graphics else ∅) ∪ (if allCommands ⊆ m then every else ∅))

theorem expanded_mono {m m' : StageMask} (h : m ⊆ m') : m.expanded ⊆ m'.expanded := by
  rw [Mask.subset_iff] at h ⊢
  have hcollective {flag stages : StageMask} {i : Nat}
      (hi : i ∈ (if flag ⊆ m then stages else ∅)) : i ∈ (if flag ⊆ m' then stages else ∅) := by
    split at hi
    · next hflag =>
      rw [if_pos (Mask.subset_iff.2 fun j hj => h j (Mask.subset_iff.1 hflag j hj))]
      exact hi
    · exact absurd hi (Mask.not_mem_empty i)
  intro i hi
  simp only [expanded, Mask.mem_union] at hi ⊢
  exact hi.imp (h i) (Or.imp hcollective hcollective)

end StageMask

/-- Vulkan's table of accesses and the stages that support them, for the flags that have a name
here. Stages of further extensions are left out, so no access is taken for supported that is not. -/
def AccessMask.supportTable : List (AccessMask × StageMask) :=
  [(indirectCommandRead, .drawIndirect),
   (indexRead ∪ vertexAttributeRead, .vertexInput),
   (uniformRead ∪ shaderRead ∪ shaderWrite ∪ shaderSampledRead ∪ shaderStorageRead ∪
      shaderStorageWrite, .programmable),
   (inputAttachmentRead, .fragmentShader),
   (colorAttachmentRead ∪ colorAttachmentWrite, .colorAttachmentOutput),
   (depthStencilAttachmentRead ∪ depthStencilAttachmentWrite,
      StageMask.earlyFragmentTests ∪ StageMask.lateFragmentTests),
   (shadingRateAttachmentRead, .shadingRateAttachment),
   (transferRead ∪ transferWrite, .transfer),
   (hostRead ∪ hostWrite, .host),
   (memoryRead ∪ memoryWrite, .every)]

/-- Whether there are stages, and one that supports it for every access. -/
structure StageMask.Supports (s : StageMask) (a : AccessMask) : Prop where
  nonempty : s ≠ ∅
  supported : ∀ i, i ∈ a →
    ∃ row ∈ AccessMask.supportTable, i ∈ row.1 ∧ row.2.meets s.expanded = true

namespace StageMask.Supports

variable {s t : StageMask} {a b : AccessMask}

/-- Stages that one row of the table lists support the accesses that it lists. -/
theorem of_row {r : AccessMask × StageMask} (hr : r ∈ AccessMask.supportTable)
    (hs : r.2.meets s.expanded = true) (ha : a ⊆ r.1) (hne : s ≠ ∅) : s.Supports a :=
  ⟨hne, fun i hi => ⟨r, hr, Mask.subset_iff.1 ha i hi, hs⟩⟩

theorem none (hne : s ≠ ∅) : s.Supports ∅ :=
  ⟨hne, fun i hi => absurd hi (Mask.not_mem_empty i)⟩

/-- Fewer accesses need no more. -/
theorem anti (h : s.Supports a) (hb : b ⊆ a) : s.Supports b :=
  ⟨h.nonempty, fun i hi => h.supported i (Mask.subset_iff.1 hb i hi)⟩

/-- More stages support no less. -/
theorem mono (h : s.Supports a) (ht : s ⊆ t) : t.Supports a := by
  refine ⟨?_, fun i hi => ?_⟩
  · rintro rfl
    refine h.nonempty (Mask.ext fun i => ?_)
    exact ⟨Mask.subset_iff.1 ht i, fun hi => absurd hi (Mask.not_mem_empty i)⟩
  · obtain ⟨row, hrow, ha, hmeets⟩ := h.supported i hi
    obtain ⟨j, hj, hs⟩ := Mask.meets_iff.1 hmeets
    exact ⟨row, hrow, ha,
      Mask.meets_iff.2 ⟨j, hj, Mask.subset_iff.1 (expanded_mono ht) j hs⟩⟩

/-- Pairs that are in order can be joined. -/
theorem union (hs : s.Supports a) (ht : t.Supports b) : (s ∪ t).Supports (a ∪ b) := by
  have hs := hs.mono (Mask.subset_union_left s t)
  have ht := ht.mono (Mask.subset_union_right s t)
  refine ⟨hs.nonempty, fun i hi => ?_⟩
  rcases Mask.mem_union.1 hi with hi | hi
  · exact hs.supported i hi
  · exact ht.supported i hi

/-- A shader makes its accesses at any stage that runs one. -/
theorem shader (mode : AccessMode) (uniform : Bool) (hs : programmable.meets s.expanded = true)
    (hne : s ≠ ∅) : s.Supports (Usage.shaderAccess mode uniform) := by
  refine of_row (r := (AccessMask.uniformRead ∪ AccessMask.shaderRead ∪ AccessMask.shaderWrite ∪
    AccessMask.shaderSampledRead ∪ AccessMask.shaderStorageRead ∪ AccessMask.shaderStorageWrite,
    .programmable)) (by decide) hs ?_ hne
  cases mode <;> cases uniform <;> decide

end StageMask.Supports

/-! ## What a use comes to -/

namespace Usage

section
variable {pass : String} {use : Use} {n : Node} {u : Usage}

/-- Color is written, and read, where it is put out. -/
theorem supports_color :
    StageMask.colorAttachmentOutput.Supports
      (AccessMask.colorAttachmentWrite ∪ AccessMask.colorAttachmentRead) :=
  .of_row (r := (AccessMask.colorAttachmentRead ∪ AccessMask.colorAttachmentWrite,
    .colorAttachmentOutput)) (by decide) (by decide) (by decide) (by decide)

/-- Depth is written, and read, where it is tested. -/
theorem supports_depth {s : StageMask} (hne : s ≠ ∅)
    (hs : (StageMask.earlyFragmentTests ∪ StageMask.lateFragmentTests).meets s.expanded = true) :
    s.Supports (AccessMask.depthStencilAttachmentWrite ∪ AccessMask.depthStencilAttachmentRead) :=
  .of_row (r := (AccessMask.depthStencilAttachmentRead ∪ AccessMask.depthStencilAttachmentWrite,
    StageMask.earlyFragmentTests ∪ StageMask.lateFragmentTests)) (by decide) hs (by decide) hne

theorem supports_ofOutput (h : ofOutput pass use = .ok u) : u.stage.Supports u.access := by
  have hdepth := supports_depth (s := depthStages) (by decide) (by decide)
  unfold ofOutput at h
  dsimp only at h
  split at h
  · split at h
    · cases h
      exact hdepth.anti (Mask.subset_union_left _ _)
    · cases h
      exact hdepth
    · cases h
  · split at h
    · split at h
      · cases h
        exact supports_color.anti (Mask.subset_union_left _ _)
      · cases h
        exact supports_color
      · cases h
    · cases h

theorem supports_ofInput (use : Use) : (ofInput use).stage.Supports (ofInput use).access := by
  have hreads {s : StageMask} (hs : StageMask.fragmentShader.meets s.expanded = true) (hne : s ≠ ∅) :
      s.Supports .inputAttachmentRead :=
    .of_row (r := (AccessMask.inputAttachmentRead, .fragmentShader)) (by decide) hs
      (by decide) hne
  have hdepth := (supports_depth (s := .lateFragmentTests) (by decide) (by decide)).anti
    (Mask.subset_union_left AccessMask.depthStencilAttachmentWrite
      AccessMask.depthStencilAttachmentRead)
  have hcolor := supports_color.anti
    (Mask.subset_union_left AccessMask.colorAttachmentWrite AccessMask.colorAttachmentRead)
  unfold ofInput
  dsimp only
  cases use.kind.isDepthOrStencil with
  | true =>
    split
    · exact (hreads (by decide) (by decide)).union hdepth
    · exact hreads (by decide) (by decide)
  | false =>
    split
    · exact (hreads (by decide) (by decide)).union hcolor
    · exact hreads (by decide) (by decide)

theorem supports_ofAttachment (h : ofAttachment pass use n = .ok u) :
    u.stage.Supports u.access := by
  unfold ofAttachment at h
  split at h
  · cases h
  · split at h
    · cases h
    · split at h
      · exact supports_ofOutput h
      · split at h
        · split at h
          · cases h
          · cases h
            exact .of_row (r := (AccessMask.shadingRateAttachmentRead, .shadingRateAttachment))
              (by decide) (by decide) (by decide) (by decide)
        · cases h
        · cases h
          exact supports_ofInput use

theorem supports_ofIndirect (h : ofIndirect pass use n = .ok u) : u.stage.Supports u.access := by
  unfold ofIndirect at h
  split at h
  · cases h
  · cases h
    exact .of_row (r := (AccessMask.indirectCommandRead, .drawIndirect))
      (by decide) (by decide) (by decide) (by decide)

/-- The stages of a visibility run shaders. -/
theorem namedStages_subset (visibility : ShaderStages) :
    namedStages visibility ⊆ StageMask.programmable := by
  have hfold (rows : List (ShaderStages × StageMask)) (m : StageMask)
      (hrows : ∀ e ∈ rows, e.2 ⊆ StageMask.programmable) (hm : m ⊆ StageMask.programmable) :
      rows.foldl (fun m e => m ∪ e.2) m ⊆ StageMask.programmable := by
    induction rows generalizing m with
    | nil => exact hm
    | cons e rows ih =>
      obtain ⟨he, hrows⟩ := List.forall_mem_cons.1 hrows
      refine ih _ hrows (Mask.subset_iff.2 fun i hi => ?_)
      exact (Mask.mem_union.1 hi).elim (Mask.subset_iff.1 hm i) (Mask.subset_iff.1 he i)
  have htable : ∀ e ∈ stageTable, e.2 ⊆ StageMask.programmable := by decide
  exact hfold _ _ (fun e he => htable e (List.mem_of_mem_filter he))
    (Mask.subset_iff.2 fun i hi => absurd hi (Mask.not_mem_empty i))

/-- A binding is seen at some stage that runs a shader, also where its visibility names none. -/
theorem visibleAt_ok {visibility : ShaderStages} {s : StageMask}
    (h : (visibleAt visibility).result = .ok s) :
    s ≠ ∅ ∧ StageMask.programmable.meets s.expanded = true := by
  unfold visibleAt at h
  split at h
  · cases h
    decide
  · next hne =>
    cases h
    refine ⟨hne, ?_⟩
    obtain ⟨i, hi⟩ : ∃ i, i ∈ namedStages visibility := by
      by_contra hnone
      refine hne (Mask.ext fun i => ?_)
      exact ⟨fun hi => absurd ⟨i, hi⟩ hnone, fun hi => absurd hi (Mask.not_mem_empty i)⟩
    exact Mask.meets_iff.2 ⟨i, Mask.subset_iff.1 (namedStages_subset visibility) i hi,
      Mask.mem_union.2 (.inl hi)⟩

theorem supports_ofDraw {shader : Shader} (h : (ofDraw pass use n shader).result = .ok u) :
    u.stage.Supports u.access := by
  unfold ofDraw at h
  split at h
  · exact supports_ofIndirect h
  · simp only [Traced.result_bind, Except.bind_eq_ok_iff] at h
    obtain ⟨b, -, stage, hstage, h⟩ := h
    cases h
    obtain ⟨hne, hmeets⟩ := visibleAt_ok hstage
    exact .shader _ _ hmeets hne

theorem supports_ofCompute {shader : Option Shader} (h : ofCompute pass use n shader = .ok u) :
    u.stage.Supports u.access := by
  have hshader (uniform : Bool) :
      StageMask.computeShader.Supports (shaderAccess use.mode uniform) :=
    .shader _ _ (by decide) (by decide)
  unfold ofCompute at h
  split at h
  · exact supports_ofIndirect h
  · dsimp only at h
    split at h
    · obtain ⟨b, -, h⟩ := Except.bind_eq_ok_iff.1 h
      cases h
      exact hshader _
    · cases h
      exact hshader _

theorem supports_ofCopy (use : Use) : (ofCopy use).stage.Supports (ofCopy use).access := by
  refine .of_row (r := (AccessMask.transferRead ∪ AccessMask.transferWrite, .transfer))
    (by decide) (show StageMask.transfer.meets StageMask.transfer.expanded = true by decide) ?_
    (show StageMask.transfer ≠ ∅ by decide)
  unfold ofCopy
  cases use.mode <;> decide

/-- **What an accepted use comes to, its stages support.** -/
theorem supports_classify {shaders : Registry} {pass : Pass}
    (h : (classify shaders pass use n).result = .ok u) : u.stage.Supports u.access := by
  unfold classify at h
  split at h
  · exact supports_ofAttachment h
  · simp only [Traced.result_bind, Except.bind_eq_ok_iff] at h
    obtain ⟨shader, -, h⟩ := h
    exact supports_ofDraw h
  · simp only [Traced.result_bind, Except.bind_eq_ok_iff] at h
    obtain ⟨shader, -, h⟩ := h
    exact supports_ofCompute h
  · cases h
    exact supports_ofCopy use

end

end Usage

/-- Uses that are in order are in order together. -/
theorem Timeline.supports_usageIn {index : Nat} {uses : List NodeUse} {u : Usage}
    (h : usageIn index uses = some u)
    (huses : ∀ v, ⟨index, v⟩ ∈ uses → v.stage.Supports v.access) : u.stage.Supports u.access := by
  have hfold (vs : List Usage) (w : Usage) (hw : w.stage.Supports w.access)
      (hvs : ∀ v ∈ vs, v.stage.Supports v.access) :
      (vs.foldl Usage.merge w).stage.Supports (vs.foldl Usage.merge w).access := by
    induction vs generalizing w with
    | nil => exact hw
    | cons v vs ih =>
      obtain ⟨hv, hvs⟩ := List.forall_mem_cons.1 hvs
      exact ih _ (hw.union hv) hvs
  unfold usageIn at h
  split at h
  · cases h
  · next v vs hv =>
    obtain rfl := Option.some.inj h
    have hall : ∀ w ∈ v :: vs, w.stage.Supports w.access := fun w hw =>
      huses w (mem_usesOf.1 (hv ▸ hw))
    obtain ⟨hv, hvs⟩ := List.forall_mem_cons.1 hall
    exact hfold vs v hv hvs

end FrameGraph
