import FrameGraph.Proofs.SampleForest
import FrameGraph.Proofs.SampleShaders

/-!
# What the passes of the sample frame do

The uses that the sample frame declares, with its resources laid out and its shaders loaded
(`Sample.frameUses_eq`). They change from frame to frame only in the image that is drawn to last.
-/

set_option autoImplicit false

namespace FrameGraph

/-! ## Attachments -/

namespace RenderTarget

variable {t : RenderTarget AttachmentUse} {a : AttachmentUse}

/-- A view that is new takes the next place. -/
theorem place_of_new (hnew : ∀ x ∈ t.attachments, x.view ≠ a.view) :
    t.place a = t.attachments.length ∧ t.withAttachment a = t.attachments ++ [a] := by
  have hnone : t.attachments.findIdx? (·.view == a.view) = none :=
    List.findIdx?_eq_none_iff.2 fun x hx => beq_eq_false_iff_ne.2 (hnew x hx)
  have hany : t.attachments.any (·.view == a.view) = false :=
    List.any_eq_false.2 fun x hx => by simpa using hnew x hx
  rw [place, hnone, withAttachment, hany]
  exact ⟨rfl, rfl⟩

theorem add_color (hnew : ∀ x ∈ t.attachments, x.view ≠ a.view) (hrole : a.role = .output)
    (hkind : a.kind.isDepthOrStencil = false) (hcolor : t.attachments.length ∉ t.color)
    (extent : Extent) : t.add a extent = .ok { t with
      attachments := t.attachments ++ [a]
      color := t.color ++ [t.attachments.length]
      extent := if (t.attachments ++ [a]).length = 1 then extent else t.extent } := by
  obtain ⟨hplace, hwith⟩ := place_of_new hnew
  simp only [add, hplace, hwith, hrole, hkind, addPlace, if_neg hcolor]
  rfl

theorem add_depth (hnew : ∀ x ∈ t.attachments, x.view ≠ a.view) (hrole : a.role = .output)
    (hkind : a.kind.isDepthOrStencil = true) (hdepth : t.depth = none) (extent : Extent) :
    t.add a extent = .ok { t with
      attachments := t.attachments ++ [a]
      depth := some t.attachments.length
      extent := if (t.attachments ++ [a]).length = 1 then extent else t.extent } := by
  obtain ⟨hplace, hwith⟩ := place_of_new hnew
  simp only [add, hplace, hwith, hrole, hkind, hdepth, if_true]

end RenderTarget

/-! ## Declaring uses -/

theorem Forest.isBacked_dressed (f : Forest) (ids : Nat → Nat) (i : Nat) (m : Node) :
    (f.dressed ids i m).isBacked = true := by
  unfold dressed Node.isBacked
  cases m.payload <;> rfl

section
variable {f : Forest} {shaders : Registry} {pass : Pass} {index : Nat} {use : Use} {n : Node}
  {shader : Shader} {phase : String}

/-- A pass that is no render pass is accepted if each of its uses is. -/
theorem passUses_of_declares {us : List NodeUse} (hkind : pass.kind ≠ .render)
    (h : List.Forall₂ (Declares f shaders pass) pass.uses us) :
    (passUses f shaders index pass).result = .ok ⟨us, none⟩ := by
  have hfrom : ∀ (uses : List Use) (us done : List NodeUse),
      List.Forall₂ (Declares f shaders pass) uses us →
      (uses.foldlM (addUse f shaders pass) ⟨done, none⟩).result = .ok ⟨done ++ us, none⟩ := by
    intro uses us done h
    rw [Traced.result_foldlM]
    induction h generalizing done with
    | nil => simp [pure, Except.pure]
    | @cons use u uses us hu hus ih =>
      obtain ⟨p, hp, hb, husage, hindex⟩ := hu
      refine Except.bind_eq_ok_iff.2 ⟨⟨done ++ [u], none⟩, addUse_eq_ok_iff.2 ⟨p, u.usage, none, hp,
        hb, husage, rfl, ?_⟩, ?_⟩
      · rw [← hindex]
      · rw [ih, List.append_assoc]
        rfl
  unfold passUses
  rw [if_neg hkind]
  exact hfrom _ us [] h

/-- A use that draws to an image adds an attachment. -/
theorem addUse_of_attached {p : Place} {u : Usage} {desc : ImageDesc} {v : Handle .imageView}
    {done : List NodeUse} {t t' : RenderTarget AttachmentUse} (hp : f.tracked use.resource = .ok p)
    (hb : p.node.isBacked = true)
    (hu : (Usage.classify shaders pass use p.node).result = .ok u)
    (hdesc : p.node.imageDesc? = some desc) (hv : f.imageViewHandle use.resource = .ok v)
    (ht : t.add { resource := use.resource, view := v, role := .ofUse use, kind := use.kind
                  format := desc.format, samples := desc.samples, tracked := p.index }
      desc.extent = .ok t') :
    (addUse f shaders pass ⟨done, some t⟩ use).result =
      .ok ⟨done ++ [⟨p.index, u⟩], some t'⟩ := by
  refine addUse_eq_ok_iff.2 ⟨p, u, some t', hp, hb, hu, ?_, rfl⟩
  refine Except.map_eq_ok_iff.2 ⟨t', ?_, rfl⟩
  unfold attach
  rw [hdesc]
  exact Except.bind_eq_ok_iff.2 ⟨v, hv, ht⟩

theorem Usage.classify_of_compute (hkind : pass.kind = .compute (some phase))
    (hshader : shaders.shader phase = .ok shader) :
    (classify shaders pass use n).result = ofCompute pass.name use n (some shader) := by
  unfold classify
  rw [hkind]
  simp only [Option.mapM_some, hshader, Traced.result_bind, Traced.result_ofExcept]
  rfl

theorem Usage.classify_of_draw (hkind : pass.kind = .draw phase)
    (hshader : shaders.shader phase = .ok shader) :
    (classify shaders pass use n).result = (ofDraw pass.name use n shader).result := by
  unfold classify
  rw [hkind]
  simp only [hshader, Traced.result_bind, Traced.result_ofExcept]
  rfl

theorem Usage.classify_of_depthStencilOutput {resource : String} {desc : ImageDesc}
    (hkind : pass.kind = .render) (hdesc : n.imageDesc? = some desc)
    (hformat : desc.format.isDepthOrStencil = true) :
    (classify shaders pass (.depthStencilOutput resource) n).result =
      .ok ⟨depthStages, .depthStencilAttachmentWrite⟩ := by
  have hmatch : ((Use.depthStencilOutput resource).kind.isDepthOrStencil &&
      !desc.format.isDepthOrStencil) = false := by
    rw [hformat]
    rfl
  unfold classify ofAttachment
  rw [hkind, hdesc]
  simp only [hmatch]
  rfl

end

namespace Sample

variable {extent : Extent} {images : List (Handle .image)} {acquired : Nat} {ids : Nat → Nat}
  {f : Forest}

theorem Laid.declares (h : Laid extent images acquired ids f) (hf : f.WellFormed) {i : Nat}
    {m : Node} {shaders : Registry} {pass : Pass} {use : Use} {u : Usage}
    (hm : (unfolded extent images acquired)[i]? = some m) (hkind : m.IsTracked)
    (hname : use.resource = m.name)
    (hu : (Usage.classify shaders pass use (f.dressed ids i m)).result = .ok u) :
    Declares f shaders pass use ⟨i, u⟩ := by
  refine ⟨_, hname ▸ h.tracked hf hm hkind, f.isBacked_dressed ids i m, hu, rfl⟩

/-! ## The attachments -/

/-- An attachment that is drawn to. -/
def drawn (resource : String) (view : Nat) (kind : UseKind) (format : Format) (tracked : Nat) :
    AttachmentUse where
  resource
  view := ⟨view⟩
  role := .output
  kind
  format
  samples := .one
  tracked

/-- What color, normal and depth are drawn to. -/
def gbufferTarget (extent : Extent) (ids : Nat → Nat) : RenderTarget AttachmentUse where
  pass := 2
  attachments := [
    drawn "albedo" (ids 1) .color .r8g8b8a8Unorm 0,
    drawn "normal" (ids 3) .color .r16g16b16a16Sfloat 2,
    drawn "depth" (ids 5) .depthStencil .d32Sfloat 4]
  color := [0, 1]
  depth := some 2
  extent

/-- What the lighting is drawn to. -/
def lightingTarget (extent : Extent) (ids : Nat → Nat) (acquired : Nat) :
    RenderTarget AttachmentUse where
  pass := 4
  attachments := [
    drawn swapchain (ids (2 * acquired + 13)) .color .b8g8r8a8Unorm (2 * acquired + 12)]
  color := [0]
  extent

/-! ## The uses -/

def colorWrite (i : Nat) : NodeUse := ⟨i, .colorAttachmentOutput, .colorAttachmentWrite⟩

def shaderRead (i : Nat) (stage : StageMask) : NodeUse := ⟨i, stage, .shaderRead⟩

def uniformRead (i : Nat) (stage : StageMask) : NodeUse := ⟨i, stage, .uniformRead⟩

def uploadUses : List NodeUse :=
  [⟨7, .transfer, .transferRead⟩, ⟨8, .transfer, .transferWrite⟩]

def cullUses : List NodeUse :=
  [shaderRead 9 .computeShader, ⟨10, .computeShader, .shaderWrite⟩, uniformRead 6 .computeShader]

def gbufferUses : List NodeUse :=
  [colorWrite 0, colorWrite 2, ⟨4, Usage.depthStages, .depthStencilAttachmentWrite⟩]

def opaqueUses : List NodeUse :=
  [uniformRead 6 (StageMask.vertexShader ∪ StageMask.fragmentShader), shaderRead 9 .vertexShader,
    ⟨10, .drawIndirect, .indirectCommandRead⟩]

def fullscreenUses : List NodeUse :=
  [uniformRead 6 .fragmentShader, shaderRead 0 .fragmentShader, shaderRead 2 .fragmentShader,
    shaderRead 4 .fragmentShader, shaderRead 8 .fragmentShader]

/-- What the passes do, pass by pass. -/
def uses (extent : Extent) (ids : Nat → Nat) (acquired : Nat) : List PassUses := [
  ⟨uploadUses, none⟩,
  ⟨cullUses, none⟩,
  ⟨gbufferUses, some (gbufferTarget extent ids)⟩,
  ⟨opaqueUses, none⟩,
  ⟨[colorWrite (2 * acquired + 12)], some (lightingTarget extent ids acquired)⟩,
  ⟨fullscreenUses, none⟩]

section
variable (h : Laid extent images acquired ids f) (hf : f.WellFormed) (dir : String)
include h hf

theorem passUses_upload {pass : Pass} (hpass : passes[0]? = some pass) :
    (passUses f (shaders dir) 0 pass).result = .ok ⟨uploadUses, none⟩ := by
  obtain rfl := Option.some.inj hpass
  refine passUses_of_declares (by simp) (.cons ?_ (.cons ?_ .nil))
  · exact h.declares hf rfl (.inl rfl) rfl rfl
  · exact h.declares hf rfl (.inl rfl) rfl rfl

theorem passUses_cull {pass : Pass} (hpass : passes[1]? = some pass) :
    (passUses f (shaders dir) 1 pass).result = .ok ⟨cullUses, none⟩ := by
  obtain rfl := Option.some.inj hpass
  refine passUses_of_declares (by simp) (.cons ?_ (.cons ?_ (.cons ?_ .nil)))
  · exact h.declares hf rfl (.inl rfl) rfl (Usage.classify_of_compute rfl (shader_cull dir))
  · exact h.declares hf rfl (.inl rfl) rfl (Usage.classify_of_compute rfl (shader_cull dir))
  · exact h.declares hf rfl (.inl rfl) rfl (Usage.classify_of_compute rfl (shader_cull dir))

theorem passUses_opaquePass {pass : Pass} (hpass : passes[3]? = some pass) :
    (passUses f (shaders dir) 3 pass).result = .ok ⟨opaqueUses, none⟩ := by
  obtain rfl := Option.some.inj hpass
  refine passUses_of_declares (by simp) (.cons ?_ (.cons ?_ (.cons ?_ .nil)))
  · exact h.declares hf rfl (.inl rfl) rfl (Usage.classify_of_draw rfl (shader_gbuffer dir))
  · exact h.declares hf rfl (.inl rfl) rfl (Usage.classify_of_draw rfl (shader_gbuffer dir))
  · exact h.declares hf rfl (.inl rfl) rfl (Usage.classify_of_draw rfl (shader_gbuffer dir))

theorem passUses_fullscreen {pass : Pass} (hpass : passes[5]? = some pass) :
    (passUses f (shaders dir) 5 pass).result = .ok ⟨fullscreenUses, none⟩ := by
  obtain rfl := Option.some.inj hpass
  refine passUses_of_declares (by simp)
    (.cons ?_ (.cons ?_ (.cons ?_ (.cons ?_ (.cons ?_ .nil)))))
  · exact h.declares hf rfl (.inl rfl) rfl (Usage.classify_of_draw rfl (shader_lighting dir))
  · exact h.declares hf rfl (.inr rfl) rfl (Usage.classify_of_draw rfl (shader_lighting dir))
  · exact h.declares hf rfl (.inr rfl) rfl (Usage.classify_of_draw rfl (shader_lighting dir))
  · exact h.declares hf rfl (.inr rfl) rfl (Usage.classify_of_draw rfl (shader_lighting dir))
  · exact h.declares hf rfl (.inl rfl) rfl (Usage.classify_of_draw rfl (shader_lighting dir))

/-- A use that draws to one of the images adds its view. -/
theorem Laid.addUse {shaders : Registry} {pass : Pass} {use : Use} {u : Usage} {i : Nat}
    {m v : Node} {desc : ImageDesc} {view : ImageViewDesc} {origin : String} {done : List NodeUse}
    {t t' : RenderTarget AttachmentUse}
    (hm : (unfolded extent images acquired)[i]? = some m)
    (hpayload : m.payload = .image desc none false) (hname : use.resource = m.name)
    (hv : (unfolded extent images acquired)[i + 1]? = some v) (hparent : v.parent = some i)
    (hdefault : v.name = defaultViewName m.name) (hview : v.payload = .imageView view origin none)
    (hu : (Usage.classify shaders pass use (f.dressed ids i m)).result = .ok u)
    (ht : t.add { resource := use.resource, view := ⟨ids (i + 1)⟩, role := .ofUse use
                  kind := use.kind, format := desc.format, samples := desc.samples, tracked := i }
      desc.extent = .ok t') :
    (FrameGraph.addUse f shaders pass ⟨done, some t⟩ use).result =
      .ok ⟨done ++ [⟨i, u⟩], some t'⟩ := by
  have hkind : m.kind = .image := by rw [Node.kind, hpayload]; rfl
  have hp := h.tracked hf hm (.inr hkind)
  rw [← hname] at hp
  have hx := h.imageViewHandle hf hm hkind hv hparent hdefault hview
  rw [← hname] at hx
  refine addUse_of_attached hp (f.isBacked_dressed ids i m) hu ?_ hx ht
  simp [Forest.dressed, Node.imageDesc?, hpayload, Payload.back]

theorem passUses_gbuffer {pass : Pass} (hpass : passes[2]? = some pass)
    (h13 : ids 1 ≠ ids 3) (h15 : ids 1 ≠ ids 5) (h35 : ids 3 ≠ ids 5) :
    (passUses f (shaders dir) 2 pass).result =
      .ok ⟨gbufferUses, some (gbufferTarget extent ids)⟩ := by
  obtain rfl := Option.some.inj hpass
  have hdepth : Format.isDepthOrStencil .d32Sfloat = true := rfl
  let albedo := drawn "albedo" (ids 1) .color .r8g8b8a8Unorm 0
  let normal := drawn "normal" (ids 3) .color .r16g16b16a16Sfloat 2
  unfold passUses
  rw [Traced.result_foldlM]
  refine Except.bind_eq_ok_iff.2
    ⟨⟨[colorWrite 0], some { pass := 2, attachments := [albedo], color := [0], extent }⟩,
      h.addUse hf (i := 0) rfl rfl rfl rfl rfl rfl rfl rfl rfl, ?_⟩
  refine Except.bind_eq_ok_iff.2
    ⟨⟨[colorWrite 0, colorWrite 2],
        some { pass := 2, attachments := [albedo, normal], color := [0, 1], extent }⟩,
      h.addUse hf (i := 2) rfl rfl rfl rfl rfl rfl rfl rfl
        (RenderTarget.add_color ?_ rfl rfl (by simp) extent), ?_⟩
  · simpa [albedo, drawn] using h13
  refine Except.bind_eq_ok_iff.2 ⟨⟨gbufferUses, some (gbufferTarget extent ids)⟩,
    h.addUse hf (i := 4) rfl rfl rfl rfl rfl rfl rfl
      (Usage.classify_of_depthStencilOutput rfl rfl hdepth)
      (RenderTarget.add_depth ?_ rfl rfl rfl extent), rfl⟩
  simpa [albedo, normal, drawn] using ⟨h15, h35⟩

theorem passUses_lighting {pass : Pass} {image : Handle .image} (hpass : passes[4]? = some pass)
    (hj : images[acquired]? = some image) : (passUses f (shaders dir) 4 pass).result =
      .ok ⟨[colorWrite (2 * acquired + 12)], some (lightingTarget extent ids acquired)⟩ := by
  obtain rfl := Option.some.inj hpass
  unfold passUses
  rw [Traced.result_foldlM]
  exact Except.bind_eq_ok_iff.2 ⟨⟨_, some (lightingTarget extent ids acquired)⟩,
    addUse_of_attached (h.tracked_swapchain hf hj) (f.isBacked_dressed _ _ _) rfl rfl
      (h.imageViewHandle_swapchain hf hj) rfl, rfl⟩

/-- **What the frame declares**, when the image of number `acquired` is drawn to. -/
theorem frameUses_eq {image : Handle .image} (hj : images[acquired]? = some image)
    (h13 : ids 1 ≠ ids 3) (h15 : ids 1 ≠ ids 5) (h35 : ids 3 ≠ ids 5) :
    (frameUses f (shaders dir) passes).result = .ok (uses extent ids acquired) := by
  unfold frameUses
  rw [Traced.result_mapM, mapM_eq_ok_iff]
  exact .cons (passUses_upload h hf dir rfl) (.cons (passUses_cull h hf dir rfl)
    (.cons (passUses_gbuffer h hf dir rfl h13 h15 h35) (.cons (passUses_opaquePass h hf dir rfl)
      (.cons (passUses_lighting h hf dir rfl hj) (.cons (passUses_fullscreen h hf dir rfl) .nil)))))

end

end Sample

end FrameGraph
