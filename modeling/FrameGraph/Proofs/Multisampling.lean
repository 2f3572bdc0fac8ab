import FrameGraph.Proofs.Coherence
import FrameGraph.Proofs.Descriptions

/-!
# Samples of pipelines

A pipeline has one sample count, and the attachments that are drawn to have one each. The pipeline
gets that of the first attachment of its render pass, whatever it serves as there and whatever is
drawn to. So it has the samples that it draws to exactly if all images that are drawn to have as
many as the image of the first use (`pipeline_samples`).
-/

set_option autoImplicit false

namespace FrameGraph

open Relation (ReflTransGen)

/-- Whether an attachment is drawn to where it is referred to. -/
def AttachmentSlot.isDrawn : AttachmentSlot → Bool
  | .color | .depth => true
  | .input | .shadingRate => false

/-- Whether a pipeline has as many samples as each attachment of a render pass that is drawn to. -/
def PipelineDesc.SamplesMatch (desc : PipelineDesc) (pass : RenderPassDesc) : Prop :=
  ∀ subpass ∈ pass.subpasses, ∀ slot, slot.isDrawn = true → ∀ r ∈ subpass.refs slot,
    ∃ x, pass.attachments[r.attachment]? = some x ∧ x.samples = desc.samples

section
variable {f : Forest} {d : Headless} {use : Use} {uses : List Use} {ts : List Timeline} {k : Nat}
  {t : RenderTarget AttachmentUse} {x : AttachmentUse}

/-- The samples of an attachment are those of the image of each use that has its view. -/
theorem Collects.samples_eq (h : Collects f uses t) (hf : f.HoldsViews d) (hs : f.Seated)
    (hx : x ∈ t.attachments) (hview : f.imageViewHandle use.resource = .ok x.view) :
    (f.trackedImage? use.resource).map (·.samples) = some x.samples := by
  obtain ⟨image, himage, -, hsamples⟩ := h.image_eq hf hs hx hview
  rw [himage, Option.map_some, hsamples]

/-- **A pipeline has the samples of the first use.** -/
theorem Collects.pipelineDesc_samples (h : Collects f uses t) (huse : uses.head? = some use)
    (shader : Shader) (layout : Handle .pipelineLayout) (renderPass : Handle .renderPass) :
    (f.trackedImage? use.resource).map (·.samples) = some (Plan.pipelineDesc shader layout
      renderPass (t.map (AttachmentUse.finish ts k))).samples := by
  obtain ⟨x, hx, hattaches⟩ := h.head use huse
  obtain ⟨image, himage, -, hsamples⟩ := hattaches.exists_trackedImage
  have hfirst : (t.map (AttachmentUse.finish ts k)).attachments.head? = some (x.finish ts k) := by
    show (t.attachments.map _).head? = _
    rw [List.head?_map, hx, Option.map_some]
  rw [himage, Option.map_some, Plan.pipelineDesc, hfirst, Option.map_some, Option.getD_some,
    ← hsamples]
  exact congrArg some (x.samples_desc_finish ts k).symm

/-- **A pipeline has the samples that it draws to exactly if each use that is drawn to has an image
with as many.** -/
theorem Collects.samplesMatch_iff (h : Collects f uses t) (hf : f.HoldsViews d) (hs : f.Seated)
    {desc : PipelineDesc} :
    desc.SamplesMatch (t.map (AttachmentUse.finish ts k)).renderPassDesc ↔
      ∀ use ∈ uses, use.slot.isDrawn = true →
        (f.trackedImage? use.resource).map (·.samples) = some desc.samples := by
  constructor
  · intro hmatch use huse hdrawn
    obtain ⟨i, ⟨x, hx, hview⟩, hplace⟩ := h.held use huse
    have hi : i ∈ (t.map (AttachmentUse.finish ts k)).places use.slot := by
      rw [RenderTarget.places_map]
      exact hplace fun hslot => by rw [hslot] at hdrawn; cases hdrawn
    obtain ⟨subpass, hsubpass, hr⟩ := RenderTarget.exists_ref hi
    obtain ⟨y, hy, hsamples⟩ := hmatch subpass hsubpass use.slot hdrawn _ hr
    obtain rfl := Option.some.inj ((getElem?_renderPassDesc hx).symm.trans hy)
    rw [h.samples_eq hf hs (List.mem_of_getElem? hx) hview, ← hsamples,
      AttachmentUse.samples_desc_finish]
  · intro hmatch subpass hsubpass slot hdrawn r hr
    obtain ⟨hplace, -⟩ := h.exists_of_ref hsubpass hr
    obtain ⟨use, huse, rfl, x, hx, hview⟩ := h.used slot _ hplace
    refine ⟨_, getElem?_renderPassDesc hx, ?_⟩
    have hsamples := h.samples_eq hf hs (List.mem_of_getElem? hx) hview
    rw [hmatch use huse hdrawn] at hsamples
    rw [AttachmentUse.samples_desc_finish]
    exact (Option.some.inj hsamples).symm

end

/-- **A pipeline is sampled like the image of the first use.** In any session on the headless
device, a draw with a pipeline belongs to a render pass with uses, and the pipeline has one
description, with the samples of the image of the first of these uses. It has the samples of all
attachments that the render pass draws to exactly if each image that is drawn to has as many. -/
theorem pipeline_samples {s : Session Headless}
    (hrun : ReflTransGen (Session.Step Headless.Aside) { device := {} } s) {graph : PassGraph}
    {shaders : Registry} {plan : Plan} {f' : Forest} {cache' : ObjectCache} {d' : Headless}
    (h : (compileFrame graph s.forest shaders s.cache s.device).result =
      .ok (.ok plan, f', cache', d'))
    {step : PlanStep} (hstep : step ∈ plan.steps) {objects : PipelineObjects}
    (hobjects : step.pipeline = some objects) :
    ∃ a o pass t first desc, (analyze graph.passes s.forest shaders).result = .ok (a, f') ∧
      step.owner = some o ∧ graph.passes[o]? = some pass ∧ pass.kind = .render ∧
      a.target? o = some t ∧ pass.uses.head? = some first ∧
      (∀ desc', cache'.find? (.pipeline desc') = some objects.pipeline ↔ desc' = desc) ∧
      (s.forest.trackedImage? first.resource).map (·.samples) = some desc.samples ∧
      (desc.SamplesMatch t.renderPassDesc ↔ ∀ use ∈ pass.uses, use.slot.isDrawn = true →
        (s.forest.trackedImage? use.resource).map (·.samples) = some desc.samples) := by
  obtain ⟨a, ha, hsteps, -⟩ := exists_of_compiled h
  obtain ⟨i, hi⟩ := List.mem_iff_getElem?.1 hstep
  obtain ⟨-, hall⟩ := Plan.compileSteps_ok hsteps
  obtain ⟨_, _, _, -, -, hafter, hcompiled⟩ := hall i step hi
  obtain ⟨_, shader, renderPass, t, -, -, -, hinto, hfound⟩ :=
    Plan.exists_foundFor_of_compileStep hcompiled hobjects
  obtain ⟨o, owner, ho, howner, hrenderPass, ht⟩ := hinto
  -- the step of the render pass has its objects, so that the pass has uses
  obtain ⟨pass, _, _, hpass, -, -, hcompiled⟩ := hall o owner howner
  obtain ⟨hkind, huses⟩ := (Plan.isAttached_of_compileStep ha hpass hcompiled).renderPass.1
    (by rw [hrenderPass]; rfl)
  obtain ⟨first, hfirst⟩ := Option.ne_none_iff_exists'.1 (mt List.head?_eq_none_iff.1 huses)
  obtain ⟨t', hcollects, ht'⟩ := exists_collects ha hpass hkind
  obtain rfl := Option.some.inj (ht.symm.trans ht')
  have hpipeline := (hfound.mono (ObjectCache.extends_of_gets hafter)).pipeline
  have hdistinct := Session.distinct_of_steps (hrun.tail (.compile h))
  refine ⟨a, o, pass, _, first, Plan.pipelineDesc shader objects.layout renderPass
    (t'.map (AttachmentUse.finish a.timelines o)), ha, ho, hpass, hkind, ht, hfirst,
    fun desc' => ⟨fun h' => ?_, ?_⟩, hcollects.pipelineDesc_samples hfirst _ _ _,
    hcollects.samplesMatch_iff (Session.holdsViews_of_steps hrun)
      (Session.seated_kept hrun .empty)⟩
  · exact ObjectDesc.pipeline.inj (hdistinct.desc_eq hpipeline h' rfl)
  · rintro rfl
    exact hpipeline

/-! ### The canvas, which has one sample, and a sketch with images of one and of four -/

/-- Aside, a device gets a shader module. -/
theorem Headless.aside_module (c : ObjectCache) (d : Headless) :
    Aside (c, d) (c, { d with
      lastHandle := d.lastHandle + 1
      created := { d.created with shaderModules := d.created.shaderModules + 1 } }) := by
  have h : (createShaderModule [shaderMagic] "" d).result = .ok (.ok _, _) := rfl
  exact .shader h

namespace Easel

theorem steps : ReflTransGen (Session.Step Headless.Aside) { device := {} }
    ⟨forest 1 .undefined, {}, device⟩ :=
  .tail (.tail (.tail .refl
    (.operate (o := .addImage "canvas" canvas .transient) rfl))
    (.operate (o := .mount "canvas") rfl))
    (.aside (Headless.aside_module _ _))

end Easel

theorem pipeline_samples_easel : ∃ cache a t desc,
    ReflTransGen (Session.Step Headless.Aside) { device := {} }
      ⟨Easel.forest 1 .undefined, {}, Easel.device⟩ ∧
    (compileFrame Easel.graph (Easel.forest 1 .undefined) Easel.shaders {} Easel.device).result =
      .ok (.ok Easel.plan, Easel.forest 1 Easel.painted, cache, Easel.drawn) ∧
    Easel.strokes ∈ Easel.plan.steps ∧ Easel.strokes.pipeline = some ⟨⟨6⟩, ⟨7⟩, ⟨8⟩⟩ ∧
    (analyze Easel.graph.passes (Easel.forest 1 .undefined) Easel.shaders).result =
      .ok (a, Easel.forest 1 Easel.painted) ∧ a.target? 0 = some t ∧
    cache.find? (.pipeline desc) = some ⟨8⟩ ∧ desc.samples = .one ∧
    desc.SamplesMatch t.renderPassDesc := by
  obtain ⟨cache, h⟩ := Easel.compile_eq
  have hmem : Easel.strokes ∈ Easel.plan.steps := List.mem_cons_of_mem _ List.mem_cons_self
  obtain ⟨a, o, pass, t, first, desc, ha, ho, hpass, -, ht, hfirst, hdesc, hsamples, hmatch⟩ :=
    pipeline_samples Easel.steps h hmem rfl
  obtain rfl : 0 = o := Option.some.inj ho
  obtain rfl : (⟨"paint", .render, [.colorOutput "canvas"]⟩ : Pass) = pass := Option.some.inj hpass
  obtain rfl : Use.colorOutput "canvas" = first := Option.some.inj hfirst
  have hone : SampleCount.one = desc.samples := Option.some.inj hsamples
  refine ⟨cache, a, t, desc, Easel.steps, h, hmem, rfl, ha, ht, (hdesc desc).2 rfl, hone.symm,
    hmatch.2 fun use huse _ => ?_⟩
  obtain rfl := List.mem_singleton.1 huse
  exact hsamples

namespace Sketch

def plain : ImageDesc := .twoD 4 4 .b8g8r8a8Unorm .colorAttachment

/-- An image with four samples. -/
def smooth : ImageDesc := { plain with samples := ⟨0x4⟩ }

def forest (left right : AccessState) : Forest where
  nodes := [
    { name := "plain"
      residency := .transient
      payload := .image plain (some ⟨1⟩) false
      life := 1
      current := left },
    { name := "plain/plain"
      residency := .transient
      payload := .imageView plain.defaultView "plain" (some ⟨2⟩)
      parent := some 0
      life := 1 },
    { name := "smooth"
      residency := .transient
      payload := .image smooth (some ⟨4⟩) false
      life := 2
      current := right },
    { name := "smooth/smooth"
      residency := .transient
      payload := .imageView smooth.defaultView "smooth" (some ⟨5⟩)
      parent := some 2
      life := 2 }]
  life := 2

def device : Headless where
  lastHandle := 5
  created := { images := 2, imageViews := 2, shaderModules := 1 }
  images := [(⟨1⟩, "plain"), (⟨4⟩, "smooth")]
  imageViews := [(⟨2⟩, ⟨1⟩), (⟨5⟩, ⟨4⟩)]

theorem steps : ReflTransGen (Session.Step Headless.Aside) { device := {} }
    ⟨forest .undefined .undefined, {}, device⟩ :=
  .tail (.tail (.tail (.tail (.tail .refl
    (.operate (o := .addImage "plain" plain .transient) rfl))
    (.operate (o := .mount "plain") rfl))
    (.aside (Headless.aside_module _ _)))
    (.operate (o := .addImage "smooth" smooth .transient) rfl))
    (.operate (o := .mount "smooth") rfl)

/-- One of the images tells how often the other is shaded. -/
def shade : Pass := ⟨"shade", .render, [.shadingRate "plain", .colorOutput "smooth"]⟩

def strokes : Pass := ⟨"strokes", .draw "flat", []⟩

/-- What is drawn has one sample, as the image that sets the shading rate. -/
theorem compile_eq : ∃ a f' first second cache₁ d₁ cache d t,
    (analyze [shade, strokes] (forest .undefined .undefined) Easel.shaders).result = .ok (a, f') ∧
    ((Plan.compileStep Easel.shaders a [shade, strokes] [] 0 shade).run
      (({} : ObjectCache), device)).result = .ok (.ok first, cache₁, d₁) ∧
    ((Plan.compileStep Easel.shaders a [shade, strokes] [first] 1 strokes).run
      (cache₁, d₁)).result = .ok (.ok second, cache, d) ∧
    second.pipeline = some ⟨⟨8⟩, ⟨9⟩, ⟨10⟩⟩ ∧ second.owner = some 0 ∧ a.target? 0 = some t ∧
    ∀ shader layout renderPass,
      ¬ (Plan.pipelineDesc shader layout renderPass t).SamplesMatch t.renderPassDesc := by
  refine ⟨_, _, _, _, _, _, _, _, _, rfl, rfl, rfl, rfl, rfl, rfl, fun _ _ _ hmatch => ?_⟩
  obtain ⟨x, hx, hsamples⟩ :=
    hmatch _ (List.mem_singleton_self _) .color rfl ⟨1, .colorAttachment⟩ List.mem_cons_self
  cases hx
  have hfour : (⟨0x4⟩ : SampleCount) = SampleCount.one := hsamples
  exact absurd hfour (by decide)

end Sketch

/-- A draw into an image with four samples, next to an image with one. -/
theorem not_forall_samplesMatch : ¬ ∀ (s : Session Headless) (graph : PassGraph)
    (events : List ShaderEvent) (shaders : Registry) (plan : Plan) (f' : Forest)
    (cache' : ObjectCache) (d' : Headless) (a : Analysis) (step : PlanStep)
    (objects : PipelineObjects) (o : Nat) (t : RenderTarget Attachment) (desc : PipelineDesc),
    ReflTransGen (Session.Step Headless.Aside) { device := {} } s →
    Registry.History events shaders →
    (compileFrame graph s.forest shaders s.cache s.device).result =
      .ok (.ok plan, f', cache', d') →
    (analyze graph.passes s.forest shaders).result = .ok (a, f') → step ∈ plan.steps →
    step.pipeline = some objects → step.owner = some o → a.target? o = some t →
    cache'.find? (.pipeline desc) = some objects.pipeline → desc.SamplesMatch t.renderPassDesc := by
  intro h
  obtain ⟨a, f', first, second, cache₁, d₁, cache, d, t, ha, hfirst, hsecond, hpipeline, howner, ht,
    hmatch⟩ := Sketch.compile_eq
  have htake : ((Plan.compileStep Easel.shaders a [Sketch.shade, Sketch.strokes]
      ([first, second].take 1) 1 Sketch.strokes).run (cache₁, d₁)).result =
        .ok (.ok second, cache, d) := hsecond
  obtain ⟨_, _, _, t', -, -, -, ⟨o, _, ho, -, -, ht'⟩, hfound⟩ :=
    Plan.exists_foundFor_of_compileStep htake hpipeline
  obtain rfl := Option.some.inj (howner.symm.trans ho)
  obtain rfl := Option.some.inj (ht.symm.trans ht')
  exact hmatch _ _ _ (h _ ⟨[Sketch.shade, Sketch.strokes], 0⟩ _ _ _ _ _ _ _ _ _ _ _ _ Sketch.steps
    Easel.history (compileFrame_of_two ha hfirst hsecond) ha
    (List.mem_cons_of_mem _ List.mem_cons_self) hpipeline howner ht hfound.pipeline)

end FrameGraph
