import FrameGraph.Proofs.Framebuffers
import FrameGraph.Proofs.LoadedShaders
import FrameGraph.Proofs.ShaderHistories
import FrameGraph.Proofs.Sharing

/-!
# Plans and their pipelines

A plan has one step for each pass. The step of a render pass gets its objects for the attachments
that the pass declares, the step of a draw gets its pipeline for the shader that it names and for
the render pass that it belongs to. These are different steps, and the pipeline is described from
all of them: it fits the render pass that it is recorded in (`PipelineObjects.Fits`), and it is
there exactly if there is something to draw into and something to draw with (`plan_coherent`).
-/

set_option autoImplicit false

namespace FrameGraph

open Relation (ReflTransGen)

/-! ## What a plan has to be -/

/-- Whether no two objects of the cache have the same number. -/
def ObjectCache.Distinct (c : ObjectCache) : Prop := (c.entries.map Prod.snd).Nodup

/-- Whether a shader can be drawn with: it has sources, and a module for each. -/
def Shader.IsReady (s : Shader) : Prop := s.sources ≠ [] ∧ s.IsComplete

/-- Whether the pipeline that `desc` describes is one for `shader` within a render pass that `pass`
describes. -/
structure PipelineObjects.Fits (c : ObjectCache) (shader : Shader) (renderPass : Handle .renderPass)
    (pass : RenderPassDesc) (objects : PipelineObjects) (desc : PipelineDesc) : Prop where
  found : c.find? (.pipeline desc) = some objects.pipeline
  only : c.Distinct → ∀ desc', c.find? (.pipeline desc') = some objects.pipeline → desc' = desc
  within : desc.renderPass = renderPass ∧ c.find? (.renderPass pass) = some renderPass
  /-- There is one blend state for each color attachment, and depth with a depth attachment. -/
  subpass : ∃ s, pass.subpasses = [s] ∧ desc.blends.length = s.color.length ∧
    (desc.depthStencil.depthTest = true ↔ s.depthStencil.isSome = true) ∧
    (desc.depthStencil.depthWrite = true ↔ s.depthStencil.isSome = true)
  stages : List.Forall₂ (fun source stage => stage.stage = source.1.flag ∧
    shader.module? source.1 = some stage.module) shader.sources desc.stages
  ordered : (shader.sources.map (·.1)).Sublist ShaderStage.all
  layout : desc.layout = objects.layout ∧ ∃ l, c.find? (.pipelineLayout l) = some objects.layout ∧
    l.setLayouts = [objects.setLayout]
  setLayout : c.find? (.setLayout shader.setLayoutDesc) = some objects.setLayout

/-- Whether a step belongs to a render pass that draws into `t`. -/
def PlanStep.DrawsInto (a : Analysis) (steps : List PlanStep) (s : PlanStep)
    (renderPass : Handle .renderPass) (t : RenderTarget Attachment) : Prop :=
  ∃ o owner, s.owner = some o ∧ steps[o]? = some owner ∧ owner.renderPass = some renderPass ∧
    a.target? o = some t

/-- Whether a step is that of the pass at a position, with the barriers that are needed there. -/
structure PlanStep.IsStepOf (a : Analysis) (i : Nat) (pass : Pass) (s : PlanStep) : Prop where
  index : s.index = i
  name : s.name = pass.name
  kind : s.kind = pass.kind
  barriers : a.barriers[i]? = some s.barriers

/-- Whether a step has the objects of a render pass if the pass is one with attachments, and only
then. -/
structure PlanStep.IsAttached (pass : Pass) (s : PlanStep) : Prop where
  renderPass : s.renderPass.isSome = true ↔ pass.kind = .render ∧ pass.uses ≠ []
  framebuffer : s.framebuffer.isSome = true ↔ pass.kind = .render ∧ pass.uses ≠ []
  extent : s.extent.isSome = true ↔ pass.kind = .render ∧ pass.uses ≠ []

/-- Whether a step among `steps` belongs to the last render pass before it if the pass is a draw,
and has a pipeline that fits there if there is something to draw into and with. -/
structure PlanStep.IsDrawn (passes : List Pass) (shaders : Registry) (a : Analysis)
    (c : ObjectCache) (steps : List PlanStep) (i : Nat) (pass : Pass) (s : PlanStep) : Prop where
  owner : ∀ o, s.owner = some o ↔ (∃ phase, pass.kind = .draw phase) ∧
    IsGreatest {j | j < i ∧ ∃ pass, passes[j]? = some pass ∧ pass.kind = .render} o
  pipeline : s.pipeline.isSome = true ↔
    (∃ o owner, s.owner = some o ∧ steps[o]? = some owner ∧ owner.renderPass.isSome = true) ∧
    ∃ phase shader, pass.kind = .draw phase ∧ shaders.shader? phase = some shader ∧ shader.IsReady
  fits : ∀ objects, s.pipeline = some objects → ∃ phase shader renderPass t desc,
    pass.kind = .draw phase ∧ shaders.shader? phase = some shader ∧
    s.DrawsInto a steps renderPass t ∧ objects.Fits c shader renderPass t.renderPassDesc desc

/-- Whether a step among `steps` is what is recorded for the pass at a position. -/
structure PlanStep.Coheres (passes : List Pass) (shaders : Registry) (a : Analysis)
    (c : ObjectCache) (steps : List PlanStep) (i : Nat) (pass : Pass) (s : PlanStep) : Prop where
  isStepOf : s.IsStepOf a i pass
  isAttached : s.IsAttached pass
  isDrawn : s.IsDrawn passes shaders a c steps i pass

/-- Whether a plan has a step for each pass, and each is what is recorded for that pass. -/
structure Plan.Coherent (passes : List Pass) (shaders : Registry) (a : Analysis) (c : ObjectCache)
    (plan : Plan) : Prop where
  length : plan.steps.length = passes.length
  step : ∀ (i : Nat) pass s, passes[i]? = some pass → plan.steps[i]? = some s →
    s.Coheres passes shaders a c plan.steps i pass

/-! ## The pipeline of a draw -/

theorem ObjectCache.Distinct.desc_eq {c : ObjectCache} (hc : c.Distinct) {desc desc' : ObjectDesc}
    {h : Handle desc.kind} {h' : Handle desc'.kind} (hfind : c.find? desc = some h)
    (hfind' : c.find? desc' = some h') (hid : h'.id = h.id) : desc' = desc :=
  congrArg Prod.fst (List.inj_on_of_nodup_map hc (mem_of_find? hfind') (mem_of_find? hfind) hid)

theorem Registry.shader_eq_ok_iff {shaders : Registry} {phase : String} {s : Shader} :
    shaders.shader phase = .ok s ↔ shaders.shader? phase = some s := by
  unfold shader
  cases shaders.shader? phase with
  | none => simp
  | some s => simp

namespace Shader

variable {s : Shader}

theorem isCompiled_iff : s.isCompiled = true ↔ s.IsReady := by
  simp [isCompiled, IsReady, IsComplete]

/-- A shader with all its modules has a stage for each source. -/
theorem forall₂_stageDescs (h : s.IsComplete) : List.Forall₂ (fun source stage =>
    stage.stage = source.1.flag ∧ s.module? source.1 = some stage.module)
    s.sources s.stageDescs := by
  unfold stageDescs
  unfold IsComplete at h
  generalize s.sources = sources at h ⊢
  induction sources with
  | nil => exact .nil
  | cons source sources ih =>
    obtain ⟨hhead, htail⟩ := List.forall_mem_cons.1 h
    obtain ⟨m, hm⟩ := Option.isSome_iff_exists.1 hhead
    rw [List.filterMap_cons_some (b := { stage := source.1.flag, module := m }) (by rw [hm]; rfl)]
    exact .cons ⟨rfl, hm⟩ (ih htail)

end Shader

/-- Whether the cache has the objects of draws with `shader` into `t`. -/
structure PipelineObjects.FoundFor (c : ObjectCache) (shader : Shader)
    (renderPass : Handle .renderPass) (t : RenderTarget Attachment) (objects : PipelineObjects) :
    Prop where
  setLayout : c.find? (.setLayout shader.setLayoutDesc) = some objects.setLayout
  layout : c.find? (.pipelineLayout ⟨[objects.setLayout], []⟩) = some objects.layout
  pipeline : c.find? (.pipeline (Plan.pipelineDesc shader objects.layout renderPass t)) =
    some objects.pipeline

namespace Plan

variable {δ : Type} [Device δ] {shaders : Registry} {s s' : ObjectCache × δ}

/-- A draw gets its objects if its shader is ready, and the cache has them from then on. -/
theorem drawObjects_ok {phase : String} {renderPass : Handle .renderPass}
    {t : RenderTarget Attachment} {result : Option PipelineObjects}
    (h : ((drawObjects shaders phase renderPass t).run s).result = .ok (.ok result, s')) :
    ∃ shader, shaders.shader? phase = some shader ∧ (result.isSome = true ↔ shader.IsReady) ∧
      ∀ objects, result = some objects → objects.FoundFor s'.1 shader renderPass t := by
  obtain ⟨shader, s₁, hlookup, hobjects⟩ := PlanM.bind_ok_iff.1 h
  obtain ⟨hshader, rfl⟩ := PlanM.traced_ok_iff.1 hlookup
  rw [Traced.result_ofExcept] at hshader
  refine ⟨shader, Registry.shader_eq_ok_iff.1 hshader, ?_⟩
  rw [← Shader.isCompiled_iff]
  cases hcompiled : shader.isCompiled with
  | false =>
    rw [hcompiled, Bool.not_false, if_pos rfl] at hobjects
    cases hobjects
    exact ⟨iff_of_false Bool.false_ne_true Bool.false_ne_true, nofun⟩
  | true =>
    rw [hcompiled, Bool.not_true, if_neg Bool.false_ne_true] at hobjects
    obtain ⟨setLayout, ⟨c₁, d₁⟩, hsetLayout, hobjects⟩ := PlanM.bind_ok_iff.1 hobjects
    obtain ⟨layout, ⟨c₂, d₂⟩, hlayout, hobjects⟩ := PlanM.bind_ok_iff.1 hobjects
    obtain ⟨pipeline, ⟨c₃, d₃⟩, hpipeline, hobjects⟩ := PlanM.bind_ok_iff.1 hobjects
    cases hobjects
    obtain ⟨-, hsetLayout⟩ := ObjectCache.getOrCreate_ok (Except.ok.inj hsetLayout)
    obtain ⟨hextends₂, hlayout⟩ := ObjectCache.getOrCreate_ok (Except.ok.inj hlayout)
    obtain ⟨hextends₃, hpipeline⟩ := ObjectCache.getOrCreate_ok (Except.ok.inj hpipeline)
    refine ⟨iff_of_true rfl rfl, fun objects hobjects => ?_⟩
    obtain rfl := Option.some.inj hobjects
    exact ⟨hextends₃ _ _ (hextends₂ _ _ hsetLayout), hextends₃ _ _ hlayout, hpipeline⟩

end Plan

namespace PipelineObjects.FoundFor

variable {c c' : ObjectCache} {shader : Shader} {renderPass : Handle .renderPass}
  {t : RenderTarget Attachment} {objects : PipelineObjects}

theorem mono (h : objects.FoundFor c shader renderPass t) (hc : c.Extends c') :
    objects.FoundFor c' shader renderPass t where
  setLayout := hc _ _ h.setLayout
  layout := hc _ _ h.layout
  pipeline := hc _ _ h.pipeline

/-- A pipeline fits the render pass that it is described for. -/
theorem fits (h : objects.FoundFor c shader renderPass t) (hshader : shader.IsComplete)
    (hordered : (shader.sources.map (·.1)).Sublist ShaderStage.all)
    (hrenderPass : c.find? (.renderPass t.renderPassDesc) = some renderPass) :
    objects.Fits c shader renderPass t.renderPassDesc
      (Plan.pipelineDesc shader objects.layout renderPass t) where
  found := h.pipeline
  only hc desc' h' := ObjectDesc.pipeline.inj (hc.desc_eq h.pipeline h' rfl)
  within := ⟨rfl, hrenderPass⟩
  subpass := by
    refine ⟨_, rfl, ?_, ?_, ?_⟩
    · simp [Plan.pipelineDesc, PipelineDesc.standard]
    · simp [Plan.pipelineDesc]
    · simp [Plan.pipelineDesc]
  stages := Shader.forall₂_stageDescs hshader
  ordered := hordered
  layout := ⟨rfl, _, h.layout, rfl⟩
  setLayout := h.setLayout

end PipelineObjects.FoundFor

/-! ## Step by step -/

namespace Plan

section
variable {δ : Type} [Device δ] {shaders : Registry} {s s' : ObjectCache × δ} {a : Analysis}
  {passes : List Pass} {steps : List PlanStep} {i : Nat} {pass : Pass} {r : PlanStep}
  {f f' : Forest} {c : ObjectCache}

theorem target?_of_attachedTarget? {t : RenderTarget Attachment}
    (h : attachedTarget? a i = some t) : a.target? i = some t := (Option.filter_eq_some_iff.1 h).1

/-- A render pass of an accepted frame has attachments if it declares any. -/
theorem isSome_attachedTarget?_iff (ha : (analyze passes f shaders).result = .ok (a, f'))
    (hpass : passes[i]? = some pass) (hkind : pass.kind = .render) :
    (attachedTarget? a i).isSome = true ↔ pass.uses ≠ [] := by
  obtain ⟨t, ht, hnil, -⟩ := exists_target_of_render ha hpass hkind
  unfold attachedTarget?
  rw [ht, Option.isSome_filter, Option.any_some, ne_eq, ← hnil]
  simp

/-- The render pass of a step is the one that the cache has for its attachments. -/
theorem described_of_compileStep {before : List PlanStep}
    (h : ((compileStep shaders a passes before i pass).run s).result = .ok (.ok r, s'))
    {renderPass : Handle .renderPass} (hr : r.renderPass = some renderPass) :
    ∃ t, a.target? i = some t ∧ s'.1.find? (.renderPass t.renderPassDesc) = some renderPass := by
  cases compiles_of_ok h with
  | @attached _ t _ _ _ hattached hobjects =>
    obtain rfl := Option.some.inj hr
    exact ⟨t, target?_of_attachedTarget? hattached, (targetObjects_ok hobjects).1⟩
  | bare => cases hr
  | idle => cases hr
  | drawn => cases hr

/-- What a draw is made into is told by the steps before it. -/
theorem drawnInto_take_iff {renderPass : Handle .renderPass} {t : RenderTarget Attachment} :
    drawnInto a (steps.take i) (PassGraph.renderPassBefore passes i) = some (renderPass, t) ↔
      ∃ o owner, PassGraph.renderPassBefore passes i = some o ∧ steps[o]? = some owner ∧
        owner.renderPass = some renderPass ∧ a.target? o = some t := by
  unfold drawnInto
  cases ho : PassGraph.renderPassBefore passes i with
  | none => simp
  | some o =>
    have hlt : o < i := (PassGraph.renderPassBefore_eq_some_iff.1 ho).1.1
    simp [List.getElem?_take_of_lt hlt, Option.bind_eq_some_iff]

theorem isStepOf_of_compileStep (ha : (analyze passes f shaders).result = .ok (a, f'))
    (hpass : passes[i]? = some pass) {before : List PlanStep}
    (h : ((compileStep shaders a passes before i pass).run s).result = .ok (.ok r, s')) :
    r.IsStepOf a i pass := by
  have hbarriers : a.barriers[i]? = some ((a.barriers[i]?).getD .empty) := by
    obtain ⟨hlt, -⟩ := List.getElem?_eq_some_iff.1 hpass
    rw [(barriers_eq ha).1, List.getElem?_map, List.getElem?_range hlt]
    rfl
  cases compiles_of_ok h with
  | bare => exact ⟨rfl, rfl, rfl, hbarriers⟩
  | attached => exact ⟨rfl, rfl, rfl, hbarriers⟩
  | idle => exact ⟨rfl, rfl, rfl, hbarriers⟩
  | drawn => exact ⟨rfl, rfl, rfl, hbarriers⟩

theorem isAttached_of_compileStep (ha : (analyze passes f shaders).result = .ok (a, f'))
    (hpass : passes[i]? = some pass) {before : List PlanStep}
    (h : ((compileStep shaders a passes before i pass).run s).result = .ok (.ok r, s')) :
    r.IsAttached pass := by
  have hbare (hnot : ¬ (pass.kind = .render ∧ pass.uses ≠ [])) (hrenderPass : r.renderPass = none)
      (hframebuffer : r.framebuffer = none) (hextent : r.extent = none) : r.IsAttached pass := by
    refine ⟨iff_of_false ?_ hnot, iff_of_false ?_ hnot, iff_of_false ?_ hnot⟩
    · simp [hrenderPass]
    · simp [hframebuffer]
    · simp [hextent]
  cases compiles_of_ok h with
  | bare _ hattached =>
    refine hbare (fun ⟨hkind, huses⟩ => ?_) rfl rfl rfl
    have hsome := (isSome_attachedTarget?_iff ha hpass hkind).2 huses
    rw [hattached hkind] at hsome
    cases hsome
  | attached hkind ht =>
    have huses : pass.kind = .render ∧ pass.uses ≠ [] :=
      ⟨hkind, (isSome_attachedTarget?_iff ha hpass hkind).1 (by rw [ht]; rfl)⟩
    exact ⟨iff_of_true rfl huses, iff_of_true rfl huses, iff_of_true rfl huses⟩
  | idle hkind => exact hbare (fun hrender => by cases hkind.symm.trans hrender.1) rfl rfl rfl
  | drawn hkind => exact hbare (fun hrender => by cases hkind.symm.trans hrender.1) rfl rfl rfl

/-- The pipeline of a step is found for what its owner draws into. -/
theorem exists_foundFor_of_compileStep
    (h : ((compileStep shaders a passes (steps.take i) i pass).run s).result = .ok (.ok r, s'))
    {objects : PipelineObjects} (hr : r.pipeline = some objects) :
    ∃ phase shader renderPass t, pass.kind = .draw phase ∧ shaders.shader? phase = some shader ∧
      shader.IsReady ∧ r.DrawsInto a steps renderPass t ∧
      objects.FoundFor s'.1 shader renderPass t := by
  cases compiles_of_ok h with
  | bare => cases hr
  | attached => cases hr
  | idle => cases hr
  | @drawn _ phase renderPass t _ hkind hdrawn hobjects =>
    obtain ⟨shader, hshader, hready, hfound⟩ := drawObjects_ok hobjects
    refine ⟨phase, shader, renderPass, t, hkind, hshader, hready.1 ?_, drawnInto_take_iff.1 hdrawn,
      hfound objects hr⟩
    exact Option.isSome_iff_exists.2 ⟨objects, hr⟩

/-- A draw is recorded in the render pass before it, if the steps there have the render passes that
the cache has for their attachments. -/
theorem isDrawn_of_compileStep {events : List ShaderEvent}
    (hshaders : Registry.History events shaders)
    (hdescribed : ∀ o owner renderPass, steps[o]? = some owner →
      owner.renderPass = some renderPass →
      ∃ t, a.target? o = some t ∧ c.find? (.renderPass t.renderPassDesc) = some renderPass)
    (h : ((compileStep shaders a passes (steps.take i) i pass).run s).result = .ok (.ok r, s'))
    (hc : s'.1.Extends c) : r.IsDrawn passes shaders a c steps i pass := by
  have hother (hdraw : ∀ phase, pass.kind ≠ .draw phase) (howner : r.owner = none)
      (hpipeline : r.pipeline = none) : r.IsDrawn passes shaders a c steps i pass := by
    refine ⟨fun o => iff_of_false ?_ ?_, iff_of_false ?_ ?_, ?_⟩
    · simp [howner]
    · exact fun ⟨⟨phase, hkind⟩, _⟩ => hdraw phase hkind
    · simp [hpipeline]
    · exact fun ⟨_, phase, _, hkind, _⟩ => hdraw phase hkind
    · simp [hpipeline]
  have hfits (objects : PipelineObjects) (hobjects : r.pipeline = some objects) :
      ∃ phase shader renderPass t desc, pass.kind = .draw phase ∧
        shaders.shader? phase = some shader ∧ r.DrawsInto a steps renderPass t ∧
        objects.Fits c shader renderPass t.renderPassDesc desc := by
    obtain ⟨phase, shader, renderPass, t, hkind, hshader, hready, hinto, hfound⟩ :=
      exists_foundFor_of_compileStep h hobjects
    obtain ⟨o, owner, -, howner, hrenderPass, ht⟩ := id hinto
    obtain ⟨t', ht', hcached⟩ := hdescribed o owner renderPass howner hrenderPass
    obtain rfl := Option.some.inj (ht.symm.trans ht')
    exact ⟨phase, shader, renderPass, t, _, hkind, hshader, hinto,
      (hfound.mono hc).fits hready.2 (hshaders.sources_sublist hshader) hcached⟩
  cases compiles_of_ok h with
  | bare hdraw => exact hother hdraw rfl rfl
  | attached hkind => exact hother (by simp [hkind]) rfl rfl
  | @idle phase hkind hdrawn =>
    refine ⟨fun o => ?_, iff_of_false Bool.false_ne_true ?_, nofun⟩
    · rw [and_iff_right ⟨phase, hkind⟩]
      exact PassGraph.renderPassBefore_eq_some_iff
    · rintro ⟨⟨o, owner, ho, howner, hsome⟩, -⟩
      obtain ⟨renderPass, hrenderPass⟩ := Option.isSome_iff_exists.1 hsome
      obtain ⟨t, ht, -⟩ := hdescribed o owner renderPass howner hrenderPass
      have hdrawn' := drawnInto_take_iff.2 ⟨o, owner, ho, howner, hrenderPass, ht⟩
      rw [hdrawn] at hdrawn'
      cases hdrawn'
  | @drawn _ phase renderPass t objects hkind hdrawn hobjects =>
    obtain ⟨o, owner, ho, howner, hrenderPass, -⟩ := drawnInto_take_iff.1 hdrawn
    obtain ⟨shader, hshader, hready, -⟩ := drawObjects_ok hobjects
    refine ⟨fun o => ?_, hready.trans ?_, hfits⟩
    · rw [and_iff_right ⟨phase, hkind⟩]
      exact PassGraph.renderPassBefore_eq_some_iff
    · refine ⟨fun h => ⟨⟨o, owner, ho, howner, by rw [hrenderPass]; rfl⟩, phase, shader, hkind,
        hshader, h⟩, ?_⟩
      rintro ⟨-, phase', shader', hkind', hshader', h⟩
      obtain rfl := PassKind.draw.inj (hkind.symm.trans hkind')
      obtain rfl := Option.some.inj (hshader.symm.trans hshader')
      exact h

end

end Plan

/-- **Plan and pipelines are coherent.** In every plan that is made there is one step for each pass,
and it is what is recorded for that pass: a pipeline is there if its draw has something to draw into
and a shader that is ready, and it fits the render pass of the draw's owner. -/
theorem plan_coherent {δ : Type} [Device δ] {events : List ShaderEvent} {shaders : Registry}
    (hshaders : Registry.History events shaders) {graph : PassGraph} {f f' : Forest}
    {cache cache' : ObjectCache} {d d' : δ} {plan : Plan}
    (h : (compileFrame graph f shaders cache d).result = .ok (.ok plan, f', cache', d')) :
    ∃ a, (analyze graph.passes f shaders).result = .ok (a, f') ∧
      plan.Coherent graph.passes shaders a cache' := by
  obtain ⟨a, ha, hsteps, -⟩ := exists_of_compiled h
  obtain ⟨hlength, hall⟩ := Plan.compileSteps_ok hsteps
  refine ⟨a, ha, hlength, fun i pass s hpass hs => ?_⟩
  obtain ⟨pass', t, t', hpass', -, hafter, hstep⟩ := hall i s hs
  obtain rfl := Option.some.inj (hpass.symm.trans hpass')
  refine ⟨Plan.isStepOf_of_compileStep ha hpass hstep,
    Plan.isAttached_of_compileStep ha hpass hstep,
    Plan.isDrawn_of_compileStep hshaders (fun o owner renderPass howner hr => ?_) hstep
      (ObjectCache.extends_of_gets hafter)⟩
  obtain ⟨_, u, u', -, -, hafter, hstep⟩ := hall o owner howner
  obtain ⟨t, ht, hfind⟩ := Plan.described_of_compileStep hstep hr
  exact ⟨t, ht, ObjectCache.extends_of_gets hafter _ _ hfind⟩

/-! ### The canvas, with a shader that was loaded and compiled -/

namespace Easel

def files : FileTree where
  entries := [(["flat.json"], .file [0x7b, 0x7d]), (["flat.vert"], .file [])]

/-- The shader of the strokes as it is loaded. -/
def flat : Shader where
  name := "flat"
  bindings := []
  sources := [(.vertex, ⟨"flat.vert", ""⟩)]

theorem read_eq :
    (Shader.read files "" "flat").result.toOption.bind (·.toOption) = some flat := by
  decide +kernel

def uncompiled : Registry := Registry.insert {} flat

theorem history_uncompiled : Registry.History [.loaded "flat"] uncompiled :=
  .loaded .start (Registry.load_of_read read_eq {})

def vertex : Registry.Pending := ⟨0, "flat", .vertex, ⟨"flat.vert", ""⟩⟩

theorem tries : Registry.Tries (⟨1⟩ : Registry.Press) ({ lastHandle := 2 } : Headless)
    (uncompiled.missing "flat") [.made vertex ⟨3⟩] none ⟨0⟩
    { lastHandle := 3, created := { shaderModules := 1 } } :=
  .made rfl rfl .done

theorem mem_keys : "flat" ∈ uncompiled.keys := by decide +kernel

theorem history : Registry.History [.loaded "flat", .asked "flat" .vertex,
    .made "flat" .vertex ⟨3⟩] shaders :=
  .compiled history_uncompiled mem_keys
    ((Registry.compile_ok_iff history_uncompiled.recorded.sound.toWellFormed mem_keys).2
      ⟨_, _, tries, rfl, rfl⟩) tries

end Easel

theorem plan_coherent_easel : ∃ cache a,
    (compileFrame Easel.graph (Easel.forest 1 .undefined) Easel.shaders {} Easel.device).result =
      .ok (.ok Easel.plan, Easel.forest 1 Easel.painted, cache, Easel.drawn) ∧
    Easel.plan.Coherent Easel.graph.passes Easel.shaders a cache ∧
    Easel.strokes.owner = some 0 ∧ Easel.strokes.pipeline.isSome = true := by
  obtain ⟨cache, h⟩ := Easel.compile_eq
  obtain ⟨a, -, hcoherent⟩ := plan_coherent Easel.history h
  exact ⟨cache, a, h, hcoherent, rfl, rfl⟩

/-! ## Objects of a session -/

/-- What compiling gets from the cache, it gets in calls. -/
theorem CallLog.exists_of_gets {start : Headless} {s s' : ObjectCache × Headless}
    (h : ReflTransGen Gets s s') {calls : List ObjectCall}
    (hs : ReflTransGen CallLog.Step { device := start } ⟨calls, s.1, s.2⟩) :
    ∃ calls', ReflTransGen CallLog.Step { device := start } ⟨calls', s'.1, s'.2⟩ := by
  refine kept_by_all (P := fun t : ObjectCache × Headless => ∃ calls',
    ReflTransGen CallLog.Step { device := start } ⟨calls', t.1, t.2⟩) (fun t t' hstep ht => ?_) h
    ⟨calls, hs⟩
  obtain ⟨calls', ht⟩ := ht
  obtain ⟨desc, c, d⟩ := hstep
  exact ⟨_, ht.tail (.call _ desc)⟩

/-- **In a session no two objects have the same number**, so a pipeline has one description. -/
theorem Session.distinct_of_steps {s : Session Headless}
    (h : ReflTransGen (Session.Step Headless.Aside) { device := {} } s) : s.cache.Distinct := by
  obtain ⟨calls, hcalls⟩ : ∃ calls,
      ReflTransGen CallLog.Step { device := {} } ⟨calls, s.cache, s.device⟩ := by
    refine kept_by_all (P := fun s : Session Headless => ∃ calls,
      ReflTransGen CallLog.Step { device := {} } ⟨calls, s.cache, s.device⟩)
      (fun s s' hstep hs => ?_) h ⟨[], .refl⟩
    obtain ⟨calls, hcalls⟩ := hs
    cases hstep with
    | aside haside =>
      obtain ⟨hcache, hsame⟩ := haside.same
      obtain rfl := hcache
      exact ⟨calls, hcalls.tail (.aside _ hsame.lastHandle)⟩
    | operate hrun =>
      exact ⟨calls, hcalls.tail (.aside _ (Headless.lastHandle_le (Operation.changes hrun)))⟩
    | frame _ => exact ⟨calls, hcalls⟩
    | compile hcompile => exact CallLog.exists_of_gets (compileFrame_gets hcompile).2 hcalls
  exact (CallLog.Sound.run hcalls).ids

end FrameGraph
