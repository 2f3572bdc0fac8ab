import FrameGraph.Analysis.Basic
import FrameGraph.Device.ObjectCache

/-!
# Execution plans

A plan lists the passes of a frame with all that recording them takes: the barriers before each
pass, the render pass and framebuffer of a render pass, the pipeline of a draw. `compileFrame`
analyses a frame and gets the objects from the object cache.
-/

set_option autoImplicit false

namespace FrameGraph

/-- The objects with which a draw is recorded. -/
structure PipelineObjects where
  setLayout : Handle .setLayout
  layout : Handle .pipelineLayout
  pipeline : Handle .pipeline
  deriving DecidableEq

/-- One pass of a plan. -/
structure PlanStep where
  index : Nat
  name : String
  kind : PassKind
  /-- What has to happen before the pass. -/
  barriers : TransitionBatch := .empty
  /-- What the pass does to each resource. -/
  accesses : List (String × AccessState) := []
  renderPass : Option (Handle .renderPass) := none
  framebuffer : Option (Handle .framebuffer) := none
  extent : Option Extent := none
  /-- The position of the render pass that a draw belongs to. -/
  owner : Option Nat := none
  pipeline : Option PipelineObjects := none
  deriving DecidableEq

structure Plan where
  /-- The generation of the pass graph that the plan was made from. -/
  generation : Nat
  steps : List PlanStep
  /-- What has to happen after the last pass. -/
  endOfFrame : TransitionBatch
  deriving DecidableEq

namespace Plan

def barrierCount (p : Plan) : Nat :=
  p.steps.foldl (fun n s => n + s.barriers.size) p.endOfFrame.size

/-- The first step of that name. -/
def step? (p : Plan) (name : String) : Option PlanStep := p.steps.find? (·.name == name)

end Plan

/-! ## Compiling -/

/-- A computation that gets objects from the cache: it may log, stop with a fault, or fail because
the device does; cache and device are kept in the last case. -/
abbrev PlanM (δ : Type) := ExceptT DeviceError (StateT (ObjectCache × δ) Traced)

variable {δ : Type} [Device δ]

namespace PlanM

/-- The object of that description. -/
def object (d : ObjectDesc) : PlanM δ (Handle d.kind) := fun (cache, device) =>
  let (result, cache, device) := cache.getOrCreate d device
  pure (result, cache, device)

/-- A traced computation that needs no object. -/
def traced {α : Type} (x : Traced α) : PlanM δ α := fun s => do return (.ok (← x), s)

end PlanM

namespace Plan

/-- Render pass and framebuffer of a render target. -/
def targetObjects (t : RenderTarget Attachment) :
    PlanM δ (Handle .renderPass × Handle .framebuffer) := do
  let renderPass : Handle .renderPass ← PlanM.object (.renderPass t.renderPassDesc)
  let framebuffer : Handle .framebuffer ← PlanM.object (.framebuffer (t.framebufferDesc renderPass))
  return (renderPass, framebuffer)

/-- The pipeline that draws with a shader into a render target: depth is tested and written only
where there is a depth attachment, and the first attachment sets the sample count. -/
def pipelineDesc (shader : Shader) (layout : Handle .pipelineLayout)
    (renderPass : Handle .renderPass) (t : RenderTarget Attachment) : PipelineDesc :=
  let base := PipelineDesc.standard shader.stageDescs layout renderPass t.color.length
  { base with
    samples := ((t.attachments.head?).map (·.samples)).getD base.samples
    depthStencil := { base.depthStencil with
      depthTest := t.depth.isSome
      depthWrite := t.depth.isSome } }

/-- The objects of a draw; none while its shader is not compiled. -/
def drawObjects (shaders : Registry) (phase : String) (renderPass : Handle .renderPass)
    (t : RenderTarget Attachment) : PlanM δ (Option PipelineObjects) := do
  let shader ← PlanM.traced (Traced.ofExcept (shaders.shader phase))
  if !shader.isCompiled then return none
  let setLayout : Handle .setLayout ← PlanM.object (.setLayout shader.setLayoutDesc)
  let layout : Handle .pipelineLayout ← PlanM.object (.pipelineLayout ⟨[setLayout], []⟩)
  let pipeline : Handle .pipeline ←
    PlanM.object (.pipeline (pipelineDesc shader layout renderPass t))
  return some ⟨setLayout, layout, pipeline⟩

/-- The step of a pass, without objects. -/
def bareStep (a : Analysis) (index : Nat) (pass : Pass) : PlanStep where
  index := index
  name := pass.name
  kind := pass.kind
  barriers := (a.barriers[index]?).getD .empty
  accesses := a.accesses index

/-- The attachments of the render pass at a position, if it has any. -/
def attachedTarget? (a : Analysis) (index : Nat) : Option (RenderTarget Attachment) :=
  (a.target? index).filter (! ·.attachments.isEmpty)

/-- The step of a pass with its objects, given the steps before it. -/
def compileStep (shaders : Registry) (a : Analysis) (passes : List Pass) (before : List PlanStep)
    (index : Nat) (pass : Pass) : PlanM δ PlanStep := do
  let step := bareStep a index pass
  match pass.kind with
  | .render =>
    match attachedTarget? a index with
    | none => return step
    | some t =>
      let (renderPass, framebuffer) ← targetObjects t
      return { step with
        renderPass := some renderPass
        framebuffer := some framebuffer
        extent := some t.extent }
  | .draw phase =>
    let owner := PassGraph.renderPassBefore passes index
    let drawn := do
      let i ← owner
      return (← (← before[i]?).renderPass, ← a.target? i)
    match drawn with
    | some (renderPass, t) =>
      return { step with owner, pipeline := ← drawObjects shaders phase renderPass t }
    | none => do
      PlanM.traced (Traced.report
        (.warn s!"draw batch {pass.name} has no render pass with attachments"))
      return { step with owner }
  | .compute _ | .copy => return step

/-- The steps of all passes, in order. -/
def compileSteps (shaders : Registry) (a : Analysis) (passes : List Pass) :
    PlanM δ (List PlanStep) :=
  passes.zipIdx.foldlM (fun before (pass, i) => do
    return before ++ [← compileStep shaders a passes before i pass]) []

end Plan

/-- Compiles a frame: analyses it, then gets the objects that recording it takes. The resources are
returned as the frame leaves them, also where the device fails. -/
def compileFrame (graph : PassGraph) (f : Forest) (shaders : Registry) (cache : ObjectCache)
    (device : δ) : Traced (Except DeviceError Plan × Forest × ObjectCache × δ) := do
  let (a, f) ← analyze graph.passes f shaders
  let (steps, cache, device) ← (Plan.compileSteps shaders a graph.passes).run (cache, device)
  pure (steps.map fun steps => ⟨graph.generation, steps, a.endOfFrame⟩, f, cache, device)

end FrameGraph
