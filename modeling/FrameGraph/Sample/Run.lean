import FrameGraph.Plan.Dump
import FrameGraph.Resource.Mount
import FrameGraph.Sample.Frame
import FrameGraph.Settings

/-!
# Running the sample frame

`Sample.run` plans the sample frame as often as the settings say, on the headless device, and logs
what each frame did. The resources are mounted anew in each frame, and released at the end.
-/

set_option autoImplicit false

namespace FrameGraph.Sample

/-- What the caller of a run may choose. -/
structure Options where
  /-- The settings file; without it, the one of the workspace. -/
  config : Option String := none
  /-- The number of frames, in place of the one in the settings. -/
  frames : Option Nat := none
  /-- The shader directory, in place of the one in the settings. -/
  shaderDir : Option String := none
  /-- Whether to compile the shaders. -/
  compile : Bool := false
  deriving DecidableEq

/-- Why a run ended early. -/
inductive RunError
  | settings (cause : SettingsError)
  | noSwapchainImages
  | shader (cause : ShaderError)
  | mount (name : String) (cause : DeviceError)
  | frame (index : Nat) (cause : DeviceError)
  deriving DecidableEq

def RunError.chain : RunError → ErrorChain
  | settings cause => cause.chain
  | noSwapchainImages => ⟨["swapchain_image_count 必须大于 0"], none⟩
  | shader cause => cause.chain
  | mount name cause => ⟨[s!"mount {name} 失败"], some (.device cause)⟩
  | frame index cause => ⟨[s!"编译第 {index} 帧失败"], some (.device cause)⟩

/-- What frames hand on to the next. -/
structure RunState where
  forest : Forest
  device : Headless
  graph : PassGraph := {}
  cache : ObjectCache := {}

/-- A traced computation that may end the run. -/
abbrev RunM := ExceptT RunError Traced

namespace RunM

/-- A computation that only a fault can end. -/
def traced {α : Type} (x : Traced α) : RunM α := ExceptT.lift x

/-- A computation whose failure ends the run. -/
def orEnd {ε α : Type} (wrap : ε → RunError) (x : Except ε α) : RunM α :=
  ExceptT.mk (pure (x.mapError wrap))

def report (l : LogLine) : RunM Unit := traced (Traced.report l)

end RunM

/-- The settings of the run, as the options amend them. -/
def settings (w : Workspace) (o : Options) (files : FileTree) : RunM Settings := do
  let path := o.config.getD (w.config "render-graph.toml")
  let s ← RunM.orEnd .settings (Settings.load files path)
  let s := { s with
    frames := o.frames.getD s.frames
    shaderRoot := o.shaderDir.getD s.shaderRoot }
  if s.swapchainImageCount = 0 then throw .noSwapchainImages
  return s

/-- The shaders that the passes name. -/
def loadShaders (files : FileTree) (dir : String) : RunM Registry :=
  shaderNames.foldlM (fun shaders name => do
    let (result, shaders) ← RunM.traced (shaders.load files dir name)
    let _ ← RunM.orEnd .shader result
    return shaders) {}

/-- Compiles the shaders. -/
def compileShaders {κ : Type} [ShaderCompiler κ] (shaders : Registry) (compiler : κ)
    (device : Headless) : RunM (Registry × Headless) := do
  let (result, shaders, _, device) ← RunM.traced (shaders.compile "deferred" compiler device)
  let count ← RunM.orEnd .shader result
  RunM.report (.info s!"compiled {count} shader modules")
  return (shaders, device)

/-- Mounts the named resources in order. -/
def mountAll (names : List String) (s : RunState) : RunM RunState :=
  names.foldlM (fun s name => do
    let (result, forest, device) ← RunM.traced (s.forest.mount name s.device)
    RunM.orEnd (.mount name) result
    return { s with forest, device }) s

/-- What one frame did. -/
structure FrameReport where
  plan : Plan
  /-- How many resources the frame released. -/
  released : Nat

/-- Plans frame `i`: mounts the named resources, shows an image of the swapchain, compiles the
passes and releases what was not mounted. -/
def frame (settings : Settings) (shaders : Registry) (names : List String) (i : Nat)
    (s : RunState) : RunM (FrameReport × RunState) := do
  let graph := declare s.graph
  let life := s.forest.life + 1
  let s ← mountAll names s
  let forest ← RunM.traced
    (Traced.ofExcept (s.forest.acquire swapchain (i % settings.swapchainImageCount)))
  let (result, forest, cache, device) ←
    RunM.traced (compileFrame graph forest shaders s.cache s.device)
  let plan ← RunM.orEnd (.frame i) result
  if settings.printPlan then RunM.traced plan.dump
  RunM.report (.info (s!"frame {i}: {plan.steps.length} passes, {plan.barrierCount} barriers, " ++
    s!"cache {cache.statsText}"))
  let (released, forest, device) ← RunM.traced (Traced.ofExcept (forest.unmountExpired life device))
  if 0 < released then RunM.report (.info s!"frame {i}: released {released} expired resources")
  return (⟨plan, released⟩, { forest, device, graph, cache })

/-- Plans `count` frames from frame `i` on. -/
def framesFrom (settings : Settings) (shaders : Registry) (names : List String) (i : Nat) :
    Nat → RunState → RunM (List FrameReport × RunState)
  | 0, s => return ([], s)
  | count + 1, s => do
    let (report, s) ← frame settings shaders names i s
    let (reports, s) ← framesFrom settings shaders names (i + 1) count s
    return (report :: reports, s)

/-- No resource was mounted as late as this. -/
def lastLife : Nat := 0xFFFFFFFFFFFFFFFF

/-- Plans all frames of the settings and releases all resources. -/
def plan (settings : Settings) (shaders : Registry) (device : Headless) :
    RunM (List FrameReport × RunState) := do
  let (forest, device) ← RunM.traced
    (Traced.ofExcept (resources settings.extent settings.swapchainImageCount device))
  let names := (forest.nodes.filter (·.isRoot)).map (·.name)
  let (reports, s) ← framesFrom settings shaders names 0 settings.frames { forest, device }
  let (released, forest, device) ←
    RunM.traced (Traced.ofExcept (s.forest.unmountExpired lastLife s.device))
  RunM.report (.info s!"released {released} resources, backend objects: {device.created.text}")
  return (reports, { s with forest, device })

/-- A run: reads the settings, loads the shaders and plans the frames. `program` runs the shader
compiler on its arguments. -/
def run (w : Workspace) (o : Options) (files : FileTree)
    (program : List String → Except IoError ProgramOutput) :
    RunM (List FrameReport × RunState) := do
  let s ← settings w o files
  RunM.report (.info ("settings: " ++ s.text))
  let dir := s.shaderRootPath w
  let shaders ← loadShaders files dir
  if o.compile then
    let compiler := Glslc.ofWorkspace w [joinPath dir "include"] program
    let (shaders, device) ← compileShaders shaders compiler {}
    plan s shaders device
  else plan s shaders {}

end FrameGraph.Sample
