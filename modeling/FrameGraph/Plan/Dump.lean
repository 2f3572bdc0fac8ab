import FrameGraph.Plan.Basic

/-!
# The plan dump

A plan as log lines: for each pass its resources, objects and barriers.
-/

set_option autoImplicit false

namespace FrameGraph.Plan

/-! ## Frames around the text -/

def titleTop : String := "╔══════════════════════════════════════════════════════════════════╗"
def titleRule : String := "╠══════════════════════════════════════════════════════════════════╣"
def titleBottom : String := "╚══════════════════════════════════════════════════════════════════╝"
def boxTop : String := "┌─────────────────────────────────────────────────────────────────┐"
def boxRule : String := "├─────────────────────────────────────────────────────────────────┤"
def boxBottom : String := "└─────────────────────────────────────────────────────────────────┘"

/-! ## Parts -/

def arrow (src dst : String) : String := src ++ " → " ++ dst

/-- What becomes of the layout of an image. -/
def layoutText (t : ImageTransition) : String :=
  if t.changesLayout then arrow t.src.layout.name t.dst.layout.name
  else s!"{t.src.layout.name} (no layout change)"

/-- The stages and accesses at both ends of a barrier. -/
def syncLines (src dst : AccessState) : List String :=
  ["│       Stage:  " ++ arrow src.stage.shortText dst.stage.shortText,
   "│       Access: " ++ arrow src.srcAccess.shortText dst.access.shortText]

def imageLines (t : ImageTransition) : List String :=
  [s!"│   🔒 Image \"{t.resource}\":", "│       Layout: " ++ layoutText t] ++
    syncLines t.src t.dst ++ [s!"│       Aspect: {t.aspect.fullText}"]

def bufferLines (t : BufferTransition) : List String :=
  s!"│   🔒 Buffer \"{t.resource}\":" :: syncLines t.src t.dst

def barrierLines (b : TransitionBatch) : List String :=
  if b.isEmpty then ["│ No barriers required"]
  else
    [boxRule, s!"│ Barriers: {b.images.length} image, {b.buffers.length} buffer"] ++
      b.images.flatMap imageLines ++ b.buffers.flatMap bufferLines

def accessLine (resource : String) (s : AccessState) : String :=
  let icon := if s.isWrite then "✏️ " else "📖"
  s!"│   {icon} \"{resource}\" @ {s.layout.name} (stage: {s.stage.shortText}, " ++
    s!"access: {s.access.shortText})"

/-- The lines of a step up to its accesses. -/
def headLines (count : Nat) (s : PlanStep) : List String :=
  ["", boxTop, s!"│ [{s.index + 1}/{count}] {s.kind.label} \"{s.name}\""] ++
    (s.kind.phase?.toList.map fun phase => s!"│ Shader: {phase}") ++ [boxRule] ++
    s.accesses.map fun (resource, state) => accessLine resource state

def targetLines (s : PlanStep) : List String :=
  match s.renderPass, s.framebuffer, s.extent with
  | some renderPass, some framebuffer, some extent =>
    [s!"│ RenderPass: {renderPass.text}  Framebuffer: {framebuffer.text}  " ++
      s!"Extent: {extent.width}x{extent.height}"]
  | _, _, _ => []

def pipelineLines (s : PlanStep) : List String :=
  s.pipeline.toList.map fun p => s!"│ Pipeline: {p.pipeline.text} (layout: {p.layout.text})"

/-! ## The dump -/

def report (lines : List String) : Traced Unit := Traced.reportAll (lines.map .info)

/-- The name of the step that owns another. -/
def ownerName (p : Plan) (owner : Nat) : Except Fault String :=
  match p.steps[owner]? with
  | some s => .ok s.name
  | none => .error (.indexOutOfRange p.steps.length owner)

def dumpStep (p : Plan) (s : PlanStep) : Traced Unit := do
  report (headLines p.steps.length s ++ targetLines s)
  match s.owner with
  | some owner =>
    let name ← Traced.ofExcept (p.ownerName owner)
    report [s!"│ Owner: \"{name}\""]
  | none => pure ()
  report (pipelineLines s ++ barrierLines s.barriers ++ [boxBottom])

def titleLines (p : Plan) : List String :=
  let order := String.intercalate " → " (p.steps.map (·.name))
  [titleTop, "║              RenderGraph Execution Plan                          ║", titleRule,
   s!"║ Generation: {p.generation}  |  Passes: {p.steps.length}  |  Barriers: {p.barrierCount}",
   s!"║ Order: [{order}]", titleBottom]

def endLines (p : Plan) : List String :=
  (if p.endOfFrame.isEmpty then []
   else ["", boxTop, "│ End of frame"] ++ barrierLines p.endOfFrame ++ [boxBottom]) ++
    ["", "═══════════════════════ End of Execution Plan ═══════════════════════"]

/-- Reports the plan. A step whose owner is not in the plan is a fault. -/
def dump (p : Plan) : Traced Unit := do
  report p.titleLines
  p.steps.forM p.dumpStep
  report p.endLines

end FrameGraph.Plan
