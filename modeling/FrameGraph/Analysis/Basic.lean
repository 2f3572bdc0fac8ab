import FrameGraph.Analysis.Attachment
import FrameGraph.Analysis.Reduction
import FrameGraph.Resource.Forest

/-!
# Analysis of a frame

`analyze` looks at the passes of a frame once, in order, and finds what each does to which
resource. From that follow, without further faults, the timelines, the barriers before each pass
and at the end, the attachments of the render passes, and the states that the resources carry into
the next frame.
-/

set_option autoImplicit false

namespace FrameGraph

/-- What the declarations of one pass amount to. -/
structure PassUses where
  uses : List NodeUse := []
  /-- The attachments, where the pass is a render pass. -/
  target : Option (RenderTarget AttachmentUse) := none

structure Analysis where
  /-- What has to happen before each pass. -/
  barriers : List TransitionBatch
  /-- What has to happen after the last pass. -/
  endOfFrame : TransitionBatch
  /-- The attachments of the render passes, in pass order. -/
  targets : List (RenderTarget Attachment)
  timelines : List Timeline

namespace Analysis

/-- The number of barriers, those at the end included. -/
def barrierCount (a : Analysis) : Nat := a.barriers.foldl (fun n b => n + b.size) a.endOfFrame.size

def timeline? (a : Analysis) (resource : String) : Option (List TimelineEntry) :=
  (a.timelines.find? (·.node.name == resource)).map (·.entries)

/-- The attachments of the render pass at a position. -/
def target? (a : Analysis) (pass : Nat) : Option (RenderTarget Attachment) :=
  a.targets.find? (·.pass == pass)

/-- The accesses of a pass, in order of the resources' first use in the frame. -/
def accesses (a : Analysis) (pass : Nat) : List (String × AccessState) :=
  a.timelines.filterMap fun t => (t.stateAt? pass).map fun s => (t.node.name, s)

end Analysis

/-- Adds an image to the attachments of a render pass. -/
def attach (f : Forest) (use : Use) (p : Place) (target : RenderTarget AttachmentUse) :
    Except Fault (RenderTarget AttachmentUse) :=
  match p.node.imageDesc? with
  | none => .ok target
  | some desc => do
    let view ← f.imageViewHandle use.resource
    target.add
      { resource := use.resource, view, role := .ofUse use, kind := use.kind
        format := desc.format, samples := desc.samples, tracked := p.index }
      desc.extent

/-- Adds one declared use to what a pass does. -/
def addUse (f : Forest) (shaders : Registry) (pass : Pass) (done : PassUses) (use : Use) :
    Traced PassUses := do
  let p ← Traced.ofExcept (f.tracked use.resource)
  if !p.node.isBacked then Traced.fault (.useNotMounted pass.name use.resource)
  else do
    let usage ← Usage.classify shaders pass use p.node
    let target ← Traced.ofExcept (done.target.mapM (attach f use p))
    pure ⟨done.uses ++ [⟨p.index, usage⟩], target⟩

/-- What the declarations of a pass amount to. -/
def passUses (f : Forest) (shaders : Registry) (index : Nat) (pass : Pass) : Traced PassUses :=
  pass.uses.foldlM (addUse f shaders pass)
    { target := if pass.kind = .render then some { pass := index } else none }

/-- What the declarations of all passes amount to. -/
def frameUses (f : Forest) (shaders : Registry) (passes : List Pass) : Traced (List PassUses) :=
  passes.zipIdx.mapM fun (pass, i) => passUses f shaders i pass

/-- The analysis of a frame whose passes do what `uses` tells. -/
def Analysis.ofUses (f : Forest) (uses : List PassUses) : Analysis :=
  let timelines := Timeline.ofFrame f.nodes (uses.map (·.uses))
  { barriers := (List.range uses.length).map fun p => .before p timelines
    endOfFrame := .atEnd timelines
    targets := (uses.filterMap (·.target)).map fun t =>
      t.map (AttachmentUse.finish timelines t.pass)
    timelines }

/-- The resources after a frame: each carries the state in which the frame left it, unless its
contents do not matter. -/
def Forest.carry (f : Forest) (ts : List Timeline) : Forest :=
  (ts.filter (·.node.residency != .dontCare)).foldl
    (fun f t => f.modify t.index fun n => { n with current := t.finish }) f

/-- Analyses a frame. The resources are returned in the states in which the frame leaves them. -/
def analyze (passes : List Pass) (f : Forest) (shaders : Registry) :
    Traced (Analysis × Forest) := do
  let uses ← frameUses f shaders passes
  let a := Analysis.ofUses f uses
  pure (a, f.carry a.timelines)

end FrameGraph
