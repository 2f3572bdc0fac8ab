/-!
# Passes

A frame is a list of passes. Each pass declares the resources that it uses; the order of
declaration is the order of execution.
-/

set_option autoImplicit false

namespace FrameGraph

inductive AccessMode
  | read | write | readWrite
  deriving DecidableEq

/-- Whether the resource is changed. -/
def AccessMode.writes (m : AccessMode) : Bool := m != .read

/-- What a resource serves as in a pass. -/
inductive UseKind
  | color | depth | stencil | depthStencil | shadingRate | indirectBuffer
  deriving DecidableEq

namespace UseKind

def isDepthOrStencil (k : UseKind) : Bool := k == .depth || k == .stencil || k == .depthStencil

def name : UseKind → String
  | .color => "Color"
  | .depth => "Depth"
  | .stencil => "Stencil"
  | .depthStencil => "DepthStencil"
  | .shadingRate => "ShadingRate"
  | .indirectBuffer => "IndirectBuffer"

end UseKind

/-- A pass's declaration that it uses a resource. -/
structure Use where
  resource : String
  /-- The shader binding through which the resource is seen. In a render pass an empty name marks
  an attachment that is drawn to. -/
  binding : String
  mode : AccessMode
  kind : UseKind
  deriving DecidableEq

namespace Use

/-- Whether, in a render pass, the resource is drawn to. -/
def isOutput (u : Use) : Bool := u.binding == ""

/-! The uses that a pass can declare. -/

/-- A color attachment that is drawn to. -/
def colorOutput (resource : String) : Use := ⟨resource, "", .write, .color⟩

/-- A depth and stencil attachment that is drawn to. -/
def depthStencilOutput (resource : String) : Use := ⟨resource, "", .write, .depthStencil⟩

/-- The image that sets how often fragments are shaded. -/
def shadingRate (resource : String) : Use := ⟨resource, "shading_rate", .read, .shadingRate⟩

/-- A resource seen through a shader binding. -/
def bound (resource binding : String) (mode : AccessMode) : Use := ⟨resource, binding, mode, .color⟩

/-- The buffer that holds the arguments of a draw or dispatch. -/
def indirect (resource : String) : Use := ⟨resource, "", .read, .indirectBuffer⟩

/-- A copy from `src` to `dst`. -/
def copy (src dst : String) : List Use := [⟨src, "", .read, .color⟩, ⟨dst, "", .write, .color⟩]

end Use

inductive PassKind
  /-- Draws into attachments. -/
  | render
  /-- Runs a compute shader; the shader may be named. -/
  | compute (phase : Option String)
  | copy
  /-- Draws with the named shader, within the render pass declared before it. -/
  | draw (phase : String)
  deriving DecidableEq

namespace PassKind

def label : PassKind → String
  | .render => "RenderPass"
  | .compute _ => "ComputePass"
  | .copy => "CopyPass"
  | .draw _ => "DrawBatch"

/-- The shader that the pass names. -/
def phase? : PassKind → Option String
  | .compute phase => phase
  | .draw phase => some phase
  | _ => none

end PassKind

structure Pass where
  name : String
  kind : PassKind
  uses : List Use := []
  deriving DecidableEq

/-- The passes of a frame and how often the frame was started anew. -/
structure PassGraph where
  passes : List Pass := []
  generation : Nat := 0
  deriving DecidableEq

namespace PassGraph

def size (g : PassGraph) : Nat := g.passes.length

def push (g : PassGraph) (p : Pass) : PassGraph := { g with passes := g.passes ++ [p] }

/-- Starts a new frame without passes. -/
def clear (g : PassGraph) : PassGraph := ⟨[], g.generation + 1⟩

/-- The last position below `i` that holds a render pass. -/
def renderPassBefore (passes : List Pass) : Nat → Option Nat
  | 0 => none
  | i + 1 =>
    if (passes[i]?).any (·.kind == .render) then some i else renderPassBefore passes i

/-- The render pass that a draw at position `i` belongs to: the last one declared before it. -/
def owner? (g : PassGraph) (i : Nat) : Option Nat := renderPassBefore g.passes i

end PassGraph

end FrameGraph
