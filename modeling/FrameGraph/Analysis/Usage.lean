import FrameGraph.Resource.Basic
import FrameGraph.Shader.Registry

/-!
# What a declared use does

`classify` turns the declaration that a pass uses a resource into stages and accesses, by the kind
of the pass. A declaration that contradicts itself, its resource or its shader is a fault. The layout
that an image needs follows from all accesses of a pass together: `imageLayout`.
-/

set_option autoImplicit false

namespace FrameGraph

/-- The stages at which a resource is touched and the accesses made there. -/
structure Usage where
  stage : StageMask
  access : AccessMask
  deriving DecidableEq

namespace Usage

/-- Both usages together. -/
def merge (a b : Usage) : Usage := ⟨a.stage ∪ b.stage, a.access ∪ b.access⟩

/-! ## Layouts -/

/-- Writes of a shader. -/
def shaderWrites : AccessMask := AccessMask.shaderWrite ∪ AccessMask.shaderStorageWrite

/-- Reads of a shader. -/
def shaderReads : AccessMask :=
  AccessMask.shaderRead ∪ AccessMask.shaderSampledRead ∪ AccessMask.shaderStorageRead

/-- The layout that serves the accesses to an image. Transfers come first, then shaders, then
attachments. -/
def imageLayout (access : AccessMask) (format : Format) : ImageLayout :=
  if .transferWrite ⊆ access then .transferDst
  else if .transferRead ⊆ access then .transferSrc
  else if access.meets shaderWrites then .general
  else if access.meets shaderReads then .shaderReadOnly
  else if .inputAttachmentRead ⊆ access then .general
  else if .colorAttachmentWrite ⊆ access then .colorAttachment
  else if .depthStencilAttachmentWrite ⊆ access then
    if format.hasStencil then .depthStencilAttachment else .depthAttachment
  else if .shadingRateAttachmentRead ⊆ access then .shadingRateAttachment
  else .undefined

/-- The state in which a node is used: an image in the layout that serves the accesses, a buffer in
none. -/
def stateOf (u : Usage) (n : Node) : AccessState :=
  ⟨u.stage, u.access, match n.imageDesc? with
    | some desc => imageLayout u.access desc.format
    | none => .undefined⟩

/-! ## Render passes -/

/-- The stages of a depth attachment: depth is tested before and after the fragment shader. -/
def depthStages : StageMask :=
  StageMask.colorAttachmentOutput ∪ StageMask.earlyFragmentTests ∪ StageMask.lateFragmentTests

/-- An attachment that is drawn to. -/
def ofOutput (pass : String) (use : Use) : Except Fault Usage := do
  let (stage, write, read) ←
    if use.kind.isDepthOrStencil then
      pure (depthStages, AccessMask.depthStencilAttachmentWrite,
        AccessMask.depthStencilAttachmentRead)
    else if use.kind = .color then
      pure (StageMask.colorAttachmentOutput, AccessMask.colorAttachmentWrite,
        AccessMask.colorAttachmentRead)
    else throw (.outputNeedsBinding pass use.kind use.resource)
  match use.mode with
  | .write => return ⟨stage, write⟩
  | .readWrite => return ⟨stage, write ∪ read⟩
  | .read => throw (.outputReadOnly pass use.resource)

/-- An attachment that fragments read, and may write. -/
def ofInput (use : Use) : Usage :=
  let depth := use.kind.isDepthOrStencil
  let reads : Usage :=
    ⟨if depth then StageMask.fragmentShader ∪ StageMask.earlyFragmentTests
      else StageMask.fragmentShader,
     AccessMask.inputAttachmentRead⟩
  if use.mode.writes then
    reads.merge
      (if depth then ⟨StageMask.lateFragmentTests, AccessMask.depthStencilAttachmentWrite⟩
       else ⟨StageMask.colorAttachmentOutput, AccessMask.colorAttachmentWrite⟩)
  else reads

/-- A use in a render pass. -/
def ofAttachment (pass : String) (use : Use) (n : Node) : Except Fault Usage :=
  match n.imageDesc? with
  | none => .error (.attachmentNotImage pass use.resource)
  | some desc =>
    if use.kind.isDepthOrStencil && !desc.format.isDepthOrStencil then
      .error (.formatMismatch pass use.resource use.kind desc.format)
    else if use.isOutput then ofOutput pass use
    else
      match use.kind with
      | .shadingRate =>
        if use.mode.writes then .error (.shadingRateWritten pass use.resource)
        else .ok ⟨StageMask.fragmentShader ∪ StageMask.shadingRateAttachment,
          AccessMask.shadingRateAttachmentRead⟩
      | .indirectBuffer => .error (.indirectAttachment pass use.resource)
      | _ => .ok (ofInput use)

/-! ## Other passes -/

/-- The accesses of a shader. A uniform read is a kind of its own. -/
def shaderAccess (mode : AccessMode) (uniform : Bool) : AccessMask :=
  match mode with
  | .read => if uniform then .uniformRead else .shaderRead
  | .write => .shaderWrite
  | .readWrite => AccessMask.shaderRead ∪ AccessMask.shaderWrite

/-- The arguments of a draw or dispatch. -/
def ofIndirect (pass : String) (use : Use) (n : Node) : Except Fault Usage :=
  if !n.isBufferLike || use.mode.writes then
    .error (.indirectNotReadOnlyBuffer pass use.resource)
  else .ok ⟨.drawIndirect, .indirectCommandRead⟩

/-- The pipeline stage of each shader stage. -/
def stageTable : List (ShaderStages × StageMask) :=
  [(.vertex, .vertexShader), (.tessellationControl, .tessellationControl),
   (.tessellationEvaluation, .tessellationEvaluation), (.geometry, .geometryShader),
   (.fragment, .fragmentShader), (.compute, .computeShader), (.task, .taskShader),
   (.mesh, .meshShader)]

/-- The pipeline stages of the shader stages in a visibility. -/
def namedStages (visibility : ShaderStages) : StageMask :=
  (stageTable.filter fun e => decide (e.1 ⊆ visibility)).foldl (fun m e => m ∪ e.2) ∅

/-- The pipeline stages at which a binding is seen; all graphics stages where none is named. -/
def visibleAt (visibility : ShaderStages) : Traced StageMask :=
  if namedStages visibility = ∅ then do
    Traced.report (.warn (s!"binding visibility {visibility.fullText} maps to no shader stage, " ++
      "fall back to ALL_GRAPHICS"))
    pure .allGraphics
  else pure (namedStages visibility)

/-- The binding of a shader that a use names. -/
def findBinding (pass : String) (use : Use) (shader : Shader) : Except Fault ShaderBinding :=
  match shader.binding? use.binding with
  | some b => .ok b
  | none => .error (.bindingNotFound pass use.binding shader.name)

/-- A use in a draw: the binding tells the stages. -/
def ofDraw (pass : String) (use : Use) (n : Node) (shader : Shader) : Traced Usage :=
  if use.kind = .indirectBuffer then Traced.ofExcept (ofIndirect pass use n)
  else do
    let b ← Traced.ofExcept (findBinding pass use shader)
    let stage ← visibleAt b.visibility
    pure ⟨stage, shaderAccess use.mode (b.isUniform && n.isBufferLike)⟩

/-- A use in a compute pass: the binding tells whether it is uniform, or the buffer itself where
the pass names no shader. -/
def ofCompute (pass : String) (use : Use) (n : Node) (shader : Option Shader) :
    Except Fault Usage :=
  if use.kind = .indirectBuffer then ofIndirect pass use n
  else do
    let uniform ← match shader with
      | some s => do pure ((← findBinding pass use s).isUniform && n.isBufferLike)
      | none => pure (n.bufferDesc?.any (·.isUniform))
    return ⟨.computeShader, shaderAccess use.mode uniform⟩

/-- A use in a copy. -/
def ofCopy (use : Use) : Usage :=
  ⟨.transfer, match use.mode with
    | .read => .transferRead
    | .write => .transferWrite
    | .readWrite => AccessMask.transferRead ∪ AccessMask.transferWrite⟩

/-- What a declared use of a node does. -/
def classify (shaders : Registry) (pass : Pass) (use : Use) (n : Node) : Traced Usage :=
  match pass.kind with
  | .render => Traced.ofExcept (ofAttachment pass.name use n)
  | .draw phase => do
    let shader ← Traced.ofExcept (shaders.shader phase)
    ofDraw pass.name use n shader
  | .compute phase => do
    let shader ← Traced.ofExcept (phase.mapM shaders.shader)
    Traced.ofExcept (ofCompute pass.name use n shader)
  | .copy => pure (ofCopy use)

end Usage

end FrameGraph
