import FrameGraph.Mask

/-!
# Pipeline stages

The stages at which a command touches memory, as bits of `StageMask`, and the two ways to write a
stage mask as text: `StageMask.fullText` names every flag it knows, `StageMask.shortText` is the
vocabulary of the plan dump.
-/

set_option autoImplicit false

namespace FrameGraph

abbrev StageMask := Mask .stage

namespace StageMask

def topOfPipe : StageMask := ⟨0x1⟩
def drawIndirect : StageMask := ⟨0x2⟩
def vertexInput : StageMask := ⟨0x4⟩
def vertexShader : StageMask := ⟨0x8⟩
def tessellationControl : StageMask := ⟨0x10⟩
def tessellationEvaluation : StageMask := ⟨0x20⟩
def geometryShader : StageMask := ⟨0x40⟩
def fragmentShader : StageMask := ⟨0x80⟩
def earlyFragmentTests : StageMask := ⟨0x100⟩
def lateFragmentTests : StageMask := ⟨0x200⟩
def colorAttachmentOutput : StageMask := ⟨0x400⟩
def computeShader : StageMask := ⟨0x800⟩
def transfer : StageMask := ⟨0x1000⟩
def bottomOfPipe : StageMask := ⟨0x2000⟩
def host : StageMask := ⟨0x4000⟩
def allGraphics : StageMask := ⟨0x8000⟩
def allCommands : StageMask := ⟨0x10000⟩
def taskShader : StageMask := ⟨0x80000⟩
def meshShader : StageMask := ⟨0x100000⟩
def shadingRateAttachment : StageMask := ⟨0x400000⟩

/-- The names of the core stage flags. -/
def coreNames : List (StageMask × String) :=
  [(topOfPipe, "TOP_OF_PIPE"), (drawIndirect, "DRAW_INDIRECT"), (vertexInput, "VERTEX_INPUT"),
   (vertexShader, "VERTEX_SHADER"), (tessellationControl, "TESSELLATION_CONTROL_SHADER"),
   (tessellationEvaluation, "TESSELLATION_EVALUATION_SHADER"), (geometryShader, "GEOMETRY_SHADER"),
   (fragmentShader, "FRAGMENT_SHADER"), (earlyFragmentTests, "EARLY_FRAGMENT_TESTS"),
   (lateFragmentTests, "LATE_FRAGMENT_TESTS"), (colorAttachmentOutput, "COLOR_ATTACHMENT_OUTPUT"),
   (computeShader, "COMPUTE_SHADER"), (transfer, "TRANSFER"), (bottomOfPipe, "BOTTOM_OF_PIPE"),
   (host, "HOST"), (allGraphics, "ALL_GRAPHICS"), (allCommands, "ALL_COMMANDS"),
   (⟨0x100000000⟩, "COPY"), (⟨0x200000000⟩, "RESOLVE"), (⟨0x400000000⟩, "BLIT"),
   (⟨0x800000000⟩, "CLEAR"), (⟨0x1000000000⟩, "INDEX_INPUT"),
   (⟨0x2000000000⟩, "VERTEX_ATTRIBUTE_INPUT"), (⟨0x4000000000⟩, "PRE_RASTERIZATION_SHADERS")]

/-- The names of the stage flags that extensions add, in the order of the extensions. -/
def extensionNames : List (StageMask × String) :=
  [(⟨0x4000000⟩, "VIDEO_DECODE_KHR"), (⟨0x8000000⟩, "VIDEO_ENCODE_KHR"),
   (⟨0x1000000⟩, "TRANSFORM_FEEDBACK_EXT"), (⟨0x40000⟩, "CONDITIONAL_RENDERING_EXT"),
   (⟨0x20000⟩, "COMMAND_PREPROCESS_NV"),
   (shadingRateAttachment, "FRAGMENT_SHADING_RATE_ATTACHMENT_KHR"),
   (⟨0x2000000⟩, "ACCELERATION_STRUCTURE_BUILD_KHR"), (⟨0x200000⟩, "RAY_TRACING_SHADER_KHR"),
   (⟨0x800000⟩, "FRAGMENT_DENSITY_PROCESS_EXT"), (taskShader, "TASK_SHADER_EXT"),
   (meshShader, "MESH_SHADER_EXT"), (⟨0x8000000000⟩, "SUBPASS_SHADER_HUAWEI"),
   (⟨0x10000000000⟩, "INVOCATION_MASK_HUAWEI"), (⟨0x10000000⟩, "ACCELERATION_STRUCTURE_COPY_KHR"),
   (⟨0x40000000⟩, "MICROMAP_BUILD_EXT"), (⟨0x20000000000⟩, "CLUSTER_CULLING_SHADER_HUAWEI"),
   (⟨0x20000000⟩, "OPTICAL_FLOW_NV")]

/-- The names of the stage flags: those of the core, then those of extensions. -/
def flagNames : List (StageMask × String) := coreNames ++ extensionNames

def fullText (m : StageMask) : String := m.text flagNames

/-- The stages that the plan dump names, in the order in which it prints them. -/
def shortNames : List (StageMask × String) :=
  [(topOfPipe, "TOP_OF_PIPE"), (drawIndirect, "DRAW_INDIRECT"), (vertexInput, "VERTEX_INPUT"),
   (vertexShader, "VERTEX_SHADER"), (taskShader, "TASK_SHADER"), (meshShader, "MESH_SHADER"),
   (shadingRateAttachment, "SHADING_RATE"), (earlyFragmentTests, "EARLY_FRAGMENT_TESTS"),
   (fragmentShader, "FRAGMENT_SHADER"), (lateFragmentTests, "LATE_FRAGMENT_TESTS"),
   (colorAttachmentOutput, "COLOR_ATTACHMENT_OUTPUT"), (computeShader, "COMPUTE_SHADER"),
   (transfer, "TRANSFER"), (bottomOfPipe, "BOTTOM_OF_PIPE"), (allGraphics, "ALL_GRAPHICS"),
   (allCommands, "ALL_COMMANDS")]

/-- The stages of `m` that the plan dump names; all flags of `m` where it names none. -/
def shortText (m : StageMask) : String :=
  match (shortNames.filter fun entry => decide (entry.1 ⊆ m)).map (·.2) with
  | [] => m.fullText
  | names => String.intercalate " | " names

end StageMask

end FrameGraph
