import FrameGraph.Mask

/-!
# Memory accesses

The ways in which a command touches memory, as bits of `AccessMask`. `AccessMask.writes` collects
the accesses that change memory.
-/

set_option autoImplicit false

namespace FrameGraph

abbrev AccessMask := Mask .access

namespace AccessMask

def indirectCommandRead : AccessMask := ⟨0x1⟩
def indexRead : AccessMask := ⟨0x2⟩
def vertexAttributeRead : AccessMask := ⟨0x4⟩
def uniformRead : AccessMask := ⟨0x8⟩
def inputAttachmentRead : AccessMask := ⟨0x10⟩
def shaderRead : AccessMask := ⟨0x20⟩
def shaderWrite : AccessMask := ⟨0x40⟩
def colorAttachmentRead : AccessMask := ⟨0x80⟩
def colorAttachmentWrite : AccessMask := ⟨0x100⟩
def depthStencilAttachmentRead : AccessMask := ⟨0x200⟩
def depthStencilAttachmentWrite : AccessMask := ⟨0x400⟩
def transferRead : AccessMask := ⟨0x800⟩
def transferWrite : AccessMask := ⟨0x1000⟩
def hostRead : AccessMask := ⟨0x2000⟩
def hostWrite : AccessMask := ⟨0x4000⟩
def memoryRead : AccessMask := ⟨0x8000⟩
def memoryWrite : AccessMask := ⟨0x10000⟩
def shadingRateAttachmentRead : AccessMask := ⟨0x800000⟩
def shaderSampledRead : AccessMask := ⟨0x100000000⟩
def shaderStorageRead : AccessMask := ⟨0x200000000⟩
def shaderStorageWrite : AccessMask := ⟨0x400000000⟩

/-- The accesses that change memory. -/
def writes : AccessMask :=
  shaderWrite ∪ shaderStorageWrite ∪ colorAttachmentWrite ∪ depthStencilAttachmentWrite ∪
    transferWrite ∪ hostWrite ∪ memoryWrite

/-- The names of the core access flags. -/
def coreNames : List (AccessMask × String) :=
  [(indirectCommandRead, "INDIRECT_COMMAND_READ"), (indexRead, "INDEX_READ"),
   (vertexAttributeRead, "VERTEX_ATTRIBUTE_READ"), (uniformRead, "UNIFORM_READ"),
   (inputAttachmentRead, "INPUT_ATTACHMENT_READ"), (shaderRead, "SHADER_READ"),
   (shaderWrite, "SHADER_WRITE"), (colorAttachmentRead, "COLOR_ATTACHMENT_READ"),
   (colorAttachmentWrite, "COLOR_ATTACHMENT_WRITE"),
   (depthStencilAttachmentRead, "DEPTH_STENCIL_ATTACHMENT_READ"),
   (depthStencilAttachmentWrite, "DEPTH_STENCIL_ATTACHMENT_WRITE"),
   (transferRead, "TRANSFER_READ"), (transferWrite, "TRANSFER_WRITE"), (hostRead, "HOST_READ"),
   (hostWrite, "HOST_WRITE"), (memoryRead, "MEMORY_READ"), (memoryWrite, "MEMORY_WRITE"),
   (shaderSampledRead, "SHADER_SAMPLED_READ"), (shaderStorageRead, "SHADER_STORAGE_READ"),
   (shaderStorageWrite, "SHADER_STORAGE_WRITE")]

/-- The names of the access flags that extensions add, in the order of the extensions. -/
def extensionNames : List (AccessMask × String) :=
  [(⟨0x800000000⟩, "VIDEO_DECODE_READ_KHR"), (⟨0x1000000000⟩, "VIDEO_DECODE_WRITE_KHR"),
   (⟨0x2000000000⟩, "VIDEO_ENCODE_READ_KHR"), (⟨0x4000000000⟩, "VIDEO_ENCODE_WRITE_KHR"),
   (⟨0x2000000⟩, "TRANSFORM_FEEDBACK_WRITE_EXT"),
   (⟨0x4000000⟩, "TRANSFORM_FEEDBACK_COUNTER_READ_EXT"),
   (⟨0x8000000⟩, "TRANSFORM_FEEDBACK_COUNTER_WRITE_EXT"),
   (⟨0x100000⟩, "CONDITIONAL_RENDERING_READ_EXT"), (⟨0x20000⟩, "COMMAND_PREPROCESS_READ_NV"),
   (⟨0x40000⟩, "COMMAND_PREPROCESS_WRITE_NV"),
   (shadingRateAttachmentRead, "FRAGMENT_SHADING_RATE_ATTACHMENT_READ_KHR"),
   (⟨0x200000⟩, "ACCELERATION_STRUCTURE_READ_KHR"),
   (⟨0x400000⟩, "ACCELERATION_STRUCTURE_WRITE_KHR"),
   (⟨0x1000000⟩, "FRAGMENT_DENSITY_MAP_READ_EXT"),
   (⟨0x80000⟩, "COLOR_ATTACHMENT_READ_NONCOHERENT_EXT"),
   (⟨0x20000000000⟩, "DESCRIPTOR_BUFFER_READ_EXT"),
   (⟨0x8000000000⟩, "INVOCATION_MASK_READ_HUAWEI"),
   (⟨0x10000000000⟩, "SHADER_BINDING_TABLE_READ_KHR"), (⟨0x100000000000⟩, "MICROMAP_READ_EXT"),
   (⟨0x200000000000⟩, "MICROMAP_WRITE_EXT"), (⟨0x40000000000⟩, "OPTICAL_FLOW_READ_NV"),
   (⟨0x80000000000⟩, "OPTICAL_FLOW_WRITE_NV")]

/-- The names of the access flags: those of the core, then those of extensions. -/
def flagNames : List (AccessMask × String) := coreNames ++ extensionNames

def fullText (m : AccessMask) : String := m.text flagNames

/-- The accesses that the plan dump names, in the order in which it prints them. -/
def shortNames : List (AccessMask × String) :=
  [(indirectCommandRead, "INDIRECT_CMD_READ"), (uniformRead, "UNIFORM_READ"),
   (inputAttachmentRead, "INPUT_ATTACH_READ"), (shaderRead, "SHADER_READ"),
   (shaderWrite, "SHADER_WRITE"), (colorAttachmentRead, "COLOR_ATTACH_READ"),
   (colorAttachmentWrite, "COLOR_ATTACH_WRITE"),
   (depthStencilAttachmentRead, "DEPTH_ATTACH_READ"),
   (depthStencilAttachmentWrite, "DEPTH_ATTACH_WRITE"),
   (shadingRateAttachmentRead, "SHADING_RATE_READ"), (transferRead, "TRANSFER_READ"),
   (transferWrite, "TRANSFER_WRITE"), (memoryRead, "MEMORY_READ"),
   (memoryWrite, "MEMORY_WRITE")]

/-- The accesses of `m` that the plan dump names; all flags of `m` where it names none, and `NONE`
for no access at all. -/
def shortText (m : AccessMask) : String :=
  if m = ∅ then "NONE"
  else
    match (shortNames.filter fun entry => decide (entry.1 ⊆ m)).map (·.2) with
    | [] => m.fullText
    | names => String.intercalate " | " names

end AccessMask

end FrameGraph
