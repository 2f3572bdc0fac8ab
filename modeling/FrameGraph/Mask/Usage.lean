import FrameGraph.Mask

/-!
# Masks of resource descriptions

Image aspects, image and buffer usages, sample counts, shader stages and the flags of descriptor
set layouts.
-/

set_option autoImplicit false

namespace FrameGraph

abbrev Aspect := Mask .aspect

namespace Aspect

def color : Aspect := ⟨0x1⟩
def depth : Aspect := ⟨0x2⟩
def stencil : Aspect := ⟨0x4⟩
def metadata : Aspect := ⟨0x8⟩

/-- The names of the aspect flags; the planes of memory come before those of a format. -/
def flagNames : List (Aspect × String) :=
  [(color, "COLOR"), (depth, "DEPTH"), (stencil, "STENCIL"), (metadata, "METADATA"),
   (⟨0x80⟩, "MEMORY_PLANE_0_EXT"), (⟨0x100⟩, "MEMORY_PLANE_1_EXT"),
   (⟨0x200⟩, "MEMORY_PLANE_2_EXT"), (⟨0x400⟩, "MEMORY_PLANE_3_EXT"), (⟨0x10⟩, "PLANE_0"),
   (⟨0x20⟩, "PLANE_1"), (⟨0x40⟩, "PLANE_2")]

def fullText (m : Aspect) : String := m.text flagNames

end Aspect

abbrev ImageUsage := Mask .imageUsage

namespace ImageUsage

def transferSrc : ImageUsage := ⟨0x1⟩
def transferDst : ImageUsage := ⟨0x2⟩
def sampled : ImageUsage := ⟨0x4⟩
def storage : ImageUsage := ⟨0x8⟩
def colorAttachment : ImageUsage := ⟨0x10⟩
def depthStencilAttachment : ImageUsage := ⟨0x20⟩

end ImageUsage

abbrev BufferUsage := Mask .bufferUsage

namespace BufferUsage

def transferSrc : BufferUsage := ⟨0x1⟩
def transferDst : BufferUsage := ⟨0x2⟩
def uniformTexel : BufferUsage := ⟨0x4⟩
def uniform : BufferUsage := ⟨0x10⟩
def storage : BufferUsage := ⟨0x20⟩
def indirect : BufferUsage := ⟨0x100⟩

end BufferUsage

abbrev SampleCount := Mask .sampleCount

/-- One sample per texel. -/
def SampleCount.one : SampleCount := ⟨0x1⟩

abbrev ShaderStages := Mask .shaderStage

namespace ShaderStages

def vertex : ShaderStages := ⟨0x1⟩
def tessellationControl : ShaderStages := ⟨0x2⟩
def tessellationEvaluation : ShaderStages := ⟨0x4⟩
def geometry : ShaderStages := ⟨0x8⟩
def fragment : ShaderStages := ⟨0x10⟩
def compute : ShaderStages := ⟨0x20⟩
def task : ShaderStages := ⟨0x40⟩
def mesh : ShaderStages := ⟨0x80⟩

/-- Every shader stage there is or may be. -/
def all : ShaderStages := ⟨0x7FFFFFFF⟩

/-- The names of the shader stage flags: those of the core, then those of extensions. -/
def flagNames : List (ShaderStages × String) :=
  [(vertex, "VERTEX"), (tessellationControl, "TESSELLATION_CONTROL"),
   (tessellationEvaluation, "TESSELLATION_EVALUATION"), (geometry, "GEOMETRY"),
   (fragment, "FRAGMENT"), (compute, "COMPUTE"), (⟨0x100⟩, "RAYGEN_KHR"), (⟨0x200⟩, "ANY_HIT_KHR"),
   (⟨0x400⟩, "CLOSEST_HIT_KHR"), (⟨0x800⟩, "MISS_KHR"), (⟨0x1000⟩, "INTERSECTION_KHR"),
   (⟨0x2000⟩, "CALLABLE_KHR"), (task, "TASK_EXT"), (mesh, "MESH_EXT"),
   (⟨0x4000⟩, "SUBPASS_SHADING_HUAWEI"), (⟨0x80000⟩, "CLUSTER_CULLING_HUAWEI")]

def fullText (m : ShaderStages) : String := m.text flagNames

end ShaderStages

abbrev DescriptorBindingFlags := Mask .descriptorBinding

namespace DescriptorBindingFlags

def updateAfterBind : DescriptorBindingFlags := ⟨0x1⟩
def partiallyBound : DescriptorBindingFlags := ⟨0x4⟩

end DescriptorBindingFlags

abbrev SetLayoutFlags := Mask .setLayout

/-- Descriptors of the set may be written after it is bound. -/
def SetLayoutFlags.updateAfterBindPool : SetLayoutFlags := ⟨0x2⟩

end FrameGraph
