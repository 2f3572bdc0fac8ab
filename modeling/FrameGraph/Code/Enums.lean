import FrameGraph.Code

/-!
# Codes of pipeline state

The numbered vocabularies of render passes, image views, descriptors and fixed-function state.
-/

set_option autoImplicit false

namespace FrameGraph

abbrev LoadOp := Code .loadOp

namespace LoadOp

def load : LoadOp := ⟨0⟩
def clear : LoadOp := ⟨1⟩
def dontCare : LoadOp := ⟨2⟩

end LoadOp

abbrev StoreOp := Code .storeOp

namespace StoreOp

def store : StoreOp := ⟨0⟩
def dontCare : StoreOp := ⟨1⟩

end StoreOp

abbrev BindPoint := Code .bindPoint

/-- The bind point of draw commands. -/
def BindPoint.graphics : BindPoint := ⟨0⟩

abbrev ImageType := Code .imageType

namespace ImageType

def oneD : ImageType := ⟨0⟩
def twoD : ImageType := ⟨1⟩
def threeD : ImageType := ⟨2⟩

end ImageType

abbrev ViewType := Code .viewType

namespace ViewType

def oneD : ViewType := ⟨0⟩
def twoD : ViewType := ⟨1⟩
def threeD : ViewType := ⟨2⟩
def cube : ViewType := ⟨3⟩
def oneDArray : ViewType := ⟨4⟩
def twoDArray : ViewType := ⟨5⟩

end ViewType

abbrev DescriptorType := Code .descriptorType

namespace DescriptorType

def sampler : DescriptorType := ⟨0⟩
def combinedImageSampler : DescriptorType := ⟨1⟩
def sampledImage : DescriptorType := ⟨2⟩
def storageImage : DescriptorType := ⟨3⟩
def uniformTexelBuffer : DescriptorType := ⟨4⟩
def storageTexelBuffer : DescriptorType := ⟨5⟩
def uniformBuffer : DescriptorType := ⟨6⟩
def storageBuffer : DescriptorType := ⟨7⟩
def uniformBufferDynamic : DescriptorType := ⟨8⟩
def storageBufferDynamic : DescriptorType := ⟨9⟩
def inputAttachment : DescriptorType := ⟨10⟩

end DescriptorType

abbrev Topology := Code .topology

/-- Every three vertices make a triangle. -/
def Topology.triangleList : Topology := ⟨3⟩

abbrev PolygonMode := Code .polygonMode

/-- Polygons are filled. -/
def PolygonMode.fill : PolygonMode := ⟨0⟩

abbrev FrontFace := Code .frontFace

/-- A counter-clockwise triangle faces the viewer. -/
def FrontFace.counterClockwise : FrontFace := ⟨0⟩

abbrev CompareOp := Code .compareOp

/-- The test passes for a smaller value. -/
def CompareOp.less : CompareOp := ⟨1⟩

abbrev BlendFactor := Code .blendFactor

namespace BlendFactor

def zero : BlendFactor := ⟨0⟩
def one : BlendFactor := ⟨1⟩
def srcAlpha : BlendFactor := ⟨6⟩
def oneMinusSrcAlpha : BlendFactor := ⟨7⟩

end BlendFactor

abbrev BlendOp := Code .blendOp

/-- Source and destination are added. -/
def BlendOp.add : BlendOp := ⟨0⟩

abbrev DynamicState := Code .dynamicState

namespace DynamicState

def viewport : DynamicState := ⟨0⟩
def scissor : DynamicState := ⟨1⟩

end DynamicState

abbrev InputRate := Code .inputRate

end FrameGraph
