import FrameGraph.Mask.Usage
import FrameGraph.Code.Format
import FrameGraph.Code.Enums
import FrameGraph.Device.Handle

/-!
# Graphics pipelines and their layouts

Descriptions of descriptor set layouts, pipeline layouts and graphics pipelines.
`PipelineDesc.standard` is the fixed-function state from which every pipeline starts.
-/

set_option autoImplicit false

namespace FrameGraph

/-! ## Layouts -/

structure DescriptorBindingDesc where
  binding : Nat
  descriptorType : DescriptorType
  count : Nat
  stages : ShaderStages
  flags : DescriptorBindingFlags
  deriving DecidableEq

structure SetLayoutDesc where
  bindings : List DescriptorBindingDesc
  flags : SetLayoutFlags
  deriving DecidableEq

structure PushConstantRange where
  stages : ShaderStages
  offset : Nat
  size : Nat
  deriving DecidableEq

structure PipelineLayoutDesc where
  setLayouts : List (Handle .setLayout)
  pushConstants : List PushConstantRange
  deriving DecidableEq

/-! ## Pipelines -/

structure ShaderStageDesc where
  stage : ShaderStages
  module : Handle .shaderModule
  entryPoint : String := "main"
  deriving DecidableEq

structure VertexBindingDesc where
  binding : Nat
  stride : Nat
  inputRate : InputRate
  deriving DecidableEq

structure VertexAttributeDesc where
  location : Nat
  binding : Nat
  format : Format
  offset : Nat
  deriving DecidableEq

/-- How triangles become fragments. The line width is kept as the bits of its single-precision
number, which makes descriptions comparable. -/
structure RasterDesc where
  polygonMode : PolygonMode := .fill
  cullMode : Mask .cullMode := ⟨0x2⟩
  frontFace : FrontFace := .counterClockwise
  depthBias : Bool := false
  lineWidthBits : Nat := 0x3F800000
  deriving DecidableEq

structure DepthStencilDesc where
  depthTest : Bool := true
  depthWrite : Bool := true
  depthCompare : CompareOp := .less
  stencilTest : Bool := false
  deriving DecidableEq

/-- How a fragment's color meets the color that the attachment holds. -/
structure ColorBlendDesc where
  enable : Bool
  srcColor : BlendFactor
  dstColor : BlendFactor
  colorOp : BlendOp
  srcAlpha : BlendFactor
  dstAlpha : BlendFactor
  alphaOp : BlendOp
  writeMask : Mask .colorComponent
  deriving DecidableEq

namespace ColorBlendDesc

/-- The fragment's color replaces the attachment's. -/
def opaqueWrite : ColorBlendDesc where
  enable := false
  srcColor := .one
  dstColor := .zero
  colorOp := .add
  srcAlpha := .one
  dstAlpha := .zero
  alphaOp := .add
  writeMask := ⟨0xF⟩

/-- The colors are mixed by the fragment's alpha. -/
def alphaBlend : ColorBlendDesc :=
  { opaqueWrite with enable := true, srcColor := .srcAlpha, dstColor := .oneMinusSrcAlpha }

end ColorBlendDesc

/-- All state of a graphics pipeline. -/
structure PipelineDesc where
  stages : List ShaderStageDesc
  vertexBindings : List VertexBindingDesc
  vertexAttributes : List VertexAttributeDesc
  topology : Topology
  raster : RasterDesc
  depthStencil : DepthStencilDesc
  /-- One for each color attachment. -/
  blends : List ColorBlendDesc
  samples : SampleCount
  dynamicStates : List DynamicState
  layout : Handle .pipelineLayout
  renderPass : Handle .renderPass
  subpass : Nat
  deriving DecidableEq

/-- A pipeline that draws triangles without vertex input, with depth test and without blending;
viewport and scissor are set while recording. -/
def PipelineDesc.standard (stages : List ShaderStageDesc) (layout : Handle .pipelineLayout)
    (renderPass : Handle .renderPass) (colorCount : Nat) : PipelineDesc where
  stages := stages
  vertexBindings := []
  vertexAttributes := []
  topology := .triangleList
  raster := {}
  depthStencil := {}
  blends := List.replicate colorCount .opaqueWrite
  samples := .one
  dynamicStates := [.viewport, .scissor]
  layout := layout
  renderPass := renderPass
  subpass := 0

end FrameGraph
