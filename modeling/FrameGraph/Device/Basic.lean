import FrameGraph.Buffer
import FrameGraph.Image
import FrameGraph.Pipeline
import FrameGraph.RenderPass
import FrameGraph.Trace

/-!
# Devices

The planner only says when an object is needed; a device makes it. `Device δ` is what the planner
asks of a device whose state is `δ`. A creation may fail, and the device's state after it is kept
whether it fails or not. A destruction never fails, but a device may refuse it as a fault.
-/

set_option autoImplicit false

namespace FrameGraph

/-- Why a device could not make an object, as its number. -/
structure DeviceError where
  code : Int
  deriving DecidableEq

namespace DeviceError

def initializationFailed : DeviceError := ⟨-3⟩

/-- The words given are no shader. -/
def invalidShader : DeviceError := ⟨-1000012000⟩

end DeviceError

/-- A call that may change the device and may fail. -/
abbrev DeviceCall (δ α : Type) := δ → Except DeviceError α × δ

class Device (δ : Type) where
  createBuffer : BufferDesc → String → DeviceCall δ (Handle .buffer)
  createBufferView : Handle .buffer → BufferViewDesc → String → DeviceCall δ (Handle .bufferView)
  createImage : ImageDesc → String → DeviceCall δ (Handle .image)
  createImageView : Handle .image → ImageViewDesc → String → DeviceCall δ (Handle .imageView)
  destroyBuffer : Handle .buffer → δ → Except Fault δ
  destroyBufferView : Handle .bufferView → δ → Except Fault δ
  destroyImage : Handle .image → δ → Except Fault δ
  destroyImageView : Handle .imageView → δ → Except Fault δ
  createRenderPass : RenderPassDesc → DeviceCall δ (Handle .renderPass)
  createFramebuffer : FramebufferDesc → DeviceCall δ (Handle .framebuffer)
  createPipeline : PipelineDesc → DeviceCall δ (Handle .pipeline)
  createSetLayout : SetLayoutDesc → DeviceCall δ (Handle .setLayout)
  createPipelineLayout : PipelineLayoutDesc → DeviceCall δ (Handle .pipelineLayout)
  /-- Makes a module of compiled shader words; the device may comment on them. -/
  createShaderModule :
    List Nat → String → δ → Traced (Except DeviceError (Handle .shaderModule) × δ)

end FrameGraph
