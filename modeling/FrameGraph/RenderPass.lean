import FrameGraph.Image
import FrameGraph.Code.Layout
import FrameGraph.Device.Handle

/-!
# Render passes and framebuffers

Descriptions of the objects that a device creates for a render pass. Two objects are the same to
the object cache when their descriptions are equal in every field.
-/

set_option autoImplicit false

namespace FrameGraph

/-- One image that a render pass draws to or reads from. -/
structure AttachmentDesc where
  format : Format
  samples : SampleCount
  loadOp : LoadOp
  storeOp : StoreOp
  stencilLoadOp : LoadOp
  stencilStoreOp : StoreOp
  initialLayout : ImageLayout
  finalLayout : ImageLayout
  deriving DecidableEq

/-- A subpass's use of an attachment, by its position in the render pass. -/
structure AttachmentRef where
  attachment : Nat
  layout : ImageLayout
  deriving DecidableEq

/-- The attachments of one subpass by their use. -/
structure SubpassDesc where
  bindPoint : BindPoint := .graphics
  input : List AttachmentRef := []
  color : List AttachmentRef := []
  depthStencil : Option AttachmentRef := none
  shadingRate : Option AttachmentRef := none
  deriving DecidableEq

/-- An ordering between two subpasses. -/
structure SubpassDependency where
  srcSubpass : Nat
  dstSubpass : Nat
  srcStage : Mask .subpassStage
  dstStage : Mask .subpassStage
  srcAccess : Mask .subpassAccess
  dstAccess : Mask .subpassAccess
  flags : Mask .dependency
  deriving DecidableEq

structure RenderPassDesc where
  attachments : List AttachmentDesc
  subpasses : List SubpassDesc
  dependencies : List SubpassDependency
  deriving DecidableEq

/-- A render pass of one graphics subpass. -/
def RenderPassDesc.single (attachments : List AttachmentDesc) (subpass : SubpassDesc) :
    RenderPassDesc :=
  ⟨attachments, [subpass], []⟩

/-- The views that a render pass draws to. They are compared by handle: equal views of different
images make different framebuffers. -/
structure FramebufferDesc where
  renderPass : Handle .renderPass
  width : Nat
  height : Nat
  layers : Nat
  attachments : List (Handle .imageView)
  deriving DecidableEq

namespace FramebufferDesc

/-- A framebuffer of one layer. -/
def ofViews (renderPass : Handle .renderPass) (extent : Extent)
    (attachments : List (Handle .imageView)) : FramebufferDesc :=
  ⟨renderPass, extent.width, extent.height, 1, attachments⟩

def extent (d : FramebufferDesc) : Extent := ⟨d.width, d.height⟩

end FramebufferDesc

end FrameGraph
