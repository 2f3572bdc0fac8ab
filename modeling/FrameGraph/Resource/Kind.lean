/-!
# Kinds of resources
-/

set_option autoImplicit false

namespace FrameGraph

/-- What a node of the resource forest stands for. -/
inductive ResourceKind
  | buffer | bufferView | image | imageView | swapchain
  deriving DecidableEq

namespace ResourceKind

def name : ResourceKind → String
  | .buffer => "Buffer"
  | .bufferView => "BufferView"
  | .image => "Image"
  | .imageView => "ImageView"
  | .swapchain => "Swapchain"

/-- The kind as a noun in a message. -/
def noun : ResourceKind → String
  | .buffer => "buffer"
  | .bufferView => "buffer view"
  | .image => "image"
  | .imageView => "image view"
  | .swapchain => "swapchain"

/-- The kind as a noun with its article. -/
def phrase (k : ResourceKind) : String :=
  (if k = .image ∨ k = .imageView then "an " else "a ") ++ k.noun

end ResourceKind

/-- How long the contents of a resource matter. -/
inductive Residency
  /-- The contents matter within one frame; the object may be used again in the next. -/
  | transient
  /-- The contents are kept from frame to frame. -/
  | persistent
  /-- Every frame starts from the undefined state and none is carried over. -/
  | dontCare
  /-- The object belongs to a swapchain. -/
  | swapchain
  deriving DecidableEq

end FrameGraph
