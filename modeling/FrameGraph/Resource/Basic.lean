import FrameGraph.AccessState
import FrameGraph.Buffer
import FrameGraph.Device.Handle
import FrameGraph.Image
import FrameGraph.Resource.Kind

/-!
# Resources

A node of the resource forest: a buffer, an image, a view of either, or a swapchain. The object
behind a node is made when the node is first mounted; until then the node has no handle.
-/

set_option autoImplicit false

namespace FrameGraph

/-- Images made elsewhere that are shown in turn. -/
structure SwapchainImport where
  images : List (Handle .image)
  format : Format
  extent : Extent
  deriving DecidableEq

/-- The description of each image of the swapchain. -/
def SwapchainImport.imageDesc (s : SwapchainImport) : ImageDesc :=
  .twoD s.extent.width s.extent.height s.format
    (ImageUsage.colorAttachment ∪ ImageUsage.transferDst)

/-- What a node stands for, with the handle of its object where it has one. -/
inductive Payload
  | buffer (desc : BufferDesc) (handle : Option (Handle .buffer))
  | bufferView (desc : BufferViewDesc) (origin : String) (handle : Option (Handle .bufferView))
  /-- An external image is never destroyed here: it belongs to its swapchain. -/
  | image (desc : ImageDesc) (handle : Option (Handle .image)) (external : Bool)
  | imageView (desc : ImageViewDesc) (origin : String) (handle : Option (Handle .imageView))
  /-- `acquired` is the position of the image that is drawn to next. -/
  | swapchain (source : SwapchainImport) (acquired : Nat)
  deriving DecidableEq

namespace Payload

def kind : Payload → ResourceKind
  | buffer _ _ => .buffer
  | bufferView _ _ _ => .bufferView
  | image _ _ _ => .image
  | imageView _ _ _ => .imageView
  | swapchain _ _ => .swapchain

/-- Whether the object exists. A swapchain needs none. -/
def isBacked : Payload → Bool
  | buffer _ h => h.isSome
  | bufferView _ _ h => h.isSome
  | image _ h _ => h.isSome
  | imageView _ _ h => h.isSome
  | swapchain _ _ => true

/-- Whether there is an object here that the forest has to destroy. -/
def isOwned : Payload → Bool
  | buffer _ h => h.isSome
  | bufferView _ _ h => h.isSome
  | image _ h external => h.isSome && !external
  | imageView _ _ h => h.isSome
  | swapchain _ _ => false

/-- The name of the resource that a view shows. -/
def origin? : Payload → Option String
  | bufferView _ origin _ => some origin
  | imageView _ origin _ => some origin
  | _ => none

end Payload

structure Node where
  name : String
  residency : Residency
  payload : Payload
  /-- The position of the node that this one belongs to. -/
  parent : Option Nat := none
  /-- When the node was last mounted, in mounts of the forest. -/
  life : Nat := 0
  /-- The state that the last frame left behind. -/
  current : AccessState := .undefined
  deriving DecidableEq

namespace Node

def kind (n : Node) : ResourceKind := n.payload.kind

def isRoot (n : Node) : Bool := n.parent.isNone

def isBacked (n : Node) : Bool := n.payload.isBacked

/-- Whether the node is a buffer or a view of one. -/
def isBufferLike (n : Node) : Bool := n.kind == .buffer || n.kind == .bufferView

def imageDesc? (n : Node) : Option ImageDesc :=
  match n.payload with
  | .image desc _ _ => some desc
  | _ => none

def bufferDesc? (n : Node) : Option BufferDesc :=
  match n.payload with
  | .buffer desc _ => some desc
  | _ => none

end Node

/-- The name of the view through which an image is used when a pass names the image itself. -/
def defaultViewName (image : String) : String := image ++ "/" ++ image

end FrameGraph
