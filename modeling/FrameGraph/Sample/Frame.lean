import FrameGraph.Device.Headless
import FrameGraph.Pass.Basic
import FrameGraph.Resource.Forest

/-!
# The sample frame

A deferred frame: lights are uploaded, instances are culled, color, normal and depth are drawn, and
lighting draws the result into the swapchain.
-/

set_option autoImplicit false

namespace FrameGraph.Sample

/-- The shaders that the passes name. -/
def shaderNames : List String := ["deferred/cull", "deferred/gbuffer", "deferred/lighting"]

/-- The name of the swapchain. -/
def swapchain : String := "swapchain"

/-- An image that is drawn to and read later in the frame. -/
def target (extent : Extent) (format : Format) (attachment : ImageUsage) : ImageDesc :=
  .twoD extent.width extent.height format (attachment ∪ ImageUsage.sampled)

/-- The images and buffers of the frame. -/
def localResources (extent : Extent) : Except Fault Forest := do
  let color := ImageUsage.colorAttachment
  let storage := BufferUsage.storage ∪ BufferUsage.transferDst
  let f ← Forest.addImage {} "albedo" (target extent .r8g8b8a8Unorm color) .transient
  let f ← f.addImage "normal" (target extent .r16g16b16a16Sfloat color) .transient
  let f ← f.addImage "depth" (target extent .d32Sfloat .depthStencilAttachment) .transient
  let f ← f.addBuffer "camera" (.uniform 256) .persistent
  let f ← f.addBuffer "light_upload" ⟨64 * 32, .transferSrc⟩ .persistent
  let f ← f.addBuffer "lights" ⟨64 * 32, storage⟩ .persistent
  let f ← f.addBuffer "instances" ⟨1024 * 80, storage⟩ .persistent
  f.addBuffer "draws" ⟨1024 * 20, storage ∪ BufferUsage.indirect⟩ .dontCare

/-- The resources of the frame, with a swapchain of `count` images. -/
def resources (extent : Extent) (count : Nat) (device : Headless) :
    Except Fault (Forest × Headless) := do
  let f ← localResources extent
  let (images, device) := device.externalImages count
  return (← f.addSwapchain swapchain ⟨images, .b8g8r8a8Unorm, extent⟩, device)

/-- The passes of the frame in order. -/
def passes : List Pass := [
  { name := "upload/lights", kind := .copy, uses := Use.copy "light_upload" "lights" },
  { name := "cull", kind := .compute "deferred/cull"
    uses := [
      .bound "instances" "Instances" .read,
      .bound "draws" "DrawCommands" .write,
      .bound "camera" "Camera" .read] },
  { name := "gbuffer", kind := .render
    uses := [.colorOutput "albedo", .colorOutput "normal", .depthStencilOutput "depth"] },
  { name := "gbuffer/opaque", kind := .draw "deferred/gbuffer"
    uses := [
      .bound "camera" "Camera" .read,
      .bound "instances" "Instances" .read,
      .indirect "draws"] },
  { name := "lighting", kind := .render, uses := [.colorOutput swapchain] },
  { name := "lighting/fullscreen", kind := .draw "deferred/lighting"
    uses := [
      .bound "camera" "Camera" .read,
      .bound "albedo" "albedo" .read,
      .bound "normal" "normal" .read,
      .bound "depth" "depth" .read,
      .bound "lights" "Lights" .read] }]

/-- A pass graph that starts a new frame with the passes. -/
def declare (g : PassGraph) : PassGraph := passes.foldl PassGraph.push g.clear

end FrameGraph.Sample
