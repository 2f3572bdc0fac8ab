import FrameGraph.Code.Format
import FrameGraph.Pass.Basic
import FrameGraph.Resource.Kind
import FrameGraph.Text.Quoted

/-!
# Faults

A fault is a mistake in the use of the library, such as a pass that names an unknown resource. It
stops the step in which it shows. `Fault.message` holds the wording of all faults.
-/

set_option autoImplicit false

namespace FrameGraph

inductive Fault
  -- Registering, mounting and looking up resources.
  | alreadyExists (name : String)
  | notRegistered (name : String)
  | wrongOrigin (origin : String) (actual expected : ResourceKind)
  | emptySwapchain (name : String)
  | originNotMounted (origin view : String)
  | acquireOutOfRange (name : String) (count index : Nat)
  | notSwapchain (name : String)
  | swapchainNotMounted (name : String)
  | noDefaultView (name : String)
  | notMounted (kind : ResourceKind) (name : String)
  | wrongKind (expected : ResourceKind) (name : String)
  -- Destroying objects.
  | bufferInUse (name : Option String)
  | imageInUse (name : Option String)
  -- Looking up shaders.
  | shaderNotLoaded (name : String)
  -- Analysing passes.
  | useNotMounted (pass resource : String)
  | attachmentNotImage (pass resource : String)
  | formatMismatch (pass resource : String) (kind : UseKind) (format : Format)
  | outputNeedsBinding (pass : String) (kind : UseKind) (resource : String)
  | outputReadOnly (pass resource : String)
  | shadingRateWritten (pass resource : String)
  | indirectAttachment (pass resource : String)
  | bindingNotFound (pass binding shader : String)
  | indirectNotReadOnlyBuffer (pass resource : String)
  | twoDepthAttachments (pass : Nat) (first second : String)
  -- Arithmetic on 32 bits.
  | multiplyOverflow
  | addOverflow
  -- Printing a plan.
  | indexOutOfRange (size index : Nat)
  deriving DecidableEq

namespace Fault

/-- An owner's name as it stands in a message, present or not. -/
def ownerText : Option String → String
  | some name => "Some(" ++ name ++ ")"
  | none => "None"

def message : Fault → String
  | alreadyExists name => s!"resource {name} already exists"
  | notRegistered name => s!"resource {name} is not registered"
  | wrongOrigin origin actual expected =>
    s!"assertion \x60left == right\x60 failed: view origin {origin} is a {actual.name}, " ++
      s!"expected {expected.name}\n  left: {actual.name}\n right: {expected.name}"
  | emptySwapchain name => s!"swapchain {name} has no images"
  | originNotMounted origin view => s!"origin {origin} of {view} is not mounted"
  | acquireOutOfRange name count index =>
    s!"swapchain {name} has {count} images, cannot acquire {index}"
  | notSwapchain name => s!"resource {name} is not a swapchain"
  | swapchainNotMounted name => s!"swapchain {name} has not been mounted"
  | noDefaultView name => s!"resource {name} has no default view"
  | notMounted kind name => s!"{kind.noun} {name} is not mounted"
  | wrongKind expected name => s!"resource {name} is not {expected.phrase}"
  | bufferInUse name =>
    s!"buffer {ownerText (name.map Text.quote)} destroyed while a view still references it"
  | imageInUse name =>
    s!"image {ownerText (name.map Text.quote)} destroyed while a view still references it"
  | shaderNotLoaded name => s!"shader {name} 没有被加载"
  | useNotMounted pass resource => s!"pass {pass}: resource {resource} is not mounted"
  | attachmentNotImage pass resource => s!"pass {pass}: attachment {resource} is not an image"
  | formatMismatch pass resource kind format =>
    s!"pass {pass}: {resource} is declared as {kind.name} but has format {format.name}"
  | outputNeedsBinding pass kind resource =>
    s!"pass {pass}: {kind.name} attachment {resource} needs a binding name"
  | outputReadOnly pass resource =>
    s!"pass {pass}: output attachment {resource} must not be read-only"
  | shadingRateWritten pass resource =>
    s!"pass {pass}: shading rate attachment {resource} is read-only"
  | indirectAttachment pass resource =>
    s!"pass {pass}: indirect buffer {resource} cannot be an attachment"
  | bindingNotFound pass binding shader =>
    s!"pass {pass}: binding {binding} not found in shader {shader}"
  | indirectNotReadOnlyBuffer pass resource =>
    s!"pass {pass}: indirect buffer {resource} must be a read-only buffer"
  | twoDepthAttachments pass first second =>
    s!"render pass {pass} has two depth attachments: {first} and {second}"
  | multiplyOverflow => "attempt to multiply with overflow"
  | addOverflow => "attempt to add with overflow"
  | indexOutOfRange size index =>
    s!"index out of bounds: the len is {size} but the index is {index}"

end Fault

end FrameGraph
