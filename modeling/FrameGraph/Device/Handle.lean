/-!
# Object handles

A device answers each creation with a number that stands for the object. `Handle κ` keeps the kind
of the object in its type, so a view cannot be passed where an image is expected.
-/

set_option autoImplicit false

namespace FrameGraph

/-- The kinds of objects that a device creates. -/
inductive ObjectKind
  | buffer | bufferView | image | imageView | renderPass | framebuffer | pipeline | setLayout
  | pipelineLayout | shaderModule
  deriving DecidableEq

/-- A device's number for an object of kind `κ`. -/
structure Handle (κ : ObjectKind) where
  id : Nat
  deriving DecidableEq

namespace Handle

variable {κ : ObjectKind}

/-- The handle that stands for no object. -/
def null : Handle κ := ⟨0⟩

def isNull (h : Handle κ) : Bool := h.id == 0

/-- The handle in hexadecimal, as the plan dump prints it. -/
def text (h : Handle κ) : String := "0x" ++ String.ofList (Nat.toDigits 16 h.id)

end Handle

end FrameGraph
