import FrameGraph.Mask.Usage
import FrameGraph.Code.Format

/-!
# Buffers and buffer views
-/

set_option autoImplicit false

namespace FrameGraph

/-- What a buffer is created from. -/
structure BufferDesc where
  /-- Size in bytes. -/
  size : Nat
  usage : BufferUsage
  deriving DecidableEq

namespace BufferDesc

/-- An empty storage buffer. -/
def empty : BufferDesc := ⟨0, .storage⟩

/-- A buffer that shaders read as uniform data and that transfers fill. -/
def uniform (size : Nat) : BufferDesc := ⟨size, BufferUsage.uniform ∪ BufferUsage.transferDst⟩

/-- Whether shaders may read the buffer as uniform data. -/
def isUniform (d : BufferDesc) : Bool :=
  d.usage.meets (BufferUsage.uniform ∪ BufferUsage.uniformTexel)

end BufferDesc

/-- What a texel view of a buffer is created from. -/
structure BufferViewDesc where
  format : Format
  offset : Nat
  range : Nat
  deriving DecidableEq

namespace BufferViewDesc

/-- The range that reaches to the end of the buffer. -/
def wholeSize : Nat := 0xFFFFFFFFFFFFFFFF

/-- A view of all of the buffer. -/
def whole (format : Format) : BufferViewDesc := ⟨format, 0, wholeSize⟩

end BufferViewDesc

end FrameGraph
