import FrameGraph.AccessState
import FrameGraph.Image
import FrameGraph.Buffer
import FrameGraph.Device.Handle

/-!
# Barriers

A transition moves one resource from the state in which it was last used to the state in which it
is used next. `ImageTransition.command` and `BufferTransition.command` give the barrier commands
that carry it out; they cover the whole resource and stay on one queue.
-/

set_option autoImplicit false

namespace FrameGraph

/-! ## Commands -/

/-- The two ends of a synchronization. -/
structure BarrierMask where
  srcStage : StageMask
  srcAccess : AccessMask
  dstStage : StageMask
  dstAccess : AccessMask
  deriving DecidableEq

/-- The queue family number that stands for "no change of queue". -/
def ignoredQueue : Nat := 0xFFFFFFFF

/-- The level or layer count that reaches to the last one. -/
def remainingLevels : Nat := 0xFFFFFFFF

structure ImageBarrier where
  mask : BarrierMask
  oldLayout : ImageLayout
  newLayout : ImageLayout
  srcQueue : Nat
  dstQueue : Nat
  image : Handle .image
  range : SubresourceRange
  deriving DecidableEq

/-- A barrier on all levels and layers of an image. -/
def ImageBarrier.whole (image : Handle .image) (aspect : Aspect) (oldLayout newLayout : ImageLayout)
    (mask : BarrierMask) : ImageBarrier :=
  ⟨mask, oldLayout, newLayout, ignoredQueue, ignoredQueue, image,
    ⟨aspect, ⟨0, remainingLevels⟩, ⟨0, remainingLevels⟩⟩⟩

structure BufferBarrier where
  mask : BarrierMask
  srcQueue : Nat
  dstQueue : Nat
  buffer : Handle .buffer
  offset : Nat
  size : Nat
  deriving DecidableEq

/-- A barrier on all bytes of a buffer. -/
def BufferBarrier.whole (buffer : Handle .buffer) (mask : BarrierMask) : BufferBarrier :=
  ⟨mask, ignoredQueue, ignoredQueue, buffer, 0, BufferViewDesc.wholeSize⟩

/-! ## Transitions -/

/-- The barrier ends of a move from `src` to `dst`: reads at the source need no flush. -/
def BarrierMask.between (src dst : AccessState) : BarrierMask :=
  ⟨src.stage, src.srcAccess, dst.stage, dst.access⟩

structure ImageTransition where
  /-- The name of the image; a view's access is recorded on its image. -/
  resource : String
  image : Handle .image
  src : AccessState
  dst : AccessState
  aspect : Aspect
  deriving DecidableEq

namespace ImageTransition

def changesLayout (t : ImageTransition) : Bool := t.src.layout != t.dst.layout

def command (t : ImageTransition) : ImageBarrier :=
  .whole t.image t.aspect t.src.layout t.dst.layout (.between t.src t.dst)

end ImageTransition

structure BufferTransition where
  resource : String
  buffer : Handle .buffer
  src : AccessState
  dst : AccessState
  deriving DecidableEq

def BufferTransition.command (t : BufferTransition) : BufferBarrier :=
  .whole t.buffer (.between t.src t.dst)

/-- The transitions that happen together at one point of a frame. -/
structure TransitionBatch where
  images : List ImageTransition
  buffers : List BufferTransition
  deriving DecidableEq

namespace TransitionBatch

def empty : TransitionBatch := ⟨[], []⟩

instance : Inhabited TransitionBatch := ⟨empty⟩

def size (b : TransitionBatch) : Nat := b.images.length + b.buffers.length

def isEmpty (b : TransitionBatch) : Bool := b.images.isEmpty && b.buffers.isEmpty

def commands (b : TransitionBatch) : List ImageBarrier × List BufferBarrier :=
  (b.images.map (·.command), b.buffers.map (·.command))

end TransitionBatch

end FrameGraph
