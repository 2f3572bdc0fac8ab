import FrameGraph.Analysis.Timeline
import FrameGraph.Barrier

/-!
# From timelines to barriers

Neighbouring entries of a timeline that need no synchronization between them are joined into one
state; every other step from entry to entry is a move that needs a barrier. Reads of a buffer join,
so that a later write waits for all of them. Accesses to an image join when they are the same in
the same layout.
-/

set_option autoImplicit false

namespace FrameGraph

/-- A change of state that a barrier carries out before a pass. -/
structure Move where
  pass : Nat
  src : AccessState
  dst : AccessState
  deriving DecidableEq

namespace Move

/-- Whether an access to a buffer goes on from the state before without a barrier. -/
def buffersJoin (before after : AccessState) : Bool := before.isReadOnly && after.isReadOnly

/-- Whether an access to an image goes on from the state before without a barrier. -/
def imagesJoin (before after : AccessState) : Bool :=
  before.access == after.access && before.layout == after.layout

/-- The moves along the entries that follow the state `before`, and the state at the end. -/
def along (joins : AccessState → AccessState → Bool) (before : AccessState) :
    List TimelineEntry → List Move × AccessState
  | [] => ([], before)
  | e :: rest =>
    if joins before e.state then along joins (before.mergeRead e.state) rest
    else
      let (moves, last) := along joins e.state rest
      (⟨e.pass, before, e.state⟩ :: moves, last)

end Move

namespace Timeline

/-- The state in which a frame finds a node. -/
def start (t : Timeline) : AccessState :=
  if t.node.residency = .dontCare then .undefined else t.node.current

/-- The moves of a timeline and its last state. -/
def reduction (t : Timeline) : List Move × AccessState :=
  match t.node.payload with
  | .buffer _ _ => Move.along Move.buffersJoin t.start t.entries
  | _ => Move.along Move.imagesJoin t.start t.entries

def moves (t : Timeline) : List Move := t.reduction.1

/-- Whether the node is an image to be shown at the end of the frame. -/
def isShown (t : Timeline) : Bool :=
  t.node.imageDesc?.isSome && t.node.residency == .swapchain

/-- The state that the frame leaves behind. -/
def finish (t : Timeline) : AccessState := if t.isShown then .present else t.reduction.2

/-- A move of the node as a transition of its image. -/
def imageTransition? (t : Timeline) (src dst : AccessState) : Option ImageTransition :=
  match t.node.payload with
  | .image desc (some image) _ => some ⟨t.node.name, image, src, dst, desc.aspect⟩
  | _ => none

/-- A move of the node as a transition of its buffer. -/
def bufferTransition? (t : Timeline) (src dst : AccessState) : Option BufferTransition :=
  match t.node.payload with
  | .buffer _ (some buffer) => some ⟨t.node.name, buffer, src, dst⟩
  | _ => none

/-- The moves of the node before a pass. -/
def movesAt (t : Timeline) (pass : Nat) : List Move := t.moves.filter (·.pass == pass)

end Timeline

namespace TransitionBatch

/-- The transitions before a pass. -/
def before (pass : Nat) (ts : List Timeline) : TransitionBatch where
  images := ts.flatMap fun t => (t.movesAt pass).filterMap fun m => t.imageTransition? m.src m.dst
  buffers := ts.flatMap fun t => (t.movesAt pass).filterMap fun m => t.bufferTransition? m.src m.dst

/-- The transitions after the last pass: every image to be shown becomes ready for that. -/
def atEnd (ts : List Timeline) : TransitionBatch where
  images := (ts.filter (·.isShown)).filterMap fun t => t.imageTransition? t.reduction.2 .present
  buffers := []

end TransitionBatch

end FrameGraph
