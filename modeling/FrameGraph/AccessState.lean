import FrameGraph.Mask.Stage
import FrameGraph.Mask.Access
import FrameGraph.Code.Layout

/-!
# Access states

`AccessState` says how a resource is touched: at which stages, with which accesses and, for an
image, in which layout. It is both the state in which a pass uses a resource and the state that a
resource carries from one frame to the next. The layout of a buffer is always undefined.
-/

set_option autoImplicit false

namespace FrameGraph

structure AccessState where
  stage : StageMask
  access : AccessMask
  layout : ImageLayout
  deriving DecidableEq

namespace AccessState

/-- The state of a buffer. -/
def ofBuffer (stage : StageMask) (access : AccessMask) : AccessState :=
  ⟨stage, access, .undefined⟩

/-- Nothing has touched the resource and its contents do not matter. -/
def undefined : AccessState := ⟨.topOfPipe, ∅, .undefined⟩

/-- An image handed to the presentation engine. -/
def present : AccessState := ⟨.bottomOfPipe, ∅, .presentSrc⟩

instance : Inhabited AccessState := ⟨undefined⟩

def isWrite (s : AccessState) : Bool := s.access.meets AccessMask.writes

def isReadOnly (s : AccessState) : Bool := !s.isWrite

/-- The accesses that a barrier has to make available: only writes have anything to show. -/
def srcAccess (s : AccessState) : AccessMask := s.access ∩ AccessMask.writes

/-- The state after both of two reads, so that a later write waits for every reader. The layout
stays that of the first. -/
def mergeRead (s other : AccessState) : AccessState :=
  { s with stage := s.stage ∪ other.stage, access := s.access ∪ other.access }

@[simp] theorem mergeRead_stage (s t : AccessState) : (s.mergeRead t).stage = s.stage ∪ t.stage :=
  rfl

@[simp] theorem mergeRead_access (s t : AccessState) :
    (s.mergeRead t).access = s.access ∪ t.access :=
  rfl

@[simp] theorem mergeRead_layout (s t : AccessState) : (s.mergeRead t).layout = s.layout := rfl

theorem isWrite_iff {s : AccessState} :
    s.isWrite = true ↔ ∃ i, i ∈ s.access ∧ i ∈ AccessMask.writes :=
  Mask.meets_iff (a := s.access)

/-- A merged state writes exactly when one of its parts does. -/
theorem isWrite_mergeRead (s t : AccessState) :
    (s.mergeRead t).isWrite = (s.isWrite || t.isWrite) := by
  rw [Bool.eq_iff_iff, Bool.or_eq_true]
  simp only [isWrite_iff, mergeRead_access, Mask.mem_union]
  grind

end AccessState

end FrameGraph
