import FrameGraph.Analysis.Usage

/-!
# Timelines

The timeline of a resource lists the passes of a frame that touch it and the state in which each
does. All uses of a resource within one pass make one entry: their stages and accesses are joined.
-/

set_option autoImplicit false

namespace FrameGraph

/-- A use of the node at a position. -/
structure NodeUse where
  index : Nat
  usage : Usage
  deriving DecidableEq

structure TimelineEntry where
  pass : Nat
  state : AccessState
  deriving DecidableEq

/-- The accesses to one node during a frame, in pass order. -/
structure Timeline where
  index : Nat
  node : Node
  entries : List TimelineEntry
  deriving DecidableEq

namespace Timeline

/-- The uses of one node among those of a pass. -/
def usesOf (index : Nat) (uses : List NodeUse) : List Usage :=
  (uses.filter (·.index == index)).map (·.usage)

/-- What a pass does to a node by all its uses together. -/
def usageIn (index : Nat) (uses : List NodeUse) : Option Usage :=
  match usesOf index uses with
  | [] => none
  | u :: rest => some (rest.foldl Usage.merge u)

/-- The entries of a node, from the uses of the passes from number `first` on. -/
def entriesFrom (index : Nat) (node : Node) (first : Nat) : List (List NodeUse) → List TimelineEntry
  | [] => []
  | uses :: rest =>
    match usageIn index uses with
    | some u => ⟨first, u.stateOf node⟩ :: entriesFrom index node (first + 1) rest
    | none => entriesFrom index node (first + 1) rest

/-- The nodes that a frame touches, in order of first use. -/
def touched (frame : List (List NodeUse)) : List Nat := (frame.flatten.map (·.index)).eraseDups

/-- The timelines of a frame, in order of first use. -/
def ofFrame (nodes : List Node) (frame : List (List NodeUse)) : List Timeline :=
  (touched frame).filterMap fun i =>
    (nodes[i]?).map fun n => ⟨i, n, entriesFrom i n 0 frame⟩

/-- The state of the node in a pass. -/
def stateAt? (t : Timeline) (pass : Nat) : Option AccessState :=
  (t.entries.find? (·.pass == pass)).map (·.state)

end Timeline

end FrameGraph
