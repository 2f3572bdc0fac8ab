import FrameGraph.Fault
import FrameGraph.Hierarchy
import FrameGraph.Resource.Basic

/-!
# The resource forest

All resources by name, in order of registration. Views are children of what they show; a swapchain
gets its images as children when it is first mounted:

    swapchain
    ├── swapchain/0 ── swapchain/0/swapchain/0
    └── swapchain/1 ── swapchain/1/swapchain/1

A child is always registered after its parent, so positions grow from root to leaf and
`Forest.subtree` reaches every node below a node.
-/

set_option autoImplicit false

namespace FrameGraph

structure Forest where
  nodes : List Node := []
  /-- How often a mount was asked for. -/
  life : Nat := 0

/-- A node and its position. -/
structure Place where
  index : Nat
  node : Node

namespace Forest

/-! ## Structure -/

def size (f : Forest) : Nat := f.nodes.length

def place? (f : Forest) (i : Nat) : Option Place := (f.nodes[i]?).map fun n => ⟨i, n⟩

def find? (f : Forest) (name : String) : Option Place :=
  (f.nodes.findIdx? (·.name == name)).bind f.place?

def contains (f : Forest) (name : String) : Bool := (f.find? name).isSome

/-- The node of that name, which must be registered. -/
def find (f : Forest) (name : String) : Except Fault Place :=
  match f.find? name with
  | some p => .ok p
  | none => .error (.notRegistered name)

/-- Changes the node at a position. -/
def modify (f : Forest) (i : Nat) (change : Node → Node) : Forest :=
  { f with nodes := f.nodes.modify i change }

/-- The tree structure of the forest. -/
def hierarchy (f : Forest) : Hierarchy := f.nodes.map (·.parent)

/-- The positions of the children of a node, in order of registration. -/
def children (f : Forest) (i : Nat) : List Nat := f.hierarchy.children i

/-- A node and all nodes below it, each before its children. -/
def subtree (f : Forest) (i : Nat) : List Nat := f.hierarchy.subtree i

/-- The root of the tree that holds `i`. -/
def root (f : Forest) (i : Nat) : Nat := f.hierarchy.root i

/-! ## Registration -/

/-- Adds a node under a new name. -/
def insert (f : Forest) (n : Node) : Except Fault Forest :=
  if f.contains n.name then .error (.alreadyExists n.name)
  else .ok { f with nodes := f.nodes ++ [n] }

/-- The node that a view shows, which must be of the kind that the view is for. -/
def origin (f : Forest) (name : String) (expected : ResourceKind) : Except Fault Place := do
  let p ← f.find name
  if p.node.kind = expected then .ok p
  else .error (.wrongOrigin name p.node.kind expected)

def addBuffer (f : Forest) (name : String) (desc : BufferDesc) (residency : Residency) :
    Except Fault Forest :=
  f.insert { name, residency, payload := .buffer desc none }

def addBufferView (f : Forest) (name origin : String) (desc : BufferViewDesc) :
    Except Fault Forest := do
  let p ← f.origin origin .buffer
  f.insert {
    name
    residency := p.node.residency
    payload := .bufferView desc origin none
    parent := some p.index }

def addImageView (f : Forest) (name origin : String) (desc : ImageViewDesc) :
    Except Fault Forest := do
  let p ← f.origin origin .image
  f.insert {
    name
    residency := p.node.residency
    payload := .imageView desc origin none
    parent := some p.index }

/-- Adds an image and its default view. -/
def addImage (f : Forest) (name : String) (desc : ImageDesc) (residency : Residency) :
    Except Fault Forest := do
  let f ← f.insert { name, residency, payload := .image desc none false }
  f.addImageView (defaultViewName name) name desc.defaultView

/-- Adds a swapchain. Its images become nodes when it is first mounted. -/
def addSwapchain (f : Forest) (name : String) (source : SwapchainImport) : Except Fault Forest :=
  if source.images = [] then .error (.emptySwapchain name)
  else f.insert { name, residency := .swapchain, payload := .swapchain source 0 }

/-! ## Looking up -/

/-- The node that a name stands for; a swapchain stands for the image acquired from it. -/
def resolve (f : Forest) (name : String) : Except Fault Place := do
  let p ← f.find name
  match p.node.payload with
  | .swapchain _ acquired =>
    match ((f.children p.index)[acquired]?).bind f.place? with
    | some image => .ok image
    | none => .error (.swapchainNotMounted name)
  | _ => .ok p

/-- The node on which accesses under that name are recorded: that of the buffer or image itself
where the name is that of a view. -/
def tracked (f : Forest) (name : String) : Except Fault Place := do
  let p ← f.resolve name
  match p.node.payload.origin?, p.node.parent.bind f.place? with
  | some _, some parent => .ok parent
  | _, _ => .ok p

/-- The view that a name stands for: a view itself, or the default view of an image. -/
def view (f : Forest) (name : String) : Except Fault Place := do
  let p ← f.resolve name
  match p.node.kind with
  | .imageView | .bufferView => .ok p
  | .image =>
    let child? := ((f.children p.index).filterMap f.place?).find? fun child =>
      child.node.name == defaultViewName p.node.name
    match child? with
    | some child => .ok child
    | none => .error (.noDefaultView name)
  | _ => .error (.noDefaultView name)

/-- The handle, or the fault of a resource without one. -/
def mounted {κ : ObjectKind} (kind : ResourceKind) (name : String) :
    Option (Handle κ) → Except Fault (Handle κ)
  | some h => .ok h
  | none => .error (.notMounted kind name)

def bufferHandle (f : Forest) (name : String) : Except Fault (Handle .buffer) := do
  match (← f.tracked name).node.payload with
  | .buffer _ h => mounted .buffer name h
  | _ => .error (.wrongKind .buffer name)

def bufferViewHandle (f : Forest) (name : String) : Except Fault (Handle .bufferView) := do
  match (← f.resolve name).node.payload with
  | .bufferView _ _ h => mounted .bufferView name h
  | _ => .error (.wrongKind .bufferView name)

def imageHandle (f : Forest) (name : String) : Except Fault (Handle .image) := do
  match (← f.tracked name).node.payload with
  | .image _ h _ => mounted .image name h
  | _ => .error (.wrongKind .image name)

def imageViewHandle (f : Forest) (name : String) : Except Fault (Handle .imageView) := do
  match (← f.view name).node.payload with
  | .imageView _ _ h => mounted .imageView name h
  | _ => .error (.wrongKind .imageView name)

/-! ## Swapchains -/

/-- Makes the image at `index` the one that the swapchain stands for. -/
def acquire (f : Forest) (name : String) (index : Nat) : Except Fault Forest := do
  let p ← f.find name
  match p.node.payload with
  | .swapchain source _ =>
    if index < source.images.length then
      .ok (f.modify p.index fun n => { n with payload := .swapchain source index })
    else .error (.acquireOutOfRange name source.images.length index)
  | _ => .error (.notSwapchain name)

end Forest

end FrameGraph
