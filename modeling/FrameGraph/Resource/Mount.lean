import FrameGraph.Device.Basic
import FrameGraph.Resource.Forest

/-!
# Mounting and releasing

Mounting a name makes the objects that are missing in its tree, each node before its children, so
that a view finds what it shows. Releasing goes the opposite way, so that no view outlives what it
shows.
-/

set_option autoImplicit false

namespace FrameGraph

variable {δ : Type} [Device δ]

namespace Payload

/-- Adds a new handle to a payload. -/
def attach {κ : ObjectKind} (put : Handle κ → Payload) (call : DeviceCall δ (Handle κ))
    (device : δ) : Except DeviceError Payload × δ :=
  match call device with
  | (.ok h, device) => (.ok (put h), device)
  | (.error e, device) => (.error e, device)

/-- Makes the object of a node if it is missing. `origin` is the payload of the node's parent. -/
def realize (name : String) (origin : Option Payload) (p : Payload) (device : δ) :
    Except Fault (Except DeviceError Payload × δ) :=
  match p, origin with
  | .buffer desc none, _ =>
    .ok (attach (fun h => .buffer desc (some h)) (Device.createBuffer desc name) device)
  | .bufferView desc of none, some (.buffer _ (some shown)) =>
    .ok (attach (fun h => .bufferView desc of (some h)) (Device.createBufferView shown desc name)
      device)
  | .bufferView _ of none, _ => .error (.originNotMounted of name)
  | .image desc none external, _ =>
    .ok (attach (fun h => .image desc (some h) external) (Device.createImage desc name) device)
  | .imageView desc of none, some (.image _ (some shown) _) =>
    .ok (attach (fun h => .imageView desc of (some h)) (Device.createImageView shown desc name)
      device)
  | .imageView _ of none, _ => .error (.originNotMounted of name)
  | p, _ => .ok (.ok p, device)

/-- Destroys the object of a node if the forest owns one. -/
def release (p : Payload) (device : δ) : Except Fault (Payload × δ) :=
  match p with
  | .buffer desc (some h) => do return (.buffer desc none, ← Device.destroyBuffer h device)
  | .bufferView desc of (some h) => do
    return (.bufferView desc of none, ← Device.destroyBufferView h device)
  | .image desc (some h) false => do return (.image desc none false, ← Device.destroyImage h device)
  | .imageView desc of (some h) => do
    return (.imageView desc of none, ← Device.destroyImageView h device)
  | p => .ok (p, device)

/-- Whether releasing the node forgets the state in which it was last used: that is the state of an
object that the forest destroys. -/
def forgetsState : Payload → Bool
  | .buffer _ _ => true
  | .image _ _ external => !external
  | _ => false

end Payload

namespace Forest

/-! ## Mounting -/

/-- Notes the mount on one node and makes its object if it is missing. -/
def mountNode (f : Forest) (device : δ) (i : Nat) :
    Except Fault (Except DeviceError Unit × Forest × δ) :=
  match f.nodes[i]? with
  | none => .ok (.ok (), f, device)
  | some n => do
    let origin := (n.parent.bind (f.nodes[·]?)).map (·.payload)
    match ← n.payload.realize n.name origin device with
    | (.ok payload, device) =>
      return (.ok (), f.modify i fun n => { n with life := f.life, payload }, device)
    | (.error e, device) => return (.error e, f.modify i fun n => { n with life := f.life }, device)

/-- Mounts nodes in order, up to the first that the device refuses. -/
def mountNodes (f : Forest) (device : δ) :
    List Nat → Except Fault (Except DeviceError Unit × Forest × δ)
  | [] => .ok (.ok (), f, device)
  | i :: rest => do
    match ← f.mountNode device i with
    | (.ok (), f, device) => mountNodes f device rest
    | (.error e, f, device) => return (.error e, f, device)

/-- Adds one image of a swapchain, the `i`-th, with its default view. -/
def addSwapchainImage (swapchain : Place) (desc : ImageDesc) (f : Forest) (image : Handle .image)
    (i : Nat) : Except Fault Forest := do
  let name := s!"{swapchain.node.name}/{i}"
  let position := f.size
  let f ← f.insert {
    name
    residency := .swapchain
    payload := .image desc (some image) true
    parent := some swapchain.index }
  f.insert {
    name := defaultViewName name
    residency := .swapchain
    payload := .imageView desc.defaultView name none
    parent := some position }

/-- Gives a swapchain its images as children, unless it has them. -/
def expandSwapchain (f : Forest) (i : Nat) : Traced Forest :=
  match f.place? i with
  | some p =>
    match p.node.payload, f.children i with
    | .swapchain source _, [] => do
      Traced.report (.info
        s!"expand swapchain {p.node.name} into {source.images.length} images")
      source.images.zipIdx.foldlM
        (fun f (image, k) => Traced.ofExcept (addSwapchainImage p source.imageDesc f image k)) f
    | _, _ => pure f
  | none => pure f

/-- Makes the objects that are missing in the tree that holds `name`. An object that the device
cannot make ends the mount; what was made before stays. -/
def mount (f : Forest) (name : String) (device : δ) :
    Traced (Except DeviceError Unit × Forest × δ) := do
  let p ← Traced.ofExcept (f.find name)
  let root := f.root p.index
  let f ← { f with life := f.life + 1 }.expandSwapchain root
  Traced.ofExcept (f.mountNodes device (f.subtree root))

/-! ## Releasing -/

/-- Destroys the object of one node. -/
def releaseNode (f : Forest) (device : δ) (i : Nat) : Except Fault (Forest × δ) :=
  match f.nodes[i]? with
  | none => .ok (f, device)
  | some n => do
    let (payload, device) ← n.payload.release device
    let current := if n.payload.forgetsState then .undefined else n.current
    return (f.modify i fun n => { n with payload, current }, device)

/-- Destroys the objects of a node and of all nodes below it, children first. -/
def releaseSubtree (f : Forest) (device : δ) (i : Nat) : Except Fault (Forest × δ) :=
  (f.subtree i).reverse.foldlM (fun (f, device) j => f.releaseNode device j) (f, device)

/-- Releases what hangs below `name` if it was last mounted before `life`, and says whether it
did. -/
def unmount (f : Forest) (name : String) (life : Nat) (device : δ) :
    Except Fault (Bool × Forest × δ) := do
  let p ← f.find name
  if life ≤ p.node.life then return (false, f, device)
  else return (true, ← f.releaseSubtree device p.index)

/-- Whether the tree below a node holds an object that the forest has to destroy. -/
def ownsObjects (f : Forest) (i : Nat) : Bool :=
  (f.subtree i).any fun j => (f.nodes[j]?).any (·.payload.isOwned)

/-- The roots last mounted before `life` whose trees hold objects. -/
def expired (f : Forest) (life : Nat) : List Nat :=
  (List.range f.size).filter fun i =>
    (f.nodes[i]?).any (fun n => n.isRoot && n.life < life) && f.ownsObjects i

/-- Releases the trees last mounted before `life` and counts them. -/
def unmountExpired (f : Forest) (life : Nat) (device : δ) : Except Fault (Nat × Forest × δ) := do
  let roots := f.expired life
  let (f, device) ← roots.foldlM (fun (f, device) i => f.releaseSubtree device i) (f, device)
  return (roots.length, f, device)

end Forest

end FrameGraph
