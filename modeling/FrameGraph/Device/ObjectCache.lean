import FrameGraph.Device.Basic

/-!
# The object cache

A cache of the objects that a plan needs, under their full descriptions: a frame that is declared
again finds the objects of the frame before. Entries are never removed. A creation that fails
leaves no trace in the cache.
-/

set_option autoImplicit false

namespace FrameGraph

/-- The description of an object that the cache keeps. -/
inductive ObjectDesc
  | renderPass (d : RenderPassDesc)
  | framebuffer (d : FramebufferDesc)
  | pipeline (d : PipelineDesc)
  | setLayout (d : SetLayoutDesc)
  | pipelineLayout (d : PipelineLayoutDesc)
  deriving DecidableEq

namespace ObjectDesc

def kind : ObjectDesc → ObjectKind
  | renderPass _ => .renderPass
  | framebuffer _ => .framebuffer
  | pipeline _ => .pipeline
  | setLayout _ => .setLayout
  | pipelineLayout _ => .pipelineLayout

/-- Has the device make the object. -/
def create {δ : Type} [Device δ] : (d : ObjectDesc) → DeviceCall δ (Handle d.kind)
  | renderPass d => Device.createRenderPass d
  | framebuffer d => Device.createFramebuffer d
  | pipeline d => Device.createPipeline d
  | setLayout d => Device.createSetLayout d
  | pipelineLayout d => Device.createPipelineLayout d

end ObjectDesc

structure ObjectCache where
  /-- The objects made and the numbers of their handles, in order of creation. -/
  entries : List (ObjectDesc × Nat) := []
  /-- How often an object was found. -/
  hits : Nat := 0
  /-- How often one had to be made. -/
  misses : Nat := 0

namespace ObjectCache

def find? (c : ObjectCache) (d : ObjectDesc) : Option (Handle d.kind) :=
  (c.entries.lookup d).map fun id => ⟨id⟩

/-- The counts on one line. -/
def statsText (c : ObjectCache) : String :=
  "RgCacheStats \x7b " ++ s!"hits: {c.hits}, misses: {c.misses}" ++ " \x7d"

/-- How many objects of a kind the cache holds. -/
def count (c : ObjectCache) (k : ObjectKind) : Nat :=
  c.entries.countP fun e => e.1.kind == k

def add (c : ObjectCache) (d : ObjectDesc) (h : Handle d.kind) : ObjectCache :=
  { c with entries := c.entries ++ [(d, h.id)], misses := c.misses + 1 }

/-- The object of that description: the one made before, else a new one. -/
def getOrCreate {δ : Type} [Device δ] (d : ObjectDesc) (c : ObjectCache) (device : δ) :
    Except DeviceError (Handle d.kind) × ObjectCache × δ :=
  match c.find? d with
  | some h => (.ok h, { c with hits := c.hits + 1 }, device)
  | none =>
    match d.create device with
    | (.error e, device) => (.error e, c, device)
    | (.ok h, device) => (.ok h, c.add d h, device)

end ObjectCache

end FrameGraph
