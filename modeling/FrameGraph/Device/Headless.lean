import FrameGraph.Device.Basic

/-!
# The headless device

A device without hardware. It hands out handles 1, 2, 3, … and keeps book: how many objects of
each kind it made, which buffers, images and views are alive, and what was destroyed in which order.
It refuses to destroy a buffer or an image while one of its views is alive.
-/

set_option autoImplicit false

namespace FrameGraph

/-- What was destroyed. -/
inductive Destroyed
  | buffer (h : Handle .buffer)
  | bufferView (h : Handle .bufferView)
  | image (h : Handle .image)
  | imageView (h : Handle .imageView)
  deriving DecidableEq

/-- How many objects of each kind were made. -/
structure Created where
  buffers : Nat := 0
  bufferViews : Nat := 0
  images : Nat := 0
  imageViews : Nat := 0
  renderPasses : Nat := 0
  framebuffers : Nat := 0
  pipelines : Nat := 0
  setLayouts : Nat := 0
  pipelineLayouts : Nat := 0
  shaderModules : Nat := 0
  deriving DecidableEq

/-- The counts on one line. -/
def Created.text (c : Created) : String :=
  let counts := [("buffers", c.buffers), ("buffer_views", c.bufferViews), ("images", c.images),
    ("image_views", c.imageViews), ("render_passes", c.renderPasses),
    ("framebuffers", c.framebuffers), ("graphics_pipelines", c.pipelines),
    ("descriptor_set_layouts", c.setLayouts), ("pipeline_layouts", c.pipelineLayouts),
    ("shader_modules", c.shaderModules)]
  "GfxCreateCounters \x7b " ++
    String.intercalate ", " (counts.map fun (name, n) => s!"{name}: {n}") ++ " \x7d"

structure Headless where
  /-- The handle given out last. -/
  lastHandle : Nat := 0
  created : Created := {}
  /-- The buffers alive and their names. -/
  buffers : List (Handle .buffer × String) := []
  /-- The buffer views alive and the buffers that they show. -/
  bufferViews : List (Handle .bufferView × Handle .buffer) := []
  images : List (Handle .image × String) := []
  imageViews : List (Handle .imageView × Handle .image) := []
  /-- What was destroyed, in order. -/
  destroyed : List Destroyed := []
  deriving DecidableEq

namespace Headless

/-- The next handle, and the device that has given it out. -/
def mint (d : Headless) : Nat × Headless :=
  (d.lastHandle + 1, { d with lastHandle := d.lastHandle + 1 })

/-- An image that belongs to someone else: it has a handle and is not counted as alive. -/
def externalImage (d : Headless) : Handle .image × Headless := (⟨d.mint.1⟩, d.mint.2)

/-- The next `n` external images. -/
def externalImages : Nat → Headless → List (Handle .image) × Headless
  | 0, d => ([], d)
  | n + 1, d =>
    let (image, d) := d.externalImage
    let (rest, d) := externalImages n d
    (image :: rest, d)

def createBuffer (desc : BufferDesc) (name : String) (d : Headless) :
    Except DeviceError (Handle .buffer) × Headless :=
  if desc.size = 0 then (.error .initializationFailed, d)
  else
    let (id, d) := d.mint
    (.ok ⟨id⟩, { d with
      buffers := d.buffers ++ [(⟨id⟩, name)]
      created := { d.created with buffers := d.created.buffers + 1 } })

def createBufferView (buffer : Handle .buffer) (d : Headless) :
    Except DeviceError (Handle .bufferView) × Headless :=
  let (id, d) := d.mint
  (.ok ⟨id⟩, { d with
    bufferViews := d.bufferViews ++ [(⟨id⟩, buffer)]
    created := { d.created with bufferViews := d.created.bufferViews + 1 } })

def createImage (desc : ImageDesc) (name : String) (d : Headless) :
    Except DeviceError (Handle .image) × Headless :=
  if desc.width = 0 ∨ desc.height = 0 then (.error .initializationFailed, d)
  else
    let (id, d) := d.mint
    (.ok ⟨id⟩, { d with
      images := d.images ++ [(⟨id⟩, name)]
      created := { d.created with images := d.created.images + 1 } })

def createImageView (image : Handle .image) (d : Headless) :
    Except DeviceError (Handle .imageView) × Headless :=
  let (id, d) := d.mint
  (.ok ⟨id⟩, { d with
    imageViews := d.imageViews ++ [(⟨id⟩, image)]
    created := { d.created with imageViews := d.created.imageViews + 1 } })

def destroyBuffer (h : Handle .buffer) (d : Headless) : Except Fault Headless :=
  if d.bufferViews.any (·.2 == h) then .error (.bufferInUse (d.buffers.lookup h))
  else .ok { d with
    buffers := d.buffers.filter (·.1 != h)
    destroyed := d.destroyed ++ [.buffer h] }

def destroyBufferView (h : Handle .bufferView) (d : Headless) : Headless :=
  { d with
    bufferViews := d.bufferViews.filter (·.1 != h)
    destroyed := d.destroyed ++ [.bufferView h] }

def destroyImage (h : Handle .image) (d : Headless) : Except Fault Headless :=
  if d.imageViews.any (·.2 == h) then .error (.imageInUse (d.images.lookup h))
  else .ok { d with
    images := d.images.filter (·.1 != h)
    destroyed := d.destroyed ++ [.image h] }

def destroyImageView (h : Handle .imageView) (d : Headless) : Headless :=
  { d with
    imageViews := d.imageViews.filter (·.1 != h)
    destroyed := d.destroyed ++ [.imageView h] }

def createRenderPass (d : Headless) : Except DeviceError (Handle .renderPass) × Headless :=
  let (id, d) := d.mint
  (.ok ⟨id⟩, { d with created := { d.created with renderPasses := d.created.renderPasses + 1 } })

/-- A framebuffer needs a render pass. -/
def createFramebuffer (desc : FramebufferDesc) (d : Headless) :
    Except DeviceError (Handle .framebuffer) × Headless :=
  if desc.renderPass.isNull then (.error .initializationFailed, d)
  else
    let (id, d) := d.mint
    (.ok ⟨id⟩, { d with created := { d.created with framebuffers := d.created.framebuffers + 1 } })

def createPipeline (d : Headless) : Except DeviceError (Handle .pipeline) × Headless :=
  let (id, d) := d.mint
  (.ok ⟨id⟩, { d with created := { d.created with pipelines := d.created.pipelines + 1 } })

def createSetLayout (d : Headless) : Except DeviceError (Handle .setLayout) × Headless :=
  let (id, d) := d.mint
  (.ok ⟨id⟩, { d with created := { d.created with setLayouts := d.created.setLayouts + 1 } })

def createPipelineLayout (d : Headless) :
    Except DeviceError (Handle .pipelineLayout) × Headless :=
  let (id, d) := d.mint
  (.ok ⟨id⟩,
    { d with created := { d.created with pipelineLayouts := d.created.pipelineLayouts + 1 } })

/-- The first word of every compiled shader. -/
def shaderMagic : Nat := 0x07230203

def createShaderModule (words : List Nat) (name : String) (d : Headless) :
    Traced (Except DeviceError (Handle .shaderModule) × Headless) :=
  if words.head? = some shaderMagic then
    let (id, d) := d.mint
    pure (.ok ⟨id⟩,
      { d with created := { d.created with shaderModules := d.created.shaderModules + 1 } })
  else do
    Traced.report (.warn s!"headless: shader module '{name}' is not valid SPIR-V")
    pure (.error .invalidShader, d)

instance : Device Headless where
  createBuffer := createBuffer
  createBufferView h _ _ := createBufferView h
  createImage := createImage
  createImageView h _ _ := createImageView h
  destroyBuffer := destroyBuffer
  destroyBufferView h d := .ok (destroyBufferView h d)
  destroyImage := destroyImage
  destroyImageView h d := .ok (destroyImageView h d)
  createRenderPass _ := createRenderPass
  createFramebuffer := createFramebuffer
  createPipeline _ := createPipeline
  createSetLayout _ := createSetLayout
  createPipelineLayout _ := createPipelineLayout
  createShaderModule := createShaderModule

end Headless

end FrameGraph
