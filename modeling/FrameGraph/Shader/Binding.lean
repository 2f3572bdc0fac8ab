import FrameGraph.Code.Enums
import FrameGraph.Fault
import FrameGraph.Shader.ElementType
import FrameGraph.Shader.LayoutDocument

/-!
# Shader bindings

`ShaderBinding.ofDeclared` checks a declared binding: the words for its usage, dimension, format
and member types must be known. `ShaderBinding.bufferSize` adds up the members of a buffer in 32-bit
arithmetic and faults where that overflows.
-/

set_option autoImplicit false

namespace FrameGraph

structure BufferElement where
  type : ElementType
  count : Nat
  deriving DecidableEq

/-- What is particular to each class of resource. -/
inductive BindingDetail
  | buffer (elements : List BufferElement)
  | image (viewType : ViewType) (format : Option Format)
  | sampler (immutable : Bool)
  | bindless
  deriving DecidableEq

structure ShaderBinding where
  name : String
  slot : Nat
  /-- The stages that see the binding. -/
  visibility : ShaderStages
  rate : UpdateRate
  count : Nat
  descriptorType : DescriptorType
  detail : BindingDetail
  deriving DecidableEq

/-- Why a declared binding is no binding. -/
inductive BindingError
  | unknownElementType (binding type : String)
  | unknownBufferUsage (usage : String)
  | unknownImageUsage (usage : String)
  | unknownDimension (dimension : String)
  | unknownFormat (format : String)
  deriving DecidableEq

/-- What is wrong with a name that is no member type. -/
def ElementType.unknownMessage (type : String) : String := s!"不支持的 buffer 成员类型: {type}"

/-- The messages of an error, the outermost first. -/
def BindingError.chain : BindingError → List String
  | unknownElementType binding type =>
    [s!"binding {binding} 的 elements 无效", ElementType.unknownMessage type]
  | unknownBufferUsage usage => [s!"未知的 buffer usage: {usage}"]
  | unknownImageUsage usage => [s!"未知的 image usage: {usage}"]
  | unknownDimension dimension => [s!"未知的 image 维度: {dimension}"]
  | unknownFormat format => [s!"未知的 image format: {format}"]

namespace ShaderBinding

/-! ## The words of a declaration -/

def bufferUsages : List (String × DescriptorType) :=
  [("uniform", .uniformBuffer), ("uniform_dynamic", .uniformBufferDynamic),
   ("storage", .storageBuffer), ("storage_dynamic", .storageBufferDynamic),
   ("uniform_texel", .uniformTexelBuffer), ("storage_texel", .storageTexelBuffer)]

def imageUsages : List (String × DescriptorType) :=
  [("sampled", .sampledImage), ("combined", .combinedImageSampler), ("storage", .storageImage),
   ("input_attachment", .inputAttachment)]

def dimensions : List (String × ViewType) :=
  [("1d", .oneD), ("2d", .twoD), ("3d", .threeD), ("cube", .cube), ("2d_array", .twoDArray)]

def formats : List (String × Format) :=
  [("rgba8", .r8g8b8a8Unorm), ("rgba8_snorm", .r8g8b8a8Snorm), ("rgba16f", .r16g16b16a16Sfloat),
   ("rgba32f", .r32g32b32a32Sfloat), ("rg16f", .r16g16Sfloat), ("rg32f", .r32g32Sfloat),
   ("r16f", .r16Sfloat), ("r32f", .r32Sfloat), ("r32ui", .r32Uint), ("r32i", .r32Sint),
   ("r8", .r8Unorm), ("r11f_g11f_b10f", .b10g11r11Ufloat)]

/-- What the table has for a word, else the error. -/
def lookUp {α : Type} (table : List (String × α)) (error : String → BindingError) (word : String) :
    Except BindingError α :=
  match table.lookup word with
  | some a => .ok a
  | none => .error (error word)

def elements (binding : String) (declared : List DeclaredElement) :
    Except BindingError (List BufferElement) :=
  declared.mapM fun e =>
    match ElementType.parse? e.type with
    | some type => .ok ⟨type, e.count⟩
    | none => .error (.unknownElementType binding e.type)

/-- Descriptor type and detail of a declared binding. A usage that is left out is the usual one of
its class; a bindless array takes the usages of images and of buffers. -/
def resolve (name : String) (d : DeclaredBinding) :
    Except BindingError (DescriptorType × BindingDetail) :=
  match d.resource with
  | .buffer => do
    let elements ← elements name d.elements
    let type ← lookUp bufferUsages .unknownBufferUsage (d.usage.getD "uniform")
    return (type, .buffer elements)
  | .image => do
    let type ← lookUp imageUsages .unknownImageUsage (d.usage.getD "sampled")
    let viewType ← lookUp dimensions .unknownDimension (d.dimension.getD "2d")
    let format ← d.format.mapM (lookUp formats .unknownFormat)
    return (type, .image viewType format)
  | .sampler => return (.sampler, .sampler d.immutable)
  | .bindless => do
    let type ← lookUp (imageUsages ++ bufferUsages) .unknownBufferUsage (d.usage.getD "combined")
    return (type, .bindless)

/-- The binding that `d` declares, under the given name and visibility. -/
def ofDeclared (name : String) (d : DeclaredBinding) (visibility : ShaderStages) :
    Except BindingError ShaderBinding := do
  let (descriptorType, detail) ← resolve name d
  return ⟨name, d.slot, visibility, d.rate, d.count, descriptorType, detail⟩

/-! ## Reading off a binding -/

def resource (b : ShaderBinding) : ResourceClass :=
  match b.detail with
  | .buffer _ => .buffer
  | .image _ _ => .image
  | .sampler _ => .sampler
  | .bindless => .bindless

/-- Whether shaders read the binding as uniform data. -/
def isUniform (b : ShaderBinding) : Bool :=
  b.descriptorType ∈
    [DescriptorType.uniformBuffer, .uniformBufferDynamic, .uniformTexelBuffer]

/-- Adds one member to a size, in 32-bit arithmetic. -/
def addElement (size : Nat) (e : BufferElement) : Except Fault Nat :=
  if Text.bound32 ≤ e.type.size * e.count then .error .multiplyOverflow
  else if Text.bound32 ≤ size + e.type.size * e.count then .error .addOverflow
  else .ok (size + e.type.size * e.count)

/-- The size of a buffer's members without padding; other bindings have none. -/
def bufferSize (b : ShaderBinding) : Except Fault (Option Nat) :=
  match b.detail with
  | .buffer elements => do return some (← elements.foldlM addElement 0)
  | _ => .ok none

end ShaderBinding

end FrameGraph
