import FrameGraph.Hierarchy
import FrameGraph.Shader.Binding
import FrameGraph.Shader.Compiler
import FrameGraph.Shader.SourceScan

/-!
# The shader registry

Shaders by their paths. A shader is a layout document, the sources of its stages and, once compiled,
a module for each. `Registry.load` puts a shader under its path, `Registry.compile` makes the
modules that are missing at a path and below it. A load that fails changes nothing.
-/

set_option autoImplicit false

namespace FrameGraph

structure ShaderSource where
  path : String
  text : String
  deriving DecidableEq

structure Shader where
  name : String
  /-- In increasing order of their slots. -/
  bindings : List ShaderBinding
  /-- In stage order. -/
  sources : List (ShaderStage × ShaderSource)
  modules : List (ShaderStage × Handle .shaderModule) := []
  deriving DecidableEq

namespace Shader

def binding? (s : Shader) (name : String) : Option ShaderBinding :=
  s.bindings.find? (·.name == name)

def module? (s : Shader) (stage : ShaderStage) : Option (Handle .shaderModule) :=
  s.modules.lookup stage

/-- Whether there are sources and each has its module. -/
def isCompiled (s : Shader) : Bool :=
  !s.sources.isEmpty && s.sources.all fun e => (s.module? e.1).isSome

/-- The compiled stages, for a pipeline. -/
def stageDescs (s : Shader) : List ShaderStageDesc :=
  s.sources.filterMap fun e => (s.module? e.1).map fun m => { stage := e.1.flag, module := m }

/-- The layout of descriptor set 0. Bindless arrays may be written after the set is bound. -/
def setLayoutDesc (s : Shader) : SetLayoutDesc where
  bindings := s.bindings.map fun b => {
    binding := b.slot
    descriptorType := b.descriptorType
    count := b.count
    stages := b.visibility
    flags :=
      if b.resource = .bindless then
        DescriptorBindingFlags.partiallyBound ∪ DescriptorBindingFlags.updateAfterBind
      else ∅ }
  flags :=
    if s.bindings.any (·.resource == .bindless) then SetLayoutFlags.updateAfterBindPool else ∅

end Shader

/-- Why a shader was not loaded or not compiled. -/
inductive ShaderError
  | unreadableLayout (path : String) (cause : IoError)
  | malformedLayout (path : String)
  | unreadableSource (path : String) (cause : IoError)
  | unnamedSlot (shader : String) (slot : Nat)
  | invalidSlot (shader : String) (slot : Nat) (cause : BindingError)
  | conflictingSlot (shader : String) (slot : Nat)
  | repeatedName (shader binding : String)
  | notCompiled (module : String) (cause : CompilerError)
  | moduleRefused (module : String) (cause : DeviceError)
  deriving DecidableEq

namespace ShaderError

def chain : ShaderError → ErrorChain
  | unreadableLayout path cause => ⟨[s!"读取 layout 失败: {Text.quote path}"], some (.io cause)⟩
  | malformedLayout path =>
    ⟨[s!"解析 layout 失败: {Text.quote path}", "layout 描述格式错误"], some .json⟩
  | unreadableSource path cause =>
    ⟨[s!"读取 shader 源码失败: {Text.quote path}"], some (.io cause)⟩
  | unnamedSlot shader slot =>
    ⟨[s!"shader {shader} 的 slot {slot} 在源码中没有声明，layout 中也没有给出名字"], none⟩
  | invalidSlot shader slot cause =>
    ⟨s!"shader {shader} 的 slot {slot} 无效" :: cause.chain, none⟩
  | conflictingSlot shader slot =>
    ⟨[s!"shader {shader} 的 slot {slot} 在不同 stage 中描述不一致"], none⟩
  | repeatedName shader binding => ⟨[s!"shader {shader} 中存在重名的 binding: {binding}"], none⟩
  | notCompiled module cause => cause.chain.within s!"编译 shader 失败: {module}"
  | moduleRefused module cause =>
    ⟨[s!"创建 shader module 失败: {module}"], some (.device cause)⟩

end ShaderError

/-! ## Resolving bindings -/

namespace Shader

abbrev Sources := List (ShaderStage × ShaderSource)

/-- Adds the names that one source gives to its slots. The name that a slot has already stays. -/
def addScanned (shader : String) (names : SlotTable String) (scanned : Nat × String) :
    Traced (SlotTable String) :=
  let (slot, name) := scanned
  match names.find? slot with
  | none => pure (names.insert slot name)
  | some existing => do
    if existing ≠ name then
      Traced.report (.warn s!"shader {shader}: slot {slot} 在不同 stage 中名字不同: {existing} / {name}")
    pure names

/-- The names that the sources give to the slots of set 0. -/
def scanSources (shader : String) (sources : Sources) : Traced (SlotTable String) :=
  sources.foldlM (fun names e => do
    (← SourceScan.scan e.2.text).entries.foldlM (addScanned shader) names) .empty

/-- The stages that have a source; without any, all stages. -/
def visibleStages (sources : Sources) : ShaderStages :=
  if sources = [] then .all else sources.foldl (fun m e => m ∪ e.1.flag) ∅

/-- The declarations of a document, each with the stages that see it. -/
def declarations (doc : LayoutDocument) (sources : Sources) :
    List (DeclaredBinding × ShaderStages) :=
  doc.bindings.map (fun d => (d, visibleStages sources)) ++
    doc.sections.flatMap fun (stage, ds) => ds.map fun d => (d, stage.flag)

/-- The name of a declared binding: what the sources call its slot, else what the document does. -/
def bindingName (shader : String) (names : SlotTable String) (d : DeclaredBinding) :
    Except ShaderError String :=
  match names.find? d.slot, d.name with
  | some scanned, _ => .ok scanned
  | none, some explicit => .ok explicit
  | none, none => .error (.unnamedSlot shader d.slot)

/-- Adds a declaration to the bindings so far. Declarations of one slot must agree in descriptor
type and detail; the slot is then seen by the stages of both. -/
def addDeclared (shader : String) (names : SlotTable String) (table : SlotTable ShaderBinding)
    (declared : DeclaredBinding × ShaderStages) : Except ShaderError (SlotTable ShaderBinding) := do
  let (d, visibility) := declared
  let name ← bindingName shader names d
  let binding ← (ShaderBinding.ofDeclared name d visibility).mapError (.invalidSlot shader d.slot)
  match table.find? d.slot with
  | none => return table.insert d.slot binding
  | some existing =>
    if existing.descriptorType = binding.descriptorType ∧ existing.detail = binding.detail then
      return table.insert d.slot { existing with visibility := existing.visibility ∪ visibility }
    else throw (.conflictingSlot shader d.slot)

/-- The bindings of a document by slot. -/
def mergeDeclared (shader : String) (names : SlotTable String) (doc : LayoutDocument)
    (sources : Sources) : Except ShaderError (SlotTable ShaderBinding) :=
  (declarations doc sources).foldlM (addDeclared shader names) .empty

/-- Checks that no two bindings have one name; the first that repeats one is at fault. -/
def checkNames (shader : String) : List String → List ShaderBinding → Except ShaderError Unit
  | _, [] => .ok ()
  | seen, b :: rest =>
    if b.name ∈ seen then .error (.repeatedName shader b.name)
    else checkNames shader (b.name :: seen) rest

/-- The bindings of a document under the names that the sources give them. -/
def resolveBindings (shader : String) (doc : LayoutDocument) (sources : Sources) :
    Traced (Except ShaderError (List ShaderBinding)) := do
  let names ← scanSources shader sources
  match mergeDeclared shader names doc sources with
  | .error e => pure (.error e)
  | .ok table =>
    let undeclared := names.entries.filter fun e => (table.find? e.1).isNone
    Traced.reportAll (undeclared.map fun (slot, name) =>
      .warn s!"shader {shader}: 源码中的 {name} (slot {slot}) 没有出现在 layout 中")
    match checkNames shader [] table.values with
    | .error e => pure (.error e)
    | .ok () => pure (.ok table.values)

/-! ## Reading -/

/-- The sources that are there for a shader, in stage order. -/
def readSources (files : FileTree) (dir name : String) : Except ShaderError Sources :=
  (ShaderStage.all.filterMapM fun stage => do
    let path := joinPath dir (name ++ "." ++ stage.suffix)
    if files.isFile path then
      match files.readText path with
      | .ok text => return some (stage, ⟨path, text⟩)
      | .error e => throw (.unreadableSource path e)
    else return none)

/-- The layout document of a shader. -/
def readLayout (files : FileTree) (dir name : String) : Except ShaderError LayoutDocument :=
  let path := joinPath dir (name ++ ".json")
  match files.readText path with
  | .error e => .error (.unreadableLayout path e)
  | .ok text =>
    match LayoutDocument.parse? text with
    | some doc => .ok doc
    | none => .error (.malformedLayout path)

/-- Reads a shader from its files. -/
def read (files : FileTree) (dir name : String) : Traced (Except ShaderError Shader) :=
  match (do return (← readLayout files dir name, ← readSources files dir name)) with
  | .error e => pure (.error e)
  | .ok (doc, sources) => do
    match ← resolveBindings name doc sources with
    | .error e => pure (.error e)
    | .ok bindings =>
      let stages := String.intercalate ", " (sources.map (·.1.suffix))
      let names := String.intercalate ", " (bindings.map (·.name))
      Traced.report (.info s!"load shader {name}: stages [{stages}], bindings [{names}]")
      pure (.ok { name, bindings, sources })

end Shader

/-! ## The registry -/

/-- A path of the registry, with the shader loaded under it, if any. -/
structure ShaderNode where
  path : String
  parent : Option Nat := none
  shader : Option Shader := none

structure Registry where
  nodes : List ShaderNode := []

namespace Registry

def indexOf? (r : Registry) (path : String) : Option Nat := r.nodes.findIdx? (·.path == path)

def node? (r : Registry) (path : String) : Option ShaderNode := r.nodes.find? (·.path == path)

def shader? (r : Registry) (path : String) : Option Shader := (r.node? path).bind (·.shader)

/-- The shader of that name, which must be loaded. -/
def shader (r : Registry) (name : String) : Except Fault Shader :=
  match r.shader? name with
  | some s => .ok s
  | none => .error (.shaderNotLoaded name)

/-- The names of the shaders loaded, in the order in which their paths came in. -/
def names (r : Registry) : List String := (r.nodes.filter (·.shader.isSome)).map (·.path)

def hierarchy (r : Registry) : Hierarchy := r.nodes.map (·.parent)

/-- The paths directly below a path. -/
def childPaths (r : Registry) (path : String) : List String :=
  match r.indexOf? path with
  | some i => (r.hierarchy.children i).filterMap fun j => (r.nodes[j]?).map (·.path)
  | none => []

/-- The path directly above a path. -/
def parentPath? (r : Registry) (path : String) : Option String :=
  ((r.node? path).bind (·.parent)).bind fun i => (r.nodes[i]?).map (·.path)

/-- The parts of a name that end before a slash, and the name itself. `before` is what was read of
the name, in reverse. -/
def pathsFrom (before : List Char) : List Char → List String
  | [] => [String.ofList before.reverse]
  | c :: rest =>
    if c = '/' then String.ofList before.reverse :: pathsFrom (c :: before) rest
    else pathsFrom (c :: before) rest

def paths (name : String) : List String := pathsFrom [] name.toList

/-- Makes sure that a path is there, below the given parent, and tells its position. -/
def ensure (r : Registry) (parent : Option Nat) (path : String) : Registry × Nat :=
  match r.indexOf? path with
  | some i => (r, i)
  | none => (⟨r.nodes ++ [{ path, parent }]⟩, r.nodes.length)

/-- Makes sure that all of the paths are there, each below the one before it. -/
def ensureAll (r : Registry) (parent : Option Nat) : List String → Registry
  | [] => r
  | path :: rest =>
    let (r, i) := r.ensure parent path
    r.ensureAll (some i) rest

/-- Puts a shader under its name, in place of an earlier one. -/
def insert (r : Registry) (s : Shader) : Registry :=
  ⟨(r.ensureAll none (paths s.name)).nodes.map fun n =>
    if n.path = s.name then { n with shader := some s } else n⟩

/-- Loads the shader of that name from its files below `dir`. -/
def load (r : Registry) (files : FileTree) (dir name : String) :
    Traced (Except ShaderError Shader × Registry) := do
  match ← Shader.read files dir name with
  | .ok s => pure (.ok s, r.insert s)
  | .error e => pure (.error e, r)

/-! ## Compiling -/

/-- A stage that has no module yet. -/
structure Pending where
  index : Nat
  path : String
  stage : ShaderStage
  source : ShaderSource

/-- The name of the stage's module. -/
def Pending.module (p : Pending) : String := p.path ++ "." ++ p.stage.suffix

/-- The stages of one shader that have no module yet. -/
def pendingAt (r : Registry) (i : Nat) : List Pending :=
  match r.nodes[i]? with
  | some ⟨path, _, some s⟩ =>
    (s.sources.filter fun e => (s.module? e.1).isNone).map fun (stage, source) =>
      ⟨i, path, stage, source⟩
  | _ => []

def addModule (r : Registry) (i : Nat) (stage : ShaderStage) (h : Handle .shaderModule) :
    Registry :=
  ⟨r.nodes.modify i fun n =>
    { n with shader := n.shader.map fun s => { s with modules := s.modules ++ [(stage, h)] } }⟩

variable {κ δ : Type} [ShaderCompiler κ] [Device δ]

/-- Compiles stages in order, up to the first that fails. The result counts them from `count`. -/
def compileAll (r : Registry) (compiler : κ) (device : δ) (count : Nat) :
    List Pending → Traced (Except ShaderError Nat × Registry × κ × δ)
  | [] => pure (.ok count, r, compiler, device)
  | p :: rest => do
    match ← ShaderCompiler.compile p.stage p.source.path p.source.text compiler with
    | (.error e, compiler) => pure (.error (.notCompiled p.module e), r, compiler, device)
    | (.ok words, compiler) =>
      match ← Device.createShaderModule words p.module device with
      | (.error e, device) => pure (.error (.moduleRefused p.module e), r, compiler, device)
      | (.ok h, device) =>
        compileAll (r.addModule p.index p.stage h) compiler device (count + 1) rest

/-- Makes the modules that are missing at a path and below it, and counts them. -/
def compile (r : Registry) (name : String) (compiler : κ) (device : δ) :
    Traced (Except ShaderError Nat × Registry × κ × δ) :=
  match r.indexOf? name with
  | none => Traced.fault (.shaderNotLoaded name)
  | some i => r.compileAll compiler device 0 ((r.hierarchy.subtree i).flatMap r.pendingAt)

end Registry

end FrameGraph
