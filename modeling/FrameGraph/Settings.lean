import FrameGraph.ErrorChain
import FrameGraph.Image
import FrameGraph.Text.Quoted
import FrameGraph.Toml.Document
import FrameGraph.Workspace

/-!
# Settings

The settings of a run, read from a TOML document. What the document leaves out keeps its default;
a key that is no setting, or a value of another kind, is an error.
-/

set_option autoImplicit false

namespace FrameGraph

structure Settings where
  /-- The directory of the shaders, relative to the workspace. -/
  shaderRoot : String := "engine/shader"
  swapchainImageCount : Nat := 3
  width : Nat := 1280
  height : Nat := 720
  printPlan : Bool := true
  frames : Nat := 2
  deriving DecidableEq

/-- Why settings were not read. -/
inductive SettingsError
  | unreadable (path : String) (cause : IoError)
  | malformed (path : String)
  deriving DecidableEq

def SettingsError.chain : SettingsError → ErrorChain
  | unreadable path cause => ⟨[s!"读取配置文件失败: {Text.quote path}"], some (.io cause)⟩
  | malformed path => ⟨[s!"解析 TOML 配置失败: {Text.quote path}"], some .toml⟩

namespace Settings

/-- A number that fits 32 bits. -/
def unsigned? : Toml.Value → Option Nat
  | .integer n => if 0 ≤ n ∧ n < Text.bound32 then some n.toNat else none
  | _ => none

/-- The settings with one entry of a document. -/
def set? (s : Settings) : String × Toml.Value → Option Settings
  | ("shader_root", .text path) => some { s with shaderRoot := path }
  | ("swapchain_image_count", v) => (unsigned? v).map fun n => { s with swapchainImageCount := n }
  | ("width", v) => (unsigned? v).map fun n => { s with width := n }
  | ("height", v) => (unsigned? v).map fun n => { s with height := n }
  | ("print_plan", .boolean b) => some { s with printPlan := b }
  | ("frames", v) => (unsigned? v).map fun n => { s with frames := n }
  | _ => none

/-- The settings that a document writes. -/
def parse? (text : String) : Option Settings := do (← Toml.parse? text).foldlM set? {}

/-- Reads the settings from a file. -/
def load (files : FileTree) (path : String) : Except SettingsError Settings :=
  match files.readText path with
  | .error e => .error (.unreadable path e)
  | .ok text =>
    match parse? text with
    | some s => .ok s
    | none => .error (.malformed path)

def extent (s : Settings) : Extent := ⟨s.width, s.height⟩

/-- The directory of the shaders. -/
def shaderRootPath (s : Settings) (w : Workspace) : String := w.resolve s.shaderRoot

/-- The settings on one line. -/
def text (s : Settings) : String :=
  "RenderGraphSettings \x7b " ++ s!"shader_root: {Text.quote s.shaderRoot}, " ++
    s!"swapchain_image_count: {s.swapchainImageCount}, width: {s.width}, height: {s.height}, " ++
    s!"print_plan: {s.printPlan}, frames: {s.frames}" ++ " \x7d"

end Settings

end FrameGraph
