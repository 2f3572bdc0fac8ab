import FrameGraph.Mask.Usage
import FrameGraph.Text.Split

/-!
# Shader stages

The stages for which a shader may have a source file. The file's suffix names the stage.
-/

set_option autoImplicit false

namespace FrameGraph

inductive ShaderStage
  | vertex | fragment | compute | task | mesh
  deriving DecidableEq

namespace ShaderStage

/-- All stages, in the order in which sources are read and modules are made. -/
def all : List ShaderStage := [vertex, fragment, compute, task, mesh]

/-- The suffix of a source file, without the dot. -/
def suffix : ShaderStage → String
  | vertex => "vert"
  | fragment => "frag"
  | compute => "comp"
  | task => "task"
  | mesh => "mesh"

/-- The stage of a source file: what follows the last dot of its name decides. -/
def ofFileName? (fileName : String) : Option ShaderStage :=
  (Text.splitLast? '.' fileName.toList).bind fun (_, ext) =>
    all.find? fun stage => stage.suffix.toList == ext

/-- The stage as a flag of a visibility mask. -/
def flag : ShaderStage → ShaderStages
  | vertex => .vertex
  | fragment => .fragment
  | compute => .compute
  | task => .task
  | mesh => .mesh

/-- The stage's name on the shader compiler's command line. -/
def compilerName : ShaderStage → String
  | vertex => "vertex"
  | fragment => "fragment"
  | compute => "compute"
  | task => "task"
  | mesh => "mesh"

theorem mem_all (s : ShaderStage) : s ∈ all := by cases s <;> decide

theorem dot_notMem_suffix (s : ShaderStage) : '.' ∉ s.suffix.toList := by cases s <;> decide

theorem find?_suffix (s : ShaderStage) :
    (all.find? fun stage => stage.suffix.toList == s.suffix.toList) = some s := by
  cases s <;> rfl

end ShaderStage

end FrameGraph
