import FrameGraph.ErrorChain
import FrameGraph.Shader.Stage
import FrameGraph.Workspace

/-!
# Shader compilers

`ShaderCompiler κ` turns the source of a stage into shader words; its state is `κ`. `Glslc` is the
compiler that runs the program `glslc`. Running a program is left to `Glslc.run`, which tells what
came of it.
-/

set_option autoImplicit false

namespace FrameGraph

/-- Why a source was not compiled. -/
inductive CompilerError
  | notStarted (path : String) (cause : IoError)
  | exited (path : String) (status : Nat)
  | oddLength (path : String) (length : Nat)
  /-- A refusal in the compiler's own words. -/
  | refused (message : String)
  deriving DecidableEq

def CompilerError.chain : CompilerError → ErrorChain
  | notStarted path cause => ⟨[s!"执行 glslc 失败: {Text.quote path}"], some (.io cause)⟩
  | exited path status =>
    ⟨[s!"glslc 编译失败 (exit status: {status}): {Text.quote path}"], none⟩
  | oddLength path length =>
    ⟨[s!"glslc 输出无效: {Text.quote path}", s!"SPIR-V 长度不是 4 的倍数: {length}"], none⟩
  | refused message => ⟨[message], none⟩

class ShaderCompiler (κ : Type) where
  /-- The words of a stage, from the path and the text of its source. -/
  compile : ShaderStage → String → String → κ → Traced (Except CompilerError (List Nat) × κ)

/-- What a program left behind when it ended. -/
structure ProgramOutput where
  status : Nat
  stdout : List UInt8
  stderr : List UInt8

/-- The compiler that runs the program `glslc`. -/
structure Glslc where
  includeDirs : List String
  targetEnv : String := "vulkan1.2"
  /-- Runs the program on its arguments. -/
  run : List String → Except IoError ProgramOutput

namespace Glslc

/-- The compiler for a workspace: sources may include from its shader directory and from `dirs`. -/
def ofWorkspace (w : Workspace) (dirs : List String)
    (run : List String → Except IoError ProgramOutput) : Glslc where
  includeDirs := joinPath w.shaderRoot "include" :: dirs
  run := run

/-- The arguments with which a source is compiled. -/
def arguments (g : Glslc) (stage : ShaderStage) (path : String) : List String :=
  [s!"-fshader-stage={stage.compilerName}", s!"--target-env={g.targetEnv}", "-g"] ++
    g.includeDirs.map ("-I" ++ ·) ++ ["-o", "-", path]

/-- The words of which four bytes each are given, the lowest first. -/
def words? : List UInt8 → Option (List Nat)
  | [] => some []
  | a :: b :: c :: d :: rest =>
    (words? rest).map fun ws =>
      (a.toNat + b.toNat * 0x100 + c.toNat * 0x10000 + d.toNat * 0x1000000) :: ws
  | _ => none

/-- Starts the program. No argument can hold a zero character, which would end it. -/
def start (g : Glslc) (arguments : List String) : Except IoError ProgramOutput :=
  if arguments.any (·.toList.contains '\x00') then .error .invalidInput else g.run arguments

def compile (stage : ShaderStage) (path : String) (g : Glslc) :
    Traced (Except CompilerError (List Nat) × Glslc) :=
  match g.start (g.arguments stage path) with
  | .error e => pure (.error (.notStarted path e), g)
  | .ok output => do
    if output.stderr ≠ [] then
      Traced.report (.warn ("glslc stderr: " ++ Text.decodeLossy output.stderr))
    if output.status ≠ 0 then pure (.error (.exited path output.status), g)
    else
      match words? output.stdout with
      | some words => pure (.ok words, g)
      | none => pure (.error (.oddLength path output.stdout.length), g)

instance : ShaderCompiler Glslc := ⟨fun stage path _ => compile stage path⟩

end Glslc

end FrameGraph
