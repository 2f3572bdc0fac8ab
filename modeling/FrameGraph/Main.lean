import FrameGraph.Sample.Command

/-!
# The planning tool

Plans the sample frame with the settings and shaders of the workspace in the current directory and
prints the log. No shader compiler is attached: compiling reports that there is none.
-/

set_option autoImplicit false

open FrameGraph

/-- The tree around the directory `home` with those of the files that can be read. -/
def readFiles (home : String) (paths : List String) : IO FileTree :=
  paths.foldlM (fun (files : FileTree) (path : String) => do
    try
      let content ← IO.FS.readBinFile path
      return files.insert path (.file content.toList)
    catch _ => return files) (.within home)

/-- The files that a shader may be made of. -/
def shaderPaths (dir : String) : List String :=
  Sample.shaderNames.flatMap fun name =>
    ("json" :: ShaderStage.all.map ShaderStage.suffix).map fun suffix =>
      joinPath dir (name ++ "." ++ suffix)

def usage : String :=
  "usage: rg-plan [--config FILE] [--frames N] [--shader-dir DIR] [--compile]"

def main (args : List String) : IO UInt32 := do
  let w : Workspace := ⟨(← IO.currentDir).toString⟩
  match Sample.Request.parse? args with
  | none =>
    IO.eprintln usage
    return Sample.usageStatus.toUInt32
  | some .help =>
    IO.println usage
    return 0
  | some (.plan o) =>
    let config := o.config.getD (w.config "render-graph.toml")
    let settings := (Settings.load (← readFiles w.root [config]) config).toOption.getD {}
    let dir := w.resolve (o.shaderDir.getD settings.shaderRoot)
    let files ← readFiles w.root (config :: shaderPaths dir)
    let e := Sample.execute w args files fun _ => .error .notFound
    for l in e.log do IO.eprintln l.shown
    if let some c := e.error then IO.eprintln ("Error: " ++ String.intercalate ": " c.messages)
    if let some f := e.fault then IO.eprintln f.message
    return e.status.toUInt32
