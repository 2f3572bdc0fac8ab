import FrameGraph.FileTree

/-!
# Workspaces

Where the parts of a workspace are: paths are given relative to its root, and an absolute path stays
itself.
-/

set_option autoImplicit false

namespace FrameGraph

structure Workspace where
  root : String

namespace Workspace

/-- The place of a path in the workspace. -/
def resolve (w : Workspace) (path : String) : String :=
  if path.startsWith "/" then path else joinPath w.root path

def engine (w : Workspace) : String := joinPath w.root "engine"

/-- The place of a settings file. -/
def config (w : Workspace) (name : String) : String := joinPath (joinPath w.root "config") name

/-- The directory of shader sources and layout documents. -/
def shaderRoot (w : Workspace) : String := joinPath w.engine "shader"

end Workspace

end FrameGraph
