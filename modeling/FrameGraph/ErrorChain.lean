import FrameGraph.Device.Basic
import FrameGraph.FileTree

/-!
# Error chains

An error is told from the outside in: what was attempted, what failed in it, and at the bottom the
cause, which may come from the file system, a document or the device.
-/

set_option autoImplicit false

namespace FrameGraph

/-- A cause outside the library. -/
inductive RootCause
  | io (e : IoError)
  | json
  | toml
  | device (e : DeviceError)
  deriving DecidableEq

structure ErrorChain where
  /-- The messages, the outermost first. -/
  messages : List String
  root : Option RootCause := none
  deriving DecidableEq

/-- The chain inside a further attempt. -/
def ErrorChain.within (message : String) (c : ErrorChain) : ErrorChain :=
  { c with messages := message :: c.messages }

end FrameGraph
