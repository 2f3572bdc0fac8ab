import FrameGraph.Sample.Run
import FrameGraph.Text.Numeral

/-!
# The command line

`Request.parse?` reads the arguments of the planning tool, and `execute` tells how they end: the
exit status, the log, and the error that ended the run.
-/

set_option autoImplicit false

namespace FrameGraph.Sample

/-- The value of an argument written `--name=value`. -/
def valueAfter? (name arg : String) : Option String :=
  (Text.stripHead? (name ++ "=").toList arg.toList).map String.ofList

/-- Whether an argument stands for itself and is no option. -/
def isPlain (arg : String) : Bool := arg == "-" || !arg.startsWith "-"

/-- What a command line asks for. -/
inductive Request
  | help
  | plan (options : Options)

/-- Whether an argument asks for help. Behind the short form anything may follow. -/
def asksHelp (arg : String) : Bool := arg == "--help" || arg.startsWith "-h"

/-- The number of frames that a numeral asks for. A minus sign may stand before a zero. -/
def frameCount? (value : String) : Option Nat :=
  match value.toList with
  | '-' :: digits => (Text.digits? digits).filter (· = 0)
  | cs => Text.numeral? Text.bound32 cs

/-- Adds the value of an option. No option may be given twice. -/
def Options.set? (o : Options) (name value : String) : Option Options :=
  if name = "--config" ∧ o.config = none ∧ value ≠ "" then some { o with config := some value }
  else if name = "--shader-dir" ∧ o.shaderDir = none ∧ value ≠ "" then
    some { o with shaderDir := some value }
  else if name = "--frames" ∧ o.frames = none then
    (frameCount? value).map fun n => { o with frames := some n }
  else none

/-- The options with values. -/
def valueOptions : List String := ["--config", "--shader-dir", "--frames"]

/-- Reads arguments behind the options `o`, up to one that asks for help. A value follows its
option, or stands behind an equals sign in the same argument. -/
def Request.parseFrom? (o : Options) : List String → Option Request
  | [] => some (.plan o)
  | ["--"] => some (.plan o)
  | arg :: rest =>
    if asksHelp arg then some .help
    else if arg = "--compile" then
      if o.compile then none else parseFrom? { o with compile := true } rest
    else
      match valueOptions.find? (fun name => (valueAfter? name arg).isSome) with
      | some name => do
        let o ← o.set? name (← valueAfter? name arg)
        parseFrom? o rest
      | none =>
        match rest with
        | value :: rest =>
          if isPlain value then do
            let o ← o.set? arg value
            parseFrom? o rest
          else none
        | [] => none

def Request.parse? (args : List String) : Option Request := Request.parseFrom? {} args

/-- How a run ends. -/
structure Ending where
  status : Nat
  log : List LogLine
  /-- The error that ended the run early. -/
  error : Option ErrorChain := none
  /-- The fault that stopped the run. -/
  fault : Option Fault := none

/-- The ending of a run. -/
def ending {α : Type} (x : RunM α) : Ending :=
  let t : Traced (Except RunError α) := x.run
  match t.result with
  | .ok (.ok _) => { status := 0, log := t.log }
  | .ok (.error e) => { status := 1, log := t.log, error := some e.chain }
  | .error f => { status := 101, log := t.log, fault := some f }

/-- The status of a command line that is not understood. -/
def usageStatus : Nat := 2

/-- The ending of a command line. -/
def execute (w : Workspace) (args : List String) (files : FileTree)
    (program : List String → Except IoError ProgramOutput) : Ending :=
  match Request.parse? args with
  | none => { status := usageStatus, log := [] }
  | some .help => { status := 0, log := [] }
  | some (.plan o) => ending (run w o files program)

end FrameGraph.Sample
