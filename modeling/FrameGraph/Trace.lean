import FrameGraph.Fault

/-!
# Traced computations

`Traced α` is the outcome of a step that reports log lines and may stop with a fault. Lines that
were reported before a fault are kept. `Traced.result_bind` and `Traced.log_bind` say how the two
parts of a sequence come from the parts of its members.
-/

set_option autoImplicit false

namespace FrameGraph

inductive LogLevel
  | info | warn
  deriving DecidableEq

structure LogLine where
  level : LogLevel
  text : String
  deriving DecidableEq

namespace LogLine

def info (text : String) : LogLine := ⟨.info, text⟩

def warn (text : String) : LogLine := ⟨.warn, text⟩

/-- The line as it is shown: the level, then the text. -/
def shown (l : LogLine) : String :=
  (match l.level with
    | .info => "INFO "
    | .warn => "WARN ") ++ l.text

end LogLine

/-- A result, or the fault that stopped the computation, and the lines reported until then. -/
structure Traced (α : Type) where
  log : List LogLine
  result : Except Fault α

namespace Traced

variable {α β : Type}

protected def pure (a : α) : Traced α := ⟨[], .ok a⟩

protected def bind (x : Traced α) (f : α → Traced β) : Traced β :=
  match x.result with
  | .ok a => ⟨x.log ++ (f a).log, (f a).result⟩
  | .error e => ⟨x.log, .error e⟩

instance : Monad Traced where
  pure := Traced.pure
  bind := Traced.bind

/-- Stops with a fault. -/
def fault (e : Fault) : Traced α := ⟨[], .error e⟩

def report (l : LogLine) : Traced Unit := ⟨[l], .ok ()⟩

def reportAll (ls : List LogLine) : Traced Unit := ⟨ls, .ok ()⟩

/-- A computation that reports nothing. -/
def ofExcept (x : Except Fault α) : Traced α := ⟨[], x⟩

instance : MonadLift (Except Fault) Traced := ⟨ofExcept⟩

@[simp] theorem result_pure (a : α) : (pure a : Traced α).result = .ok a := rfl

@[simp] theorem log_pure (a : α) : (pure a : Traced α).log = [] := rfl

@[simp] theorem result_fault (e : Fault) : (fault e : Traced α).result = .error e := rfl

@[simp] theorem result_report (l : LogLine) : (report l).result = .ok () := rfl

@[simp] theorem result_reportAll (ls : List LogLine) : (reportAll ls).result = .ok () := rfl

@[simp] theorem result_ofExcept (x : Except Fault α) : (ofExcept x).result = x := rfl

/-- The result of a sequence is the sequence of the results. -/
@[simp] theorem result_bind (x : Traced α) (f : α → Traced β) :
    (x >>= f).result = x.result >>= fun a => (f a).result := by
  show (Traced.bind x f).result = _
  unfold Traced.bind
  cases x.result <;> rfl

/-- A sequence that does not stop early reports the lines of both members. -/
theorem log_bind {x : Traced α} {a : α} (h : x.result = .ok a) (f : α → Traced β) :
    (x >>= f).log = x.log ++ (f a).log := by
  show (Traced.bind x f).log = _
  unfold Traced.bind
  rw [h]

end Traced

end FrameGraph
