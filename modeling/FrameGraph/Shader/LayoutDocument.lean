import FrameGraph.Json.Value
import FrameGraph.Shader.Stage
import FrameGraph.Text.Numeral

/-!
# Layout documents

A layout document lists the bindings of a shader, those that every stage sees and those of each
stage. `LayoutDocument.parse?` reads one from JSON text; it fixes names and kinds of fields only,
what the strings mean is checked when a binding is made from them.

A record is an object of its fields, in any order, or an array of them in the order of their
declaration.
-/

set_option autoImplicit false

namespace FrameGraph

open Json (Value)

inductive ResourceClass
  | buffer | image | sampler | bindless
  deriving DecidableEq

/-- How often a binding's contents change. -/
inductive UpdateRate
  | frame | pass | batch | draw
  deriving DecidableEq

/-- A member of a buffer: a type name and how many of it follow each other. -/
structure DeclaredElement where
  type : String
  count : Nat := 1
  deriving DecidableEq

/-- A binding as the document declares it. -/
structure DeclaredBinding where
  slot : Nat
  resource : ResourceClass
  /-- The name used when no source declares the slot. -/
  name : Option String := none
  usage : Option String := none
  rate : UpdateRate := .frame
  count : Nat := 1
  elements : List DeclaredElement := []
  dimension : Option String := none
  format : Option String := none
  immutable : Bool := false
  deriving DecidableEq

structure LayoutDocument where
  /-- Seen by every stage that has a source. -/
  bindings : List DeclaredBinding := []
  vertex : Option (List DeclaredBinding) := none
  fragment : Option (List DeclaredBinding) := none
  compute : Option (List DeclaredBinding) := none
  task : Option (List DeclaredBinding) := none
  mesh : Option (List DeclaredBinding) := none
  deriving DecidableEq

namespace LayoutDocument

/-- The section of a stage. -/
def section? (d : LayoutDocument) : ShaderStage → Option (List DeclaredBinding)
  | .vertex => d.vertex
  | .fragment => d.fragment
  | .compute => d.compute
  | .task => d.task
  | .mesh => d.mesh

/-- The sections that are present, in stage order. -/
def sections (d : LayoutDocument) : List (ShaderStage × List DeclaredBinding) :=
  ShaderStage.all.filterMap fun stage => (d.section? stage).map fun bs => (stage, bs)

/-! ## Reading -/

/-- The values of a record's fields, in the order of `names`: of an object whose keys are among
them and differ, or of an array that is not longer. A missing field is `none`. -/
def fields? (names : List String) : Value → Option (List (Option Value))
  | .object members =>
    let keys := members.map (·.1)
    if keys.Nodup ∧ ∀ k ∈ keys, k ∈ names then some (names.map fun n => members.lookup n)
    else none
  | .array items =>
    if items.length ≤ names.length then
      some (items.map some ++ List.replicate (names.length - items.length) none)
    else none
  | _ => none

/-- A field that must be present. -/
def required? {α : Type} (read : Value → Option α) (field : Option Value) : Option α :=
  field.bind read

/-- A field that may be left out. -/
def defaulted? {α : Type} (default : α) (read : Value → Option α) : Option Value → Option α
  | none => some default
  | some v => read v

def number? : Value → Option Nat
  | .number n => if n < Text.bound32 then some n else none
  | _ => none

def bool? : Value → Option Bool
  | .bool b => some b
  | _ => none

def string? : Value → Option String
  | .string s => some s
  | _ => none

/-- A value that may be null. -/
def nullable? {α : Type} (read : Value → Option α) : Value → Option (Option α)
  | .null => some none
  | v => (read v).map some

def list? {α : Type} (read : Value → Option α) : Value → Option (List α)
  | .array items => items.mapM read
  | _ => none

/-- One of several words, written as a string or as the key of an object with the value null. -/
def word? {α : Type} (words : List (String × α)) : Value → Option α
  | .string s => words.lookup s
  | .object [(s, .null)] => words.lookup s
  | _ => none

def resourceClass? : Value → Option ResourceClass :=
  word? [("buffer", .buffer), ("image", .image), ("sampler", .sampler), ("bindless", .bindless)]

def updateRate? : Value → Option UpdateRate :=
  word? [("frame", .frame), ("pass", .pass), ("batch", .batch), ("draw", .draw)]

def element? (v : Value) : Option DeclaredElement := do
  match ← fields? ["type", "count"] v with
  | [type, count] =>
    some { type := ← required? string? type, count := ← defaulted? 1 number? count }
  | _ => none

def binding? (v : Value) : Option DeclaredBinding := do
  match ← fields? ["slot", "resource", "name", "usage", "rate", "count", "elements", "type",
    "format", "immutable"] v with
  | [slot, resource, name, usage, rate, count, elements, dimension, format, immutable] =>
    some {
      slot := ← required? number? slot
      resource := ← required? resourceClass? resource
      name := ← defaulted? none (nullable? string?) name
      usage := ← defaulted? none (nullable? string?) usage
      rate := ← defaulted? .frame updateRate? rate
      count := ← defaulted? 1 number? count
      elements := ← defaulted? [] (list? element?) elements
      dimension := ← defaulted? none (nullable? string?) dimension
      format := ← defaulted? none (nullable? string?) format
      immutable := ← defaulted? false bool? immutable }
  | _ => none

/-- The bindings of a stage's section. -/
def sectionBindings? (v : Value) : Option (List DeclaredBinding) := do
  match ← fields? ["bindings"] v with
  | [bindings] => defaulted? [] (list? binding?) bindings
  | _ => none

def ofValue? (v : Value) : Option LayoutDocument := do
  let stage := defaulted? none (nullable? sectionBindings?)
  match ← fields? ["bindings", "vertex", "fragment", "compute", "task", "mesh"] v with
  | [bindings, vertex, fragment, compute, task, mesh] =>
    some {
      bindings := ← defaulted? [] (list? binding?) bindings
      vertex := ← stage vertex
      fragment := ← stage fragment
      compute := ← stage compute
      task := ← stage task
      mesh := ← stage mesh }
  | _ => none

/-- The document that a text writes. -/
def parse? (text : String) : Option LayoutDocument := (Json.parse? text).bind ofValue?

end LayoutDocument

end FrameGraph
