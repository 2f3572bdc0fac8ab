import FrameGraph.Json.Token

/-!
# JSON values

`Json.parse?` builds the value that a text writes. It is strict: one value, no comments, no
trailing commas. An object keeps all its members in order, repeated keys included, so that readers
can refuse them.
-/

set_option autoImplicit false

namespace FrameGraph.Json

inductive Value
  | null
  | bool (b : Bool)
  | number (n : Nat)
  | string (s : String)
  | array (items : List Value)
  | object (members : List (String × Value))

/-- A container that is not closed yet, its contents in reverse. -/
inductive Frame
  | array (items : List Value)
  | object (members : List (String × Value)) (key : String)

/-- What may come next. -/
inductive Expect
  | value
  /-- A value or the end of an array just opened. -/
  | valueOrClose
  /-- A key or the end of an object just opened. -/
  | keyOrClose
  /-- A key; the object's members so far are given. -/
  | key (members : List (String × Value))
  | colon (members : List (String × Value)) (key : String)
  /-- A comma or the end of the innermost container. -/
  | commaOrClose
  | done (v : Value)

structure Parsing where
  stack : List Frame
  expect : Expect

/-- Goes on behind a complete value. -/
def complete (v : Value) : List Frame → Parsing
  | [] => ⟨[], .done v⟩
  | .array items :: rest => ⟨.array (v :: items) :: rest, .commaOrClose⟩
  | .object members key :: rest => ⟨.object ((key, v) :: members) key :: rest, .commaOrClose⟩

/-- Reads the first token of a value. -/
def beginValue? (stack : List Frame) : Token → Option Parsing
  | .null => some (complete .null stack)
  | .bool b => some (complete (.bool b) stack)
  | .number n => some (complete (.number n) stack)
  | .string s => some (complete (.string (String.ofList s)) stack)
  | .openArray => some ⟨.array [] :: stack, .valueOrClose⟩
  | .openObject => some ⟨stack, .keyOrClose⟩
  | _ => none

/-- Reads one token. -/
def Parsing.read? (p : Parsing) (t : Token) : Option Parsing :=
  match p.expect with
  | .value => beginValue? p.stack t
  | .valueOrClose =>
    match t, p.stack with
    | .closeArray, .array items :: rest => some (complete (.array items.reverse) rest)
    | t, stack => beginValue? stack t
  | .keyOrClose =>
    match t with
    | .closeObject => some (complete (.object []) p.stack)
    | .string k => some ⟨p.stack, .colon [] (String.ofList k)⟩
    | _ => none
  | .key members =>
    match t with
    | .string k => some ⟨p.stack, .colon members (String.ofList k)⟩
    | _ => none
  | .colon members k => if t = .colon then some ⟨.object members k :: p.stack, .value⟩ else none
  | .commaOrClose =>
    match t, p.stack with
    | .comma, .array items :: rest => some ⟨.array items :: rest, .value⟩
    | .comma, .object members _ :: rest => some ⟨rest, .key members⟩
    | .closeArray, .array items :: rest => some (complete (.array items.reverse) rest)
    | .closeObject, .object members _ :: rest => some (complete (.object members.reverse) rest)
    | _, _ => none
  | .done _ => none

/-- The value that the tokens write. -/
def ofTokens? (ts : List Token) : Option Value := do
  match (← ts.foldlM Parsing.read? ⟨[], .value⟩).expect with
  | .done v => some v
  | _ => none

def parse? (text : String) : Option Value := (tokens? text.toList).bind ofTokens?

end FrameGraph.Json
