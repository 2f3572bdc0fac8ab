import FrameGraph.Text.Blank
import FrameGraph.Text.Numeral
import FrameGraph.Text.Split
import FrameGraph.Shader.SlotTable
import FrameGraph.Trace

/-!
# Binding names in shader source

A shader source declares a binding as `layout(binding = N) … name …;`. `scan` finds the
declarations of descriptor set 0 and gives each slot the name of its first declaration. The name is
the last identifier before the block or the semicolon, array bounds left out.

The scan has three steps, each a function of its own: `stripComments` removes comments,
`declarations` cuts out the layout declarations, `bindings` reads slots and names off them.
-/

set_option autoImplicit false

namespace FrameGraph.SourceScan

open FrameGraph.Text

/-! ## Comments -/

/-- Where in a source text a character stands. -/
inductive Region
  | code | lineComment | blockComment

/-- The text without comments, read from within `region`. A line comment leaves its line end, a
block comment leaves a space; a comment that is not closed reaches to the end. -/
def stripFrom : Region → List Char → List Char
  | .code, '/' :: '/' :: rest => stripFrom .lineComment rest
  | .code, '/' :: '*' :: rest => stripFrom .blockComment rest
  | .code, c :: rest => c :: stripFrom .code rest
  | .code, [] => []
  | .lineComment, '\n' :: rest => '\n' :: stripFrom .code rest
  | .lineComment, _ :: rest => stripFrom .lineComment rest
  | .lineComment, [] => []
  | .blockComment, '*' :: '/' :: rest => ' ' :: stripFrom .code rest
  | .blockComment, _ :: rest => stripFrom .blockComment rest
  | .blockComment, [] => [' ']

def stripComments (source : List Char) : List Char := stripFrom .code source

/-! ## Declarations -/

/-- Whether `c` may stand in an identifier. -/
def isIdentChar (c : Char) : Bool := c.isAlphanum || c == '_'

/-- A layout declaration: the text between its parentheses, and the text from there to the
block, the semicolon or the end. -/
structure Declaration where
  qualifiers : List Char
  declared : List Char

/-- What begins at one place of a text. -/
inductive Occurrence
  | nothing
  /-- The parenthesis is never closed. -/
  | unclosed
  /-- A declaration whose part up to the closing parenthesis is `width` characters long. -/
  | declaration (d : Declaration) (width : Nat)

/-- The word that introduces a declaration. -/
def keyword : List Char := ['l', 'a', 'y', 'o', 'u', 't']

/-- What begins at the head of `text` when `before` stands in front of it: the keyword counts where
it is no tail of a longer identifier and an opening parenthesis follows. -/
def occurrenceAt (before : Option Char) (text : List Char) : Occurrence :=
  if before.any isIdentChar then .nothing
  else
    match stripHead? keyword text with
    | none => .nothing
    | some rest =>
      match rest.dropWhile isBlank with
      | '(' :: inside =>
        match splitOnce? ')' inside with
        | none => .unclosed
        | some (qualifiers, after) =>
          .declaration ⟨qualifiers, after.takeWhile fun c => c != '\x7b' && c != ';'⟩
            (text.length - after.length)
      | _ => .nothing

/-- The declarations of a text behind its first `skip` characters. `before` is the character in
front of the text. The search goes on behind the closing parenthesis of each. -/
def declarationsFrom : Option Char → Nat → List Char → List Declaration
  | _, _, [] => []
  | _, skip + 1, c :: rest => declarationsFrom (some c) skip rest
  | before, 0, c :: rest =>
    match occurrenceAt before (c :: rest) with
    | .nothing => declarationsFrom (some c) 0 rest
    | .unclosed => []
    | .declaration d width => d :: declarationsFrom (some c) (width - 1) rest

def declarations (text : List Char) : List Declaration := declarationsFrom none 0 text

/-! ## Slots and names -/

/-- The numbers that a qualifier list gives, as far as it gives them. -/
structure Qualifiers where
  binding : Option Nat := none
  set : Option Nat := none

/-- Reads one qualifier. A later one of the same key replaces an earlier one. -/
def Qualifiers.read (q : Qualifiers) (item : List Char) : Qualifiers :=
  match splitOnce? '=' item with
  | none => q
  | some (key, value) =>
    let number := numeral? bound32 (trim value)
    if trim key = ['b', 'i', 'n', 'd', 'i', 'n', 'g'] then { q with binding := number }
    else if trim key = ['s', 'e', 't'] then { q with set := number }
    else q

def Qualifiers.ofText (text : List Char) : Qualifiers :=
  (split (· == ',') text).foldl Qualifiers.read {}

/-- The text outside brackets, where `depth` brackets are open. -/
def outsideBrackets : Nat → List Char → List Char
  | _, [] => []
  | depth, '[' :: rest => outsideBrackets (depth + 1) rest
  | depth, ']' :: rest => outsideBrackets (depth - 1) rest
  | 0, c :: rest => c :: outsideBrackets 0 rest
  | depth + 1, _ :: rest => outsideBrackets (depth + 1) rest

/-- The declared name: the last identifier outside brackets. -/
def declaredName? (declared : List Char) : Option String :=
  (((split (fun c => !isIdentChar c) (outsideBrackets 0 declared)).filter
    (! ·.isEmpty)).getLast?).map String.ofList

/-- The slot of a declaration of set 0. -/
def Declaration.slot? (d : Declaration) : Option Nat :=
  let q := Qualifiers.ofText d.qualifiers
  if q.set.getD 0 = 0 then q.binding else none

/-- Adds a declaration to the table. The first name of a slot stays. -/
def addDeclaration (table : SlotTable String) (d : Declaration) : Traced (SlotTable String) :=
  match d.slot? with
  | none => pure table
  | some slot =>
    match declaredName? d.declared with
    | none => do
      Traced.report (.warn s!"binding = {slot} 的声明缺少名字，忽略")
      pure table
    | some name =>
      match table.find? slot with
      | none => pure (table.insert slot name)
      | some existing => do
        if existing ≠ name then
          Traced.report (.warn s!"binding = {slot} 重复声明: {existing} 与 {name}，保留前者")
        pure table

def bindings (ds : List Declaration) : Traced (SlotTable String) := ds.foldlM addDeclaration .empty

/-- The names of the set 0 bindings of a source text, by slot. -/
def scan (source : String) : Traced (SlotTable String) :=
  bindings (declarations (stripComments source.toList))

end FrameGraph.SourceScan
