import FrameGraph.Text.Numeral
import FrameGraph.Text.Split

/-!
# Buffer member types

The scalar, vector and matrix types that a buffer binding lists as its members, read from their
names in shader source.
-/

set_option autoImplicit false

namespace FrameGraph

inductive ScalarType
  | float | double | int | uint | bool
  deriving DecidableEq

namespace ScalarType

/-- Size in bytes. -/
def size : ScalarType → Nat
  | double => 8
  | _ => 4

def name : ScalarType → String
  | float => "Float"
  | double => "Double"
  | int => "Int"
  | uint => "Uint"
  | bool => "Bool"

end ScalarType

inductive ElementType
  | scalar (s : ScalarType)
  | vector (s : ScalarType) (n : Nat)
  | matrix (s : ScalarType) (columns rows : Nat)
  deriving DecidableEq

namespace ElementType

/-- Size in bytes, without padding. -/
def size : ElementType → Nat
  | scalar s => s.size
  | vector s n => s.size * n
  | matrix s columns rows => s.size * columns * rows

/-- The scalar types by name. -/
def scalars : List (List Char × ScalarType) :=
  [(['f', 'l', 'o', 'a', 't'], .float), (['d', 'o', 'u', 'b', 'l', 'e'], .double),
   (['i', 'n', 't'], .int), (['u', 'i', 'n', 't'], .uint), (['b', 'o', 'o', 'l'], .bool)]

/-- The scalar type that the first letter stands for, and the text behind the letter. -/
def component (name : List Char) : ScalarType × List Char :=
  match name with
  | 'd' :: rest => (.double, rest)
  | 'i' :: rest => (.int, rest)
  | 'u' :: rest => (.uint, rest)
  | 'b' :: rest => (.bool, rest)
  | _ => (.float, name)

/-- A dimension: a numeral from two to four. -/
def dimension? (cs : List Char) : Option Nat :=
  (Text.numeral? Text.bound8 cs).filter fun n => 2 ≤ n && n ≤ 4

/-- Columns and rows: two dimensions around an `x`, or one for both. -/
def shape? (cs : List Char) : Option (Nat × Nat) :=
  match Text.splitOnce? 'x' cs with
  | some (columns, rows) =>
    (dimension? columns).bind fun c => (dimension? rows).map fun r => (c, r)
  | none => (dimension? cs).map fun n => (n, n)

def vector? (name : List Char) : Option ElementType :=
  let (s, rest) := component name
  ((Text.stripHead? ['v', 'e', 'c'] rest).bind dimension?).map (vector s)

def matrix? (name : List Char) : Option ElementType :=
  let (s, rest) := component name
  if s = .float ∨ s = .double then
    ((Text.stripHead? ['m', 'a', 't'] rest).bind shape?).map fun (c, r) => matrix s c r
  else none

/-- The type of that name. -/
def parse? (name : String) : Option ElementType :=
  let cs := name.toList
  match scalars.lookup cs with
  | some s => some (scalar s)
  | none => vector? cs <|> matrix? cs

end ElementType

end FrameGraph
