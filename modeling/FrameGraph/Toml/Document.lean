import FrameGraph.Text.Split
import FrameGraph.Toml.Token

/-!
# Flat TOML documents

A flat document is a list of lines `key = value` with distinct keys. Values are texts, whole numbers
and truth values. Tables, arrays, fractions and dates are left out: `Toml.parse?` refuses a document
that holds any.
-/

set_option autoImplicit false

namespace FrameGraph.Toml

inductive Value
  | text (s : String)
  | integer (n : Int)
  | boolean (b : Bool)
  deriving DecidableEq

def isKeyChar (c : Char) : Bool := isWordChar c && c != '+'

def key? : Token → Option String
  | .word w => if w.all isKeyChar then some (String.ofList w) else none
  | .text false s => some (String.ofList s)
  | _ => none

/-- The number written by digits in a base. An underscore may stand between two digits. -/
def digits? (base : Nat) (cs : List Char) : Option Nat :=
  let groups := Text.split (· == '_') cs
  if groups.any (·.isEmpty) then none
  else groups.flatten.foldlM (fun n c =>
    ((Text.hexDigitValue? c).filter (· < base)).map (n * base + ·)) 0

/-- The number written in base ten, without a leading zero. -/
def decimal? : List Char → Option Nat
  | ['0'] => some 0
  | '0' :: _ => none
  | cs => digits? 10 cs

/-- The number that a word writes: signed in base ten, or unsigned in another base. -/
def integer? : List Char → Option Int
  | '0' :: 'x' :: cs => (digits? 16 cs).map Int.ofNat
  | '0' :: 'o' :: cs => (digits? 8 cs).map Int.ofNat
  | '0' :: 'b' :: cs => (digits? 2 cs).map Int.ofNat
  | '+' :: cs => (decimal? cs).map Int.ofNat
  | '-' :: cs => (decimal? cs).map fun n => -Int.ofNat n
  | cs => (decimal? cs).map Int.ofNat

def value? : Token → Option Value
  | .word w =>
    if w = ['t', 'r', 'u', 'e'] then some (.boolean true)
    else if w = ['f', 'a', 'l', 's', 'e'] then some (.boolean false)
    else (integer? w).map .integer
  | .text _ s => some (.text (String.ofList s))
  | _ => none

/-- The entries of the lines that the tokens make up. -/
def entries? : List Token → Option (List (String × Value))
  | [] => some []
  | .newline :: rest => entries? rest
  | k :: .equals :: v :: [] => do return [(← key? k, ← value? v)]
  | k :: .equals :: v :: .newline :: rest => do return (← key? k, ← value? v) :: (← entries? rest)
  | _ => none

/-- The entries of a flat document. A byte order mark before it does not count. -/
def parse? (text : String) : Option (List (String × Value)) := do
  let body := match text.toList with
    | '\uFEFF' :: rest => rest
    | cs => cs
  (entries? (← tokens? body)).filter fun es => decide (es.map (·.1)).Nodup

end FrameGraph.Toml
