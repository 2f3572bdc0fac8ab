/-!
# Text from bytes

`decodeLossy` reads bytes as UTF-8 and puts a replacement character for each longest run of bytes
that begins a sequence and cannot go on; `decode?` refuses such bytes.
-/

set_option autoImplicit false

namespace FrameGraph.Text

/-- The ranges that the bytes after `first` must lie in, and the bits that `first` contributes. -/
def sequence? (first : UInt8) : Option (Nat × List (Nat × Nat)) :=
  let b := first.toNat
  let tail := (0x80, 0xBF)
  if b < 0x80 then some (b, [])
  else if b < 0xC2 then none
  else if b < 0xE0 then some (b - 0xC0, [tail])
  else if b = 0xE0 then some (0, [(0xA0, 0xBF), tail])
  else if b = 0xED then some (0xD, [(0x80, 0x9F), tail])
  else if b < 0xF0 then some (b - 0xE0, [tail, tail])
  else if b = 0xF0 then some (0, [(0x90, 0xBF), tail, tail])
  else if b < 0xF4 then some (b - 0xF0, [tail, tail, tail])
  else if b = 0xF4 then some (4, [(0x80, 0x8F), tail, tail])
  else none

/-- A partly read sequence: the bits so far and the ranges of the bytes still to come. -/
structure Partial where
  bits : Nat
  expected : List (Nat × Nat)

/-- One step of reading: the state before a byte and the characters it completes. `none` is the
state between characters, and an item `none` of the output stands for bytes that are not text. -/
def decodeStep : Option Partial → UInt8 → List (Option Char) × Option Partial
  | some p, byte =>
    match p.expected with
    | [] => begin [] byte
    | (lo, hi) :: more =>
      if lo ≤ byte.toNat ∧ byte.toNat ≤ hi then
        let bits := p.bits * 64 + (byte.toNat - 0x80)
        if more = [] then ([some (Char.ofNat bits)], none) else ([], some ⟨bits, more⟩)
      else begin [none] byte
  | none, byte => begin [] byte
where
  begin (out : List (Option Char)) (byte : UInt8) : List (Option Char) × Option Partial :=
    match sequence? byte with
    | none => (out ++ [none], none)
    | some (bits, []) => (out ++ [some (Char.ofNat bits)], none)
    | some (bits, expected) => (out, some ⟨bits, expected⟩)

/-- The characters of `bytes`, with `none` for every run of bytes that is not text. -/
def decodeFrom (state : Option Partial) : List UInt8 → List (Option Char)
  | [] => if state.isSome then [none] else []
  | byte :: bytes =>
    let (out, state) := decodeStep state byte
    out ++ decodeFrom state bytes

def decodeLossy (bytes : List UInt8) : String :=
  String.ofList ((decodeFrom none bytes).map fun c => c.getD '\uFFFD')

/-- The text of `bytes`, if all of it is text. -/
def decode? (bytes : List UInt8) : Option String :=
  ((decodeFrom none bytes).mapM id).map String.ofList

end FrameGraph.Text
