import FrameGraph.Text.Numeral

/-!
# JSON tokens

`Json.tokens?` cuts a text into tokens, one character at a time. The only numbers are unsigned
integers: no document that the library reads has a place for any other.
-/

set_option autoImplicit false

namespace FrameGraph.Json

inductive Token
  | openObject | closeObject | openArray | closeArray | colon | comma
  | null
  | bool (b : Bool)
  | number (n : Nat)
  | string (s : List Char)
  deriving DecidableEq

/-- What the lexer is inside of. Characters read so far are kept in reverse. -/
inductive Lexing
  | between
  | word (read : List Char)
  | string (read : List Char)
  /-- Behind a backslash. -/
  | escape (read : List Char)
  /-- Inside an escape by number: `digits` hexadecimal digits are still to come, `unit` is their
  value so far, and `high` is the first half of a pair of which this is the second. -/
  | unicode (read : List Char) (high : Option Nat) (digits unit : Nat)
  /-- Behind the first half of a pair, before the backslash of the second. -/
  | pairBackslash (read : List Char) (high : Nat)
  /-- Behind the backslash of the second half. -/
  | pairLetter (read : List Char) (high : Nat)

def isSpace (c : Char) : Bool := c == ' ' || c == '\t' || c == '\n' || c == '\r'

def punctuation? : Char → Option Token
  | '\x7b' => some .openObject
  | '\x7d' => some .closeObject
  | '[' => some .openArray
  | ']' => some .closeArray
  | ':' => some .colon
  | ',' => some .comma
  | _ => none

/-- An unsigned integer without a leading zero. -/
def number? (word : List Char) : Option Nat :=
  match word with
  | [] => none
  | ['0'] => some 0
  | '0' :: _ => none
  | word => Text.digitsFrom? 0 word

/-- The token that a run of letters and digits spells. -/
def wordToken? (word : List Char) : Option Token :=
  if word = ['n', 'u', 'l', 'l'] then some .null
  else if word = ['t', 'r', 'u', 'e'] then some (.bool true)
  else if word = ['f', 'a', 'l', 's', 'e'] then some (.bool false)
  else (number? word).map .number

def simpleEscape? : Char → Option Char
  | '"' => some '"'
  | '\\' => some '\\'
  | '/' => some '/'
  | 'b' => some '\x08'
  | 'f' => some '\x0c'
  | 'n' => some '\n'
  | 'r' => some '\r'
  | 't' => some '\t'
  | _ => none

/-- Goes on behind the last digit of an escape by number. -/
def endUnit? (read : List Char) (high : Option Nat) (unit : Nat) : Option Lexing :=
  match high with
  | some h =>
    if 0xDC00 ≤ unit ∧ unit < 0xE000 then
      some (.string (Char.ofNat (0x10000 + (h - 0xD800) * 0x400 + (unit - 0xDC00)) :: read))
    else none
  | none =>
    if 0xD800 ≤ unit ∧ unit < 0xDC00 then some (.pairBackslash read unit)
    else if 0xDC00 ≤ unit ∧ unit < 0xE000 then none
    else some (.string (Char.ofNat unit :: read))

/-- Reads a character that stands between tokens. -/
def start? (c : Char) : Option (Lexing × List Token) :=
  if isSpace c then some (.between, [])
  else
    match punctuation? c with
    | some t => some (.between, [t])
    | none => if c = '"' then some (.string [], []) else some (.word [c], [])

/-- Reads one character: the state behind it and the tokens that it completes. -/
def step? : Lexing → Char → Option (Lexing × List Token)
  | .between, c => start? c
  | .word read, c =>
    if isSpace c ∨ (punctuation? c).isSome ∨ c = '"' then do
      let t ← wordToken? read.reverse
      let (state, ts) ← start? c
      some (state, t :: ts)
    else some (.word (c :: read), [])
  | .string read, c =>
    if c = '"' then some (.between, [.string read.reverse])
    else if c = '\\' then some (.escape read, [])
    else if c.toNat < 0x20 then none
    else some (.string (c :: read), [])
  | .escape read, c =>
    if c = 'u' then some (.unicode read none 4 0, [])
    else (simpleEscape? c).map fun e => (.string (e :: read), [])
  | .unicode read high digits unit, c => do
    let d ← Text.hexDigitValue? c
    let unit := unit * 16 + d
    if digits ≤ 1 then
      let state ← endUnit? read high unit
      some (state, [])
    else some (.unicode read high (digits - 1) unit, [])
  | .pairBackslash read high, c => if c = '\\' then some (.pairLetter read high, []) else none
  | .pairLetter read high, c => if c = 'u' then some (.unicode read (some high) 4 0, []) else none

/-- The tokens of a text that is read from `state`. -/
def tokensFrom? (state : Lexing) : List Char → Option (List Token)
  | [] =>
    match state with
    | .between => some []
    | .word read => (wordToken? read.reverse).map ([·])
    | _ => none
  | c :: rest => do
    let (state, ts) ← step? state c
    let more ← tokensFrom? state rest
    some (ts ++ more)

def tokens? (text : List Char) : Option (List Token) := tokensFrom? .between text

end FrameGraph.Json
