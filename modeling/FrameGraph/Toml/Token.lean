import FrameGraph.Text.Numeral

/-!
# TOML tokens

`Toml.tokens?` cuts a text into tokens, one character at a time. It knows what the lines of a flat
document are made of: bare words, quoted texts in their four forms, equals signs, comments and line
ends. A text that holds anything else has no tokens.
-/

set_option autoImplicit false

namespace FrameGraph.Toml

inductive Token
  | newline
  | equals
  | word (w : List Char)
  /-- A quoted text; a block is one that may span lines. -/
  | text (block : Bool) (s : List Char)
  deriving DecidableEq

/-- How a text is quoted. -/
structure Quotes where
  /-- In double quotes, where a backslash escapes; else in single quotes, where nothing does. -/
  escapes : Bool
  /-- In three quotes at either end. -/
  block : Bool

/-- What the lexer is inside of. Characters read so far are kept in reverse. -/
inductive Lexing
  | between
  | word (read : List Char)
  | comment
  /-- Behind the first quote of a text. -/
  | opened (escapes : Bool)
  /-- Behind two quotes: an empty text, or two thirds of the start of a block. -/
  | openedTwice (escapes : Bool)
  /-- Behind the start of a block, where a line end does not count. -/
  | blockStart (escapes : Bool)
  /-- In a text; `run` quotes of a block were read last. -/
  | text (q : Quotes) (read : List Char) (run : Nat)
  /-- Behind a backslash. -/
  | escape (block : Bool) (read : List Char)
  /-- Inside an escape by number: `digits` hexadecimal digits are still to come behind `value`. -/
  | unicode (block : Bool) (read : List Char) (digits value : Nat)
  /-- Behind a backslash at the end of a line, which joins the line to the next word; `ended` tells
  whether the line end was read. -/
  | joined (read : List Char) (ended : Bool)

def isBlank (c : Char) : Bool := c == ' ' || c == '\t'

/-- Whether a comment or text may hold `c`: no control character but the tab. -/
def isPrintable (c : Char) : Bool := c == '\t' || (0x20 ≤ c.toNat && c.toNat != 0x7F)

def isWordChar (c : Char) : Bool := c.isAlphanum || c == '_' || c == '-' || c == '+'

def quoteChar (escapes : Bool) : Char := if escapes then '"' else '\''

def simpleEscape? : Char → Option Char
  | 'b' => some '\x08'
  | 't' => some '\t'
  | 'n' => some '\n'
  | 'f' => some '\x0c'
  | 'r' => some '\r'
  | '"' => some '"'
  | '\\' => some '\\'
  | _ => none

/-- Reads a character that stands between tokens. -/
def start? (c : Char) : Option (Lexing × List Token) :=
  if isBlank c then some (.between, [])
  else if c = '\n' then some (.between, [.newline])
  else if c = '=' then some (.between, [.equals])
  else if c = '#' then some (.comment, [])
  else if c = '"' then some (.opened true, [])
  else if c = '\'' then some (.opened false, [])
  else if isWordChar c then some (.word [c], [])
  else none

/-- Completes a token at the character behind it. -/
def finish? (t : Token) (c : Char) : Option (Lexing × List Token) :=
  (start? c).map fun (state, ts) => (state, t :: ts)

/-- Reads a character of a text behind `run` quotes that belong to it. -/
def content? (q : Quotes) (read : List Char) (c : Char) : Option Lexing :=
  if q.escapes && c == '\\' then some (.escape q.block read)
  else if isPrintable c || (q.block && c == '\n') then some (.text q (c :: read) 0)
  else none

/-- Reads a character of a text. -/
def text? (q : Quotes) (read : List Char) (run : Nat) (c : Char) : Option (Lexing × List Token) :=
  let quote := quoteChar q.escapes
  if !q.block then
    if c = quote then some (.between, [.text false read.reverse])
    else (content? q read c).map (·, [])
  else if c = quote then if run < 5 then some (.text q read (run + 1), []) else none
  else if run < 3 then (content? q (List.replicate run quote ++ read) c).map (·, [])
  else finish? (.text true (List.replicate (run - 3) quote ++ read).reverse) c

/-- Reads one character: the state behind it and the tokens that it completes. -/
def step? : Lexing → Char → Option (Lexing × List Token)
  | .between, c => start? c
  | .word read, c =>
    if isWordChar c then some (.word (c :: read), []) else finish? (.word read.reverse) c
  | .comment, c =>
    if c = '\n' then some (.between, [.newline])
    else if isPrintable c then some (.comment, [])
    else none
  | .opened escapes, c =>
    if c = quoteChar escapes then some (.openedTwice escapes, []) else text? ⟨escapes, false⟩ [] 0 c
  | .openedTwice escapes, c =>
    if c = quoteChar escapes then some (.blockStart escapes, []) else finish? (.text false []) c
  | .blockStart escapes, c =>
    if c = '\n' then some (.text ⟨escapes, true⟩ [] 0, []) else text? ⟨escapes, true⟩ [] 0 c
  | .text q read run, c => text? q read run c
  | .escape block read, c =>
    if c = 'u' then some (.unicode block read 4 0, [])
    else if c = 'U' then some (.unicode block read 8 0, [])
    else if block && isBlank c then some (.joined read false, [])
    else if block && c == '\n' then some (.joined read true, [])
    else (simpleEscape? c).map fun e => (.text ⟨true, block⟩ (e :: read) 0, [])
  | .unicode block read digits value, c => do
    let value := value * 16 + (← Text.hexDigitValue? c)
    if digits ≤ 1 then
      if value.isValidChar then some (.text ⟨true, block⟩ (Char.ofNat value :: read) 0, [])
      else none
    else some (.unicode block read (digits - 1) value, [])
  | .joined read ended, c =>
    if isBlank c then some (.joined read ended, [])
    else if c = '\n' then some (.joined read true, [])
    else if ended then text? ⟨true, true⟩ read 0 c
    else none

/-- The tokens that end with the text. -/
def atEnd? : Lexing → Option (List Token)
  | .between | .comment => some []
  | .word read => some [.word read.reverse]
  | .openedTwice _ => some [.text false []]
  | .text ⟨escapes, true⟩ read run =>
    if run < 3 then none
    else some [.text true (List.replicate (run - 3) (quoteChar escapes) ++ read).reverse]
  | _ => none

/-- The tokens of a text that is read from `state`. -/
def tokensFrom? (state : Lexing) : List Char → Option (List Token)
  | [] => atEnd? state
  | c :: rest => do
    let (state, ts) ← step? state c
    let more ← tokensFrom? state rest
    some (ts ++ more)

/-- The text with each line ended by the line feed alone. -/
def unifyLineEnds : List Char → List Char
  | '\r' :: '\n' :: rest => '\n' :: unifyLineEnds rest
  | c :: rest => c :: unifyLineEnds rest
  | [] => []

def tokens? (text : List Char) : Option (List Token) := tokensFrom? .between (unifyLineEnds text)

end FrameGraph.Toml
