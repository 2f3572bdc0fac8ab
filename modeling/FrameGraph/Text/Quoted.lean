import FrameGraph.Text.Printable

/-!
# Quoted text

A path or name inside a message stands in double quotes. `quote` escapes the quote, the backslash
and every character that does not show itself, so a message never spans lines because of a name in
it and two names that differ never look alike because of an unseen character.
-/

set_option autoImplicit false

namespace FrameGraph.Text

/-- The characters that stand for `c` between quotes. -/
def escape (c : Char) : List Char :=
  match c with
  | '"' => ['\\', '"']
  | '\\' => ['\\', '\\']
  | '\n' => ['\\', 'n']
  | '\r' => ['\\', 'r']
  | '\t' => ['\\', 't']
  | '\x00' => ['\\', '0']
  | c =>
    if isShown c then [c]
    else ['\\', 'u', '\x7b'] ++ Nat.toDigits 16 c.toNat ++ ['\x7d']

def quote (s : String) : String :=
  String.ofList ('"' :: s.toList.flatMap escape ++ ['"'])

end FrameGraph.Text
