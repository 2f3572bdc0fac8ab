/-!
# Splitting text

Texts are cut at characters, as lists of characters.
-/

set_option autoImplicit false

namespace FrameGraph.Text

/-- The pieces between the characters that satisfy `cut`; a text without any is one piece. -/
def split (cut : Char → Bool) : List Char → List (List Char)
  | [] => [[]]
  | c :: cs =>
    if cut c then [] :: split cut cs
    else
      match split cut cs with
      | piece :: rest => (c :: piece) :: rest
      | [] => [[c]]

/-- What stands before and after the first `c`. -/
def splitOnce? (c : Char) (cs : List Char) : Option (List Char × List Char) :=
  match cs.dropWhile (· != c) with
  | [] => none
  | _ :: rest => some (cs.takeWhile (· != c), rest)

/-- What stands before and after the last `c`. -/
def splitLast? (c : Char) (cs : List Char) : Option (List Char × List Char) :=
  (splitOnce? c cs.reverse).map fun (after, before) => (before.reverse, after.reverse)

/-- What follows `head` in a text that begins with it. -/
def stripHead? (head cs : List Char) : Option (List Char) :=
  if head.isPrefixOf cs then some (cs.drop head.length) else none

end FrameGraph.Text
