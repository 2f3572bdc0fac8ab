/-!
# Numerals

Unsigned decimal numerals as they stand in source text: an optional plus sign, then digits only,
leading zeros allowed.
-/

set_option autoImplicit false

namespace FrameGraph.Text

/-- The value of a decimal digit. -/
def digitValue? (c : Char) : Option Nat :=
  if '0' ≤ c ∧ c ≤ '9' then some (c.toNat - '0'.toNat) else none

/-- The value of a hexadecimal digit of either case. -/
def hexDigitValue? (c : Char) : Option Nat :=
  if '0' ≤ c ∧ c ≤ '9' then some (c.toNat - '0'.toNat)
  else if 'a' ≤ c ∧ c ≤ 'f' then some (c.toNat - 'a'.toNat + 10)
  else if 'A' ≤ c ∧ c ≤ 'F' then some (c.toNat - 'A'.toNat + 10)
  else none

/-- The number that follows `acc` when the digits `cs` are written behind it. -/
def digitsFrom? (acc : Nat) : List Char → Option Nat
  | [] => some acc
  | c :: cs => (digitValue? c).bind fun d => digitsFrom? (acc * 10 + d) cs

/-- The number written by a nonempty run of digits. -/
def digits? (cs : List Char) : Option Nat :=
  if cs = [] then none else digitsFrom? 0 cs

/-- The number below `bound` that a numeral writes. -/
def numeral? (bound : Nat) (cs : List Char) : Option Nat :=
  let digits := match cs with
    | '+' :: rest => rest
    | _ => cs
  (digits? digits).filter (· < bound)

/-- The numbers that fit 32 bits are below this. -/
def bound32 : Nat := 0x100000000

/-- The numbers that fit one byte are below this. -/
def bound8 : Nat := 0x100

end FrameGraph.Text
