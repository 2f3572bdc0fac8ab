import FrameGraph.Json.Token
import FrameGraph.Proofs.Words
import Mathlib.Data.List.Chain
import Mathlib.Data.List.Forall2

/-!
# Lexemes of JSON text

A JSON text is a row of lexemes with blanks around them: punctuation, strings with any of the
escapes that the grammar has for their characters, and words, which are the literals and numbers of
all forms. The lexer cuts such a row into the tokens of its lexemes (`tokens?_of_row`), and has no
token for a number that is not an unsigned integer.
-/

set_option autoImplicit false

namespace FrameGraph.Json

open FrameGraph.Text

/-! ## One step of the lexer -/

section
variable {state state' : Lexing} {c : Char} {t : Token}

theorem tokensFrom?_step (h : step? state c = some (state', [])) (rest : List Char) :
    tokensFrom? state (c :: rest) = tokensFrom? state' rest := by
  rw [tokensFrom?, h]
  cases htokens : tokensFrom? state' rest <;> simp [htokens]

theorem tokensFrom?_token (h : step? state c = some (state', [t])) (rest : List Char) :
    tokensFrom? state (c :: rest) = (tokensFrom? state' rest).map (t :: ·) := by
  rw [tokensFrom?, h]
  cases htokens : tokensFrom? state' rest <;> simp [htokens]

end

/-! ## Characters between quotes -/

/-- The letters of the short escapes, with the characters that they stand for. -/
def shortEscapes : List (Char × Char) :=
  [('"', '"'), ('\\', '\\'), ('/', '/'), ('b', '\x08'), ('f', '\x0c'), ('n', '\n'), ('r', '\r'),
    ('t', '\t')]

/-- Whether `c` is the hexadecimal digit of `n`, small or capital. -/
def IsHexDigit (n : Nat) (c : Char) : Prop :=
  n < 16 ∧ (c = n.digitChar ∨ c = n.digitChar.toUpper)

/-- Whether `cs` are the four hexadecimal digits of `unit`. -/
def IsUnit (unit : Nat) (cs : List Char) : Prop :=
  List.Forall₂ IsHexDigit [unit / 4096, unit / 256 % 16, unit / 16 % 16, unit % 16] cs

/-- The spellings of a character between quotes: itself unless it is a quote, a backslash or a
control character, a short escape, or an escape by number, of two halves from 0x10000 on. -/
inductive SpellsChar : Char → List Char → Prop
  | plain {c : Char} (hc : 0x20 ≤ c.toNat) (hquote : c ≠ '"') (hescape : c ≠ '\\') :
      SpellsChar c [c]
  | short {e c : Char} (h : (e, c) ∈ shortEscapes) : SpellsChar c ['\\', e]
  | unit {c : Char} {cs : List Char} (h : IsUnit c.toNat cs) : SpellsChar c ('\\' :: 'u' :: cs)
  | pair {c : Char} {high low : List Char} (hc : 0x10000 ≤ c.toNat)
      (hhigh : IsUnit (0xD800 + (c.toNat - 0x10000) / 0x400) high)
      (hlow : IsUnit (0xDC00 + (c.toNat - 0x10000) % 0x400) low) :
      SpellsChar c ('\\' :: 'u' :: (high ++ '\\' :: 'u' :: low))

/-- The character as it may stand between quotes, with an escape only where there must be one. -/
def plainChar (c : Char) : List Char :=
  if c = '"' ∨ c = '\\' then ['\\', c]
  else if c.toNat < 0x20 then
    ['\\', 'u', '0', '0', (c.toNat / 16).digitChar, (c.toNat % 16).digitChar]
  else [c]

theorem spellsChar_plainChar (c : Char) : SpellsChar c (plainChar c) := by
  unfold plainChar
  split
  · next h =>
    refine .short ?_
    rcases h with rfl | rfl <;> decide
  · next h =>
    rw [not_or] at h
    split
    · next hlt =>
      have hzero : IsHexDigit 0 '0' := ⟨by decide, .inl rfl⟩
      have hdigit {n : Nat} (hn : n < 16) : IsHexDigit n n.digitChar := ⟨hn, .inl rfl⟩
      have h3 : c.toNat / 4096 = 0 := by omega
      have h2 : c.toNat / 256 % 16 = 0 := by omega
      have h1 : c.toNat / 16 % 16 = c.toNat / 16 := by omega
      refine .unit ?_
      rw [IsUnit, h3, h2, h1]
      exact .cons hzero (.cons hzero (.cons (hdigit (by omega)) (.cons (hdigit (by omega)) .nil)))
    · next hle => exact .plain (by omega) h.1 h.2

/-- Whether `cs` is the string `s` in quotes. -/
def SpellsString (s cs : List Char) : Prop :=
  ∃ pieces, List.Forall₂ SpellsChar s pieces ∧ cs = '"' :: (pieces.flatten ++ ['"'])

section
variable {c : Char} {n unit : Nat} {cs s : List Char} {read : List Char}

theorem hexDigitValue?_of_isHexDigit (h : IsHexDigit n c) : hexDigitValue? c = some n := by
  have hvalue : ∀ n < 16, hexDigitValue? n.digitChar = some n ∧
      hexDigitValue? n.digitChar.toUpper = some n := by decide
  obtain ⟨hn, rfl | rfl⟩ := h
  · exact (hvalue n hn).1
  · exact (hvalue n hn).2

/-- **Four digits are read as the number that they write.** -/
theorem tokensFrom?_unit (h : IsUnit unit cs) (read : List Char) (high : Option Nat)
    {state : Lexing} (hstate : endUnit? read high unit = some state) (rest : List Char) :
    tokensFrom? (.unicode read high 4 0) (cs ++ rest) = tokensFrom? state rest := by
  unfold IsUnit at h
  simp only [List.forall₂_cons_left_iff, List.forall₂_nil_left_iff] at h
  obtain ⟨c3, -, h3, ⟨c2, -, h2, ⟨c1, -, h1, ⟨c0, -, h0, rfl, rfl⟩, rfl⟩, rfl⟩, rfl⟩ := h
  have hmore {c : Char} {d k acc : Nat} (hc : IsHexDigit d c) :
      step? (.unicode read high (k + 2) acc) c =
        some (.unicode read high (k + 1) (acc * 16 + d), []) := by
    simp [step?, hexDigitValue?_of_isHexDigit hc]
  have hlast {acc : Nat} (hacc : acc * 16 + unit % 16 = unit) :
      step? (.unicode read high 1 acc) c0 = some (state, []) := by
    simp [step?, hexDigitValue?_of_isHexDigit h0, hacc, hstate]
  rw [List.cons_append, tokensFrom?_step (hmore h3), List.cons_append,
    tokensFrom?_step (hmore h2), List.cons_append, tokensFrom?_step (hmore h1),
    List.cons_append, tokensFrom?_step (hlast (by omega)), List.nil_append]

/-- **A spelling is read as its character.** -/
theorem tokensFrom?_char (h : SpellsChar c cs) (read rest : List Char) :
    tokensFrom? (.string read) (cs ++ rest) = tokensFrom? (.string (c :: read)) rest := by
  have hescape : step? (.string read) '\\' = some (.escape read, []) := rfl
  have hunicode : step? (.escape read) 'u' = some (.unicode read none 4 0, []) := rfl
  cases h with
  | plain hc hquote hback =>
    refine tokensFrom?_step ?_ rest
    rw [step?, if_neg hquote, if_neg hback, if_neg (by omega)]
  | short h =>
    have hsimple : ∀ p ∈ shortEscapes, p.1 ≠ 'u' ∧ simpleEscape? p.1 = some p.2 := by decide
    obtain ⟨hu, he⟩ := hsimple _ h
    refine (tokensFrom?_step hescape _).trans (tokensFrom?_step ?_ rest)
    rw [step?, if_neg hu, he]
    rfl
  | unit h =>
    refine (tokensFrom?_step hescape _).trans ((tokensFrom?_step hunicode _).trans
      (tokensFrom?_unit h read none ?_ rest))
    -- No character is a half of a pair.
    have hvalid : c.toNat < 0xD800 ∨ 0xDFFF < c.toNat ∧ c.toNat < 0x110000 := c.valid
    rw [endUnit?, if_neg (by omega), if_neg (by omega), Char.ofNat_toNat]
  | @pair c high low hc hhigh hlow =>
    have hvalid : c.toNat < 0xD800 ∨ 0xDFFF < c.toNat ∧ c.toNat < 0x110000 := c.valid
    have hfirst : endUnit? read none (0xD800 + (c.toNat - 0x10000) / 0x400) =
        some (.pairBackslash read (0xD800 + (c.toNat - 0x10000) / 0x400)) := by
      rw [endUnit?, if_pos (by omega)]
    have hsecond : endUnit? read (some (0xD800 + (c.toNat - 0x10000) / 0x400))
        (0xDC00 + (c.toNat - 0x10000) % 0x400) = some (.string (c :: read)) := by
      have hsum : 0x10000 + (0xD800 + (c.toNat - 0x10000) / 0x400 - 0xD800) * 0x400 +
          (0xDC00 + (c.toNat - 0x10000) % 0x400 - 0xDC00) = c.toNat := by omega
      simp only [endUnit?]
      rw [if_pos (by omega), hsum, Char.ofNat_toNat]
    have hback (k : Nat) : step? (.pairBackslash read k) '\\' = some (.pairLetter read k, []) := rfl
    have hletter (k : Nat) :
        step? (.pairLetter read k) 'u' = some (.unicode read (some k) 4 0, []) := rfl
    rw [List.cons_append, tokensFrom?_step hescape, List.cons_append, tokensFrom?_step hunicode,
      List.append_assoc, tokensFrom?_unit hhigh read none hfirst, List.cons_append,
      tokensFrom?_step (hback _), List.cons_append, tokensFrom?_step (hletter _),
      tokensFrom?_unit hlow read _ hsecond]

/-- **A string in quotes is read as one token.** -/
theorem tokensFrom?_string (h : SpellsString s cs) (rest : List Char) :
    tokensFrom? .between (cs ++ rest) = (tokensFrom? .between rest).map (.string s :: ·) := by
  obtain ⟨pieces, hpieces, rfl⟩ := h
  have hopen : step? .between '"' = some (.string [], []) := rfl
  have hinside (read : List Char) : tokensFrom? (.string read) (pieces.flatten ++ '"' :: rest) =
      (tokensFrom? .between rest).map (.string (read.reverse ++ s) :: ·) := by
    induction hpieces generalizing read with
    | nil => exact tokensFrom?_token (by simp [step?]) rest
    | cons hc _ ih =>
      rw [List.flatten_cons, List.append_assoc, tokensFrom?_char hc, ih]
      simp
  rw [List.cons_append, tokensFrom?_step hopen, List.append_assoc]
  exact hinside []

end

/-! ## Numbers -/

/-- Whether `cs` is the fraction of a number, or nothing. -/
def IsFraction (cs : List Char) : Prop :=
  cs = [] ∨ ∃ ds, ds ≠ [] ∧ (∀ d ∈ ds, d.isDigit = true) ∧ cs = '.' :: ds

/-- Whether `cs` is the exponent of a number, or nothing. -/
def IsExponent (cs : List Char) : Prop :=
  cs = [] ∨ ∃ e sign ds, e ∈ ['e', 'E'] ∧ sign ∈ [[], ['+'], ['-']] ∧ ds ≠ [] ∧
    (∀ d ∈ ds, d.isDigit = true) ∧ cs = e :: (sign ++ ds)

/-- A number in any of its forms. -/
structure Number where
  negative : Bool := false
  whole : Nat
  fraction : List Char := []
  exponent : List Char := []
  isFraction : IsFraction fraction := by exact .inl rfl
  isExponent : IsExponent exponent := by exact .inl rfl

namespace Number

/-- The number as it is written. -/
def chars (n : Number) : List Char :=
  (if n.negative then ['-'] else []) ++ (Nat.toDigits 10 n.whole ++ (n.fraction ++ n.exponent))

/-- The unsigned integer that the number is written as. -/
def natural? (n : Number) : Option Nat :=
  if n.negative = false ∧ n.fraction = [] ∧ n.exponent = [] then some n.whole else none

end Number

/-- A character behind which no word goes on. -/
def endsWord (c : Char) : Bool := isSpace c || (punctuation? c).isSome || c == '"'

section
variable {c : Char} {cs : List Char}

theorem digitsFrom?_eq_none (hc : c ∈ cs) (h : digitValue? c = none) (acc : Nat) :
    digitsFrom? acc cs = none := by
  induction cs generalizing acc with
  | nil => cases hc
  | cons d cs ih =>
    rw [digitsFrom?]
    rcases List.mem_cons.1 hc with rfl | hc
    · rw [h, Option.bind_none]
    · cases digitValue? d with
      | none => rfl
      | some v => exact ih hc _

theorem number?_eq_none (hc : c ∈ cs) (h : digitValue? c = none) : number? cs = none := by
  unfold number?
  split
  · rfl
  · rw [List.mem_singleton.1 hc] at h
    cases h
  · rfl
  · exact digitsFrom?_eq_none hc h 0

/-- The first digit of a number is no zero, unless it is the number 0. -/
theorem toDigits_head? {n : Nat} (hn : n ≠ 0) : ∀ c ∈ (Nat.toDigits 10 n).head?, c ≠ '0' := by
  induction n using Nat.strongRecOn with
  | ind n ih =>
    by_cases hlt : n < 10
    · rw [Nat.toDigits_of_lt_base hlt]
      have hdigit : ∀ n < 10, n ≠ 0 → n.digitChar ≠ '0' := by decide
      intro c hc
      cases hc
      exact hdigit n hlt hn
    · rw [Nat.toDigits_of_base_le (by decide) (by omega),
        List.head?_append_of_ne_nil _ Nat.toDigits_ne_nil]
      exact ih (n / 10) (by omega) (by omega)

theorem number?_toDigits (n : Nat) : number? (Nat.toDigits 10 n) = some n := by
  have hdigits : digitsFrom? 0 (Nat.toDigits 10 n) = some n := by
    rw [digitsFrom?_of_isDigit fun c hc =>
      Nat.isDigit_of_mem_toDigits (by decide) (by decide) hc, Nat.ofDigitChars_ten_toDigits]
  by_cases hn : n = 0
  · rw [hn]
    rfl
  · have hhead := toDigits_head? hn
    unfold number?
    split
    · next h => exact absurd h Nat.toDigits_ne_nil
    · next h => exact absurd rfl (hhead '0' (by rw [h]; rfl))
    · next h => exact absurd rfl (hhead '0' (by rw [h]; rfl))
    · exact hdigits

/-- The characters of numbers. -/
def IsNumberChar (c : Char) : Prop := c.isDigit = true ∨ c ∈ ['-', '+', '.', 'e', 'E']

instance (c : Char) : Decidable (IsNumberChar c) :=
  inferInstanceAs (Decidable (c.isDigit = true ∨ c ∈ ['-', '+', '.', 'e', 'E']))

theorem mem_of_endsWord (h : endsWord c = true) :
    c ∈ [' ', '\t', '\n', '\r', '\x7b', '\x7d', '[', ']', ':', ',', '"'] := by
  unfold endsWord isSpace punctuation? at h
  split at h <;> simp_all [or_assoc]

theorem IsNumberChar.endsWord (h : IsNumberChar c) : endsWord c = false := by
  refine Bool.eq_false_iff.2 fun hends => ?_
  have hother : [' ', '\t', '\n', '\r', '\x7b', '\x7d', '[', ']', ':', ',', '"'].all
      (fun c => !decide (IsNumberChar c)) = true := by decide
  simpa [h] using List.all_eq_true.1 hother c (mem_of_endsWord hends)

namespace Number

variable {n : Number}

theorem isNumberChar (hc : c ∈ n.chars) : IsNumberChar c := by
  rw [chars, List.mem_append, List.mem_append, List.mem_append] at hc
  rcases hc with hc | hc | hc | hc
  · cases hn : n.negative
    · simp [hn] at hc
    · rw [hn] at hc
      obtain rfl := List.mem_singleton.1 hc
      exact .inr (by decide)
  · exact .inl (Nat.isDigit_of_mem_toDigits (by decide) (by decide) hc)
  · rcases n.isFraction with h | ⟨ds, -, hds, h⟩
    · simp [h] at hc
    · rw [h] at hc
      rcases List.mem_cons.1 hc with rfl | hc
      · exact .inr (by decide)
      · exact .inl (hds c hc)
  · rcases n.isExponent with h | ⟨e, sign, ds, he, hsign, -, hds, h⟩
    · simp [h] at hc
    · rw [h] at hc
      rcases List.mem_cons.1 hc with rfl | hc
      · exact .inr (by simp at he ⊢; tauto)
      · rcases List.mem_append.1 hc with hc | hc
        · simp only [List.mem_cons, List.not_mem_nil, or_false] at hsign
          rcases hsign with rfl | rfl | rfl
          · cases hc
          · exact .inr (by simp at hc ⊢; tauto)
          · exact .inr (by simp at hc ⊢; tauto)
        · exact .inl (hds c hc)

/-- **A number is read if it is written as an unsigned integer**, as this integer. -/
theorem number?_chars (n : Number) : number? n.chars = n.natural? := by
  unfold natural?
  split
  · next h =>
    obtain ⟨hnegative, hfraction, hexponent⟩ := h
    simp [chars, hnegative, hfraction, hexponent, number?_toDigits]
  · next h =>
    cases hnegative : n.negative with
    | true => exact number?_eq_none (c := '-') (by simp [chars, hnegative]) rfl
    | false =>
      rcases n.isFraction with hfraction | ⟨ds, -, -, hfraction⟩
      · rcases n.isExponent with hexponent | ⟨e, sign, ds, he, -, -, -, hexponent⟩
        · exact absurd ⟨hnegative, hfraction, hexponent⟩ h
        · refine number?_eq_none (c := e) (by simp [chars, hexponent]) ?_
          simp only [List.mem_cons, List.not_mem_nil, or_false] at he
          rcases he with rfl | rfl <;> rfl
      · exact number?_eq_none (c := '.') (by simp [chars, hfraction]) rfl

end Number

end

/-! ## Rows of lexemes -/

inductive Mark
  | openObject | closeObject | openArray | closeArray | colon | comma

namespace Mark

def char : Mark → Char
  | openObject => '\x7b'
  | closeObject => '\x7d'
  | openArray => '['
  | closeArray => ']'
  | colon => ':'
  | comma => ','

def token : Mark → Token
  | openObject => .openObject
  | closeObject => .closeObject
  | openArray => .openArray
  | closeArray => .closeArray
  | colon => .colon
  | comma => .comma

end Mark

inductive Word
  | null
  | bool (b : Bool)
  | number (n : Number)

namespace Word

def chars : Word → List Char
  | null => ['n', 'u', 'l', 'l']
  | bool true => ['t', 'r', 'u', 'e']
  | bool false => ['f', 'a', 'l', 's', 'e']
  | number n => n.chars

/-- The token of a word. There is none for a number that is no unsigned integer. -/
def token? : Word → Option Token
  | null => some .null
  | bool b => some (.bool b)
  | number n => n.natural?.map .number

end Word

inductive Lexeme
  | mark (m : Mark)
  | string (s : String)
  | word (w : Word)

namespace Lexeme

def token? : Lexeme → Option Token
  | mark m => some m.token
  | string s => some (.string s.toList)
  | word w => w.token?

/-- Whether `cs` is a spelling of the lexeme. -/
def Spells : Lexeme → List Char → Prop
  | mark m, cs => cs = [m.char]
  | string s, cs => SpellsString s.toList cs
  | word w, cs => cs = w.chars

/-- The lexeme with as few escapes as there can be. -/
def plain : Lexeme → List Char
  | mark m => [m.char]
  | string s => '"' :: ((s.toList.map plainChar).flatten ++ ['"'])
  | word w => w.chars

theorem spells_plain (l : Lexeme) : l.Spells l.plain := by
  cases l with
  | mark m => exact rfl
  | string s =>
    refine ⟨s.toList.map plainChar, ?_, rfl⟩
    rw [List.forall₂_map_right_iff, List.forall₂_same]
    exact fun c _ => spellsChar_plainChar c
  | word w => exact rfl

def IsWord : Lexeme → Prop
  | word _ => True
  | _ => False

end Lexeme

def IsGap (cs : List Char) : Prop := ∀ c ∈ cs, c ∈ [' ', '\t', '\n', '\r']

/-- The text of lexemes in a row, with blanks around them. -/
inductive Row : List Lexeme → List Char → Prop
  | nil {gap : List Char} (hgap : IsGap gap) : Row [] gap
  | cons {gap cs rest : List Char} {l : Lexeme} {ls : List Lexeme} (hgap : IsGap gap)
      (hl : l.Spells cs) (hrow : Row ls rest) : Row (l :: ls) (gap ++ (cs ++ rest))

theorem row_plain (ls : List Lexeme) : Row ls (ls.flatMap Lexeme.plain) := by
  have hgap : IsGap [] := fun _ hc => absurd hc List.not_mem_nil
  induction ls with
  | nil => exact .nil hgap
  | cons l ls ih => exact .cons hgap l.spells_plain ih

/-- Whether no two words stand side by side. -/
def Apart (ls : List Lexeme) : Prop := ls.IsChain fun l l' => ¬(l.IsWord ∧ l'.IsWord)

section
variable {gap cs rest : List Char} {ls : List Lexeme}

theorem IsGap.isSpace {c : Char} (hgap : IsGap gap) (hc : c ∈ gap) : isSpace c = true := by
  simpa [Json.isSpace, or_assoc] using hgap c hc

theorem tokensFrom?_gap (hgap : IsGap gap) (rest : List Char) :
    tokensFrom? .between (gap ++ rest) = tokensFrom? .between rest := by
  induction gap with
  | nil => rfl
  | cons c gap ih =>
    have hstep : step? .between c = some (.between, []) := by
      rw [step?, start?, if_pos (hgap.isSpace List.mem_cons_self)]
    have hgap : IsGap gap := fun d hd => hgap d (List.mem_cons_of_mem c hd)
    rw [List.cons_append, tokensFrom?_step hstep, ih hgap]

theorem tokensFrom?_mark (m : Mark) (rest : List Char) :
    tokensFrom? .between (m.char :: rest) = (tokensFrom? .between rest).map (m.token :: ·) :=
  tokensFrom?_token (by cases m <;> rfl) rest

theorem Word.chars_ne_nil (w : Word) : w.chars ≠ [] := by
  cases w with
  | null => exact List.cons_ne_nil _ _
  | bool b => cases b <;> exact List.cons_ne_nil _ _
  | number n => simp [chars, Number.chars, Nat.toDigits_ne_nil]

theorem Word.endsWord_of_mem {w : Word} {c : Char} (hc : c ∈ w.chars) : endsWord c = false := by
  have hletters {cs : List Char} (hcs : cs.all (fun c => !endsWord c) = true) (hc : c ∈ cs) :
      endsWord c = false := by simpa using List.all_eq_true.1 hcs c hc
  cases w with
  | null => exact hletters (by decide) hc
  | bool b => cases b <;> exact hletters (by decide) hc
  | number n => exact (Number.isNumberChar hc).endsWord

theorem Word.wordToken?_chars (w : Word) : wordToken? w.chars = w.token? := by
  cases w with
  | null => rfl
  | bool b => cases b <;> rfl
  | number n =>
    have hother {c : Char} {cs : List Char} (hc : ¬IsNumberChar c) (hmem : c ∈ cs) :
        n.chars ≠ cs := fun h => hc (Number.isNumberChar (h ▸ hmem))
    rw [wordToken?, chars, if_neg (hother (c := 'n') (by decide) (by simp)),
      if_neg (hother (c := 't') (by decide) (by simp)),
      if_neg (hother (c := 'f') (by decide) (by simp)), Number.number?_chars, token?]

theorem tokensFrom?_inWord (hcs : ∀ c ∈ cs, endsWord c = false)
    (hrest : ∀ c ∈ rest.head?, endsWord c = true) (read : List Char) :
    tokensFrom? (.word read) (cs ++ rest) = (wordToken? (read.reverse ++ cs)).bind
      fun t => (tokensFrom? .between rest).map (t :: ·) := by
  induction cs generalizing read with
  | nil =>
    rw [List.nil_append, List.append_nil]
    cases rest with
    | nil =>
      simp only [tokensFrom?]
      cases wordToken? read.reverse <;> rfl
    | cons c rest =>
      have hends : isSpace c ∨ (punctuation? c).isSome ∨ c = '"' := by
        simpa [endsWord, or_assoc] using hrest c rfl
      simp only [tokensFrom?, step?, if_pos hends]
      cases wordToken? read.reverse with
      | none => rfl
      | some t =>
        cases start? c with
        | none => rfl
        | some p => cases htokens : tokensFrom? p.1 rest <;> simp [htokens]
  | cons c cs ih =>
    obtain ⟨hc, hcs⟩ := List.forall_mem_cons.1 hcs
    have hgoes : ¬(isSpace c ∨ (punctuation? c).isSome ∨ c = '"') := by
      simpa [endsWord, and_assoc] using hc
    have hstep : step? (.word read) c = some (.word (c :: read), []) := by
      rw [step?, if_neg hgoes]
    rw [List.cons_append, tokensFrom?_step hstep, ih hcs]
    simp

/-- **A word is read up to the character that ends it.** -/
theorem tokensFrom?_word (w : Word) (hrest : ∀ c ∈ rest.head?, endsWord c = true) :
    tokensFrom? .between (w.chars ++ rest) =
      w.token?.bind fun t => (tokensFrom? .between rest).map (t :: ·) := by
  have hchars : ∀ c ∈ w.chars, endsWord c = false := fun c hc => Word.endsWord_of_mem hc
  rw [← w.wordToken?_chars]
  cases hcs : w.chars with
  | nil => exact absurd hcs w.chars_ne_nil
  | cons c cs =>
    rw [hcs] at hchars
    obtain ⟨hc, hmore⟩ := List.forall_mem_cons.1 hchars
    simp only [endsWord, Bool.or_eq_false_iff, Option.isSome_eq_false_iff,
      Option.isNone_iff_eq_none, beq_eq_false_iff_ne] at hc
    have hstep : step? .between c = some (.word [c], []) := by
      simp [step?, start?, hc]
    rw [List.cons_append, tokensFrom?_step hstep, tokensFrom?_inWord hmore hrest]
    rfl

theorem Row.head?_endsWord (h : Row ls cs) (hls : ∀ l ∈ ls.head?, ¬l.IsWord) :
    ∀ c ∈ cs.head?, endsWord c = true := by
  have hspace {c : Char} (hc : isSpace c = true) : endsWord c = true := by
    simp [endsWord, hc]
  intro c hc
  cases h with
  | nil hgap => exact hspace (hgap.isSpace (List.mem_of_mem_head? hc))
  | @cons gap cs rest l ls hgap hl hrow =>
    cases gap with
    | cons d gap =>
      obtain rfl : d = c := Option.some.inj hc
      exact hspace (hgap.isSpace List.mem_cons_self)
    | nil =>
      cases l with
      | mark m =>
        rw [show cs = [m.char] from hl] at hc
        obtain rfl : m.char = c := Option.some.inj hc
        cases m <;> rfl
      | string s =>
        obtain ⟨pieces, -, rfl⟩ := hl
        obtain rfl : '"' = c := Option.some.inj hc
        rfl
      | word w => exact absurd trivial (hls _ rfl)

/-- **A row of lexemes is cut into their tokens.** -/
theorem tokens?_of_row (h : Row ls cs) (hapart : Apart ls) :
    tokens? cs = ls.mapM Lexeme.token? := by
  unfold tokens?
  induction h with
  | nil hgap =>
    have hnil := tokensFrom?_gap hgap []
    rw [List.append_nil] at hnil
    exact hnil
  | @cons gap cs rest l ls hgap hl hrow ih =>
    have hih := ih hapart.tail
    have hsplit : tokensFrom? .between (cs ++ rest) =
        l.token?.bind fun t => (tokensFrom? .between rest).map (t :: ·) := by
      cases l with
      | mark m =>
        rw [show cs = [m.char] from hl]
        exact tokensFrom?_mark m rest
      | string s => exact tokensFrom?_string hl rest
      | word w =>
        rw [show cs = w.chars from hl]
        refine tokensFrom?_word w (hrow.head?_endsWord fun l' hl' hword => ?_)
        cases ls with
        | nil => cases hl'
        | cons l'' ls =>
          cases hl'
          exact (List.isChain_cons_cons.1 hapart).1 ⟨trivial, hword⟩
    rw [tokensFrom?_gap hgap, hsplit, hih, List.mapM_cons]
    cases l.token? with
    | none => rfl
    | some t => cases ls.mapM Lexeme.token? <;> rfl

end

end FrameGraph.Json
