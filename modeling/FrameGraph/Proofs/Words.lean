import FrameGraph.Proofs.ShaderPaths
import FrameGraph.Text.Blank
import FrameGraph.Text.Numeral

/-!
# Words of a text

The words of a text are what is left of its pieces when the empty ones go (`Text.words`). Blanks
around a word do not count (`trim_around`), and digits read as the number that they write
(`numeral?_of_digits`).
-/

set_option autoImplicit false

namespace FrameGraph.Text

/-! ## Pieces and words -/

section
variable {cut : Char → Bool} {c : Char} {xs ys gap word : List Char}

theorem split_of_uncut (h : ∀ x ∈ xs, cut x = false) : split cut xs = [xs] := by
  induction xs with
  | nil => rfl
  | cons x xs ih =>
    obtain ⟨hx, hxs⟩ := List.forall_mem_cons.1 h
    rw [split, if_neg (by simp [hx]), ih hxs]

/-- The first piece reaches to the first cut. -/
theorem split_append (h : ∀ x ∈ xs, cut x = false) (hc : cut c = true) :
    split cut (xs ++ c :: ys) = xs :: split cut ys := by
  induction xs with
  | nil => rw [List.nil_append, split, if_pos hc]
  | cons x xs ih =>
    obtain ⟨hx, hxs⟩ := List.forall_mem_cons.1 h
    rw [List.cons_append, split, if_neg (by simp [hx]), ih hxs]

/-- The pieces of a text that are not empty. -/
def words (cut : Char → Bool) (cs : List Char) : List (List Char) :=
  (split cut cs).filter (!·.isEmpty)

theorem words_cons (hc : cut c = true) : words cut (c :: xs) = words cut xs := by
  rw [words, split, if_pos hc, List.filter_cons_of_neg (by simp)]
  rfl

theorem words_gap (h : ∀ x ∈ gap, cut x = true) : words cut (gap ++ xs) = words cut xs := by
  induction gap with
  | nil => rfl
  | cons x gap ih =>
    obtain ⟨hx, hgap⟩ := List.forall_mem_cons.1 h
    rw [List.cons_append, words_cons hx, ih hgap]

/-- A word ends at the next cut. -/
theorem words_word (hne : word ≠ []) (h : ∀ x ∈ word, cut x = false)
    (hrest : ∀ x ∈ xs.head?, cut x = true) : words cut (word ++ xs) = word :: words cut xs := by
  have hkept (rest : List (List Char)) :
      (word :: rest).filter (!·.isEmpty) = word :: rest.filter (!·.isEmpty) :=
    List.filter_cons_of_pos (by simpa using hne)
  cases xs with
  | nil =>
    rw [List.append_nil, words, split_of_uncut h, hkept]
    rfl
  | cons x xs =>
    have hx : cut x = true := hrest x rfl
    rw [words_cons hx, words, split_append h hx, hkept]
    rfl

end

/-! ## Blanks around a text -/

section
variable {gap before word behind rest : List Char}

/-- What is dropped ends where something else begins. -/
theorem dropWhile_gap {p : Char → Bool} (hgap : ∀ c ∈ gap, p c = true)
    (hrest : ∀ c ∈ rest.head?, p c = false) : (gap ++ rest).dropWhile p = rest := by
  rw [List.dropWhile_append_of_pos hgap]
  cases rest with
  | nil => rfl
  | cons c rest => exact List.dropWhile_cons_of_neg (by simp [hrest c rfl])

theorem trim_around (hbefore : ∀ c ∈ before, isBlank c = true) (hne : word ≠ [])
    (hword : ∀ c ∈ word, isBlank c = false) (hbehind : ∀ c ∈ behind, isBlank c = true) :
    trim (before ++ word ++ behind) = word := by
  have hhead : ∀ c ∈ (word ++ behind).head?, isBlank c = false := by
    intro c hc
    rw [List.head?_append_of_ne_nil _ hne] at hc
    exact hword c (List.mem_of_mem_head? hc)
  have hlast : ∀ c ∈ word.reverse.head?, isBlank c = false := fun c hc =>
    hword c (List.mem_reverse.1 (List.mem_of_mem_head? hc))
  have hbehind' : ∀ c ∈ behind.reverse, isBlank c = true := by simpa using hbehind
  rw [trim, List.append_assoc, dropWhile_gap hbefore hhead, List.reverse_append,
    dropWhile_gap hbehind' hlast, List.reverse_reverse]

end

/-! ## Digits -/

theorem digitValue?_of_isDigit {c : Char} (h : c.isDigit = true) :
    digitValue? c = some (c.toNat - '0'.toNat) := by
  rw [Char.isDigit, Bool.and_eq_true, decide_eq_true_eq, decide_eq_true_eq] at h
  exact if_pos h

theorem digitsFrom?_of_isDigit {cs : List Char} (h : ∀ c ∈ cs, c.isDigit = true) (acc : Nat) :
    digitsFrom? acc cs = some (Nat.ofDigitChars 10 cs acc) := by
  induction cs generalizing acc with
  | nil => rfl
  | cons c cs ih =>
    obtain ⟨hc, hcs⟩ := List.forall_mem_cons.1 h
    rw [digitsFrom?, digitValue?_of_isDigit hc, Option.bind_some, ih hcs, Nat.ofDigitChars_cons,
      Nat.mul_comm]

/-- **Digits read as the number that they write**, if it is small enough. -/
theorem numeral?_of_digits {cs : List Char} {bound : Nat} (hne : cs ≠ [])
    (h : ∀ c ∈ cs, c.isDigit = true) (hbound : Nat.ofDigitChars 10 cs 0 < bound) :
    numeral? bound cs = some (Nat.ofDigitChars 10 cs 0) := by
  have hplus : ∀ rest, cs ≠ '+' :: rest := by
    rintro rest rfl
    exact absurd (h '+' List.mem_cons_self) (by decide)
  have hdigits : digits? cs = some (Nat.ofDigitChars 10 cs 0) := by
    rw [digits?, if_neg hne, digitsFrom?_of_isDigit h]
  unfold numeral?
  split
  · next rest => exact absurd rfl (hplus rest)
  · simp [hdigits, hbound]

end FrameGraph.Text
