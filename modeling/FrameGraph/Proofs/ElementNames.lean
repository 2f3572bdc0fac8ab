import FrameGraph.Proofs.Occurrences
import FrameGraph.Shader.ElementType

/-!
# Names of buffer member types

A member type is named by the word of a scalar type, or by the letter of a scalar type in front of
`vec` or `mat` and the dimensions (`Names`). A dimension is read as a numeral, so that a plus sign
and zeros may stand in front of its digit: the names with single digits are accepted, and besides
them exactly those with such numerals (`parse?_exact`).
-/

set_option autoImplicit false

namespace FrameGraph

open FrameGraph.Text

/-! ## Numerals of one digit -/

namespace Text

theorem stripHead?_eq_some_iff {head cs rest : List Char} :
    stripHead? head cs = some rest ↔ cs = head ++ rest := by
  constructor
  · intro h
    unfold stripHead? at h
    split at h
    · next hhead =>
      obtain ⟨behind, rfl⟩ := List.isPrefixOf_iff_prefix.1 hhead
      rw [List.drop_left] at h
      rw [Option.some.inj h]
    · cases h
  · rintro rfl
    exact SourceScan.stripHead?_append head

theorem digitValue?_eq_some_iff {c : Char} {n : Nat} (hn : n < 10) :
    digitValue? c = some n ↔ c = n.digitChar := by
  have hdigit : ∀ n < 10, digitValue? n.digitChar = some n ∧
      n.digitChar.toNat = n + '0'.toNat := by decide
  constructor
  · intro h
    unfold digitValue? at h
    split at h
    · next hc =>
      have hle : '0'.toNat ≤ c.toNat := hc.1
      have hval : c.toNat - '0'.toNat = n := Option.some.inj h
      have hchar := (hdigit n hn).2
      exact Char.toNat_inj.1 (by omega)
    · cases h
  · rintro rfl
    exact (hdigit n hn).1

/-- A digit behind a number makes it ten times as large at least. -/
theorem le_of_digitsFrom? {cs : List Char} {acc n : Nat} (h : digitsFrom? acc cs = some n) :
    acc ≤ n ∧ (cs ≠ [] → acc * 10 ≤ n) := by
  induction cs generalizing acc with
  | nil => exact ⟨(Option.some.inj h).le, fun hne => absurd rfl hne⟩
  | cons c cs ih =>
    obtain ⟨d, -, h⟩ := Option.bind_eq_some_iff.1 h
    have hle := (ih h).1
    exact ⟨by omega, fun _ => by omega⟩

/-- **A number below ten is written by its digit**, and by zeros in front of it. -/
theorem digits?_eq_some_iff {cs : List Char} {n : Nat} (hn : n < 10) :
    digits? cs = some n ↔ ∃ zeros, (∀ c ∈ zeros, c = '0') ∧ cs = zeros ++ [n.digitChar] := by
  unfold digits?
  induction cs with
  | nil => simp
  | cons c cs ih =>
    rw [if_neg (List.cons_ne_nil c cs), digitsFrom?, Option.bind_eq_some_iff]
    cases cs with
    | nil =>
      have hlast : (∃ d, digitValue? c = some d ∧ digitsFrom? (0 * 10 + d) [] = some n) ↔
          c = n.digitChar := by
        rw [← digitValue?_eq_some_iff hn]
        simp [digitsFrom?]
      rw [hlast]
      constructor
      · rintro rfl
        exact ⟨[], by simp, rfl⟩
      · rintro ⟨zeros, -, h⟩
        rw [← List.nil_append [c]] at h
        exact (List.append_inj' h rfl).2 |> List.singleton_inj.1
    | cons c' cs =>
      rw [if_neg (List.cons_ne_nil c' cs)] at ih
      constructor
      · rintro ⟨d, hd, h⟩
        obtain rfl : d = 0 := by
          have := (le_of_digitsFrom? h).2 (List.cons_ne_nil c' cs)
          omega
        obtain ⟨zeros, hzeros, hcs⟩ := ih.1 h
        have hc : c = '0' := (digitValue?_eq_some_iff (by omega)).1 hd
        exact ⟨c :: zeros, List.forall_mem_cons.2 ⟨hc, hzeros⟩, by rw [hcs, List.cons_append]⟩
      · rintro ⟨zeros, hzeros, h⟩
        cases zeros with
        | nil => cases h
        | cons z zeros =>
          obtain ⟨rfl, hbehind⟩ := List.forall_mem_cons.1 hzeros
          obtain ⟨rfl, hcs⟩ := List.cons.inj h
          exact ⟨0, rfl, ih.2 ⟨zeros, hbehind, hcs⟩⟩

/-- **A numeral is a run of digits**, behind a plus sign or not. -/
theorem numeral?_eq_some_iff {bound n : Nat} {cs : List Char} : numeral? bound cs = some n ↔
    n < bound ∧ ∃ sign digits, sign ∈ [[], ['+']] ∧ digits? digits = some n ∧
      cs = sign ++ digits := by
  have hplus (rest : List Char) : digits? ('+' :: rest) = none := rfl
  have hfilter (ds : List Char) : (digits? ds).filter (· < bound) = some n ↔
      n < bound ∧ digits? ds = some n := by
    rw [Option.filter_eq_some_iff, decide_eq_true_eq, and_comm]
  unfold numeral?
  dsimp only
  rw [hfilter]
  refine and_congr_right fun _ => ⟨fun h => ?_, ?_⟩
  · split at h
    · next rest => exact ⟨['+'], rest, by simp, h, rfl⟩
    · exact ⟨[], cs, by simp, h, rfl⟩
  · rintro ⟨sign, digits, hsign, h, rfl⟩
    simp only [List.mem_cons, List.not_mem_nil, or_false] at hsign
    rcases hsign with rfl | rfl
    · rw [List.nil_append]
      split
      · next rest =>
        rw [hplus] at h
        cases h
      · exact h
    · exact h

/-- What stands around the first `c`, if there is one. -/
theorem splitOnce?_eq_some_iff {c : Char} {cs xs ys : List Char} :
    splitOnce? c cs = some (xs, ys) ↔ cs = xs ++ c :: ys ∧ c ∉ xs := by
  constructor
  · intro h
    by_cases hc : c ∈ cs
    · obtain ⟨before, behind, rfl, hbefore⟩ := List.eq_append_cons_of_mem hc
      rw [splitOnce?_append hbefore] at h
      cases h
      exact ⟨rfl, hbefore⟩
    · rw [splitOnce?_eq_none hc] at h
      cases h
  · rintro ⟨rfl, hc⟩
    exact splitOnce?_append hc

end Text

/-! ## What the names are made of -/

namespace ScalarType

/-- The name of the scalar type itself. -/
def word : ScalarType → List Char
  | float => "float".toList
  | double => "double".toList
  | int => "int".toList
  | uint => "uint".toList
  | bool => "bool".toList

/-- What stands for the scalar type in front of `vec` and `mat`. -/
def letter : ScalarType → List Char
  | float => []
  | double => ['d']
  | int => ['i']
  | uint => ['u']
  | bool => ['b']

end ScalarType

namespace ElementType

/-- Whether `cs` is the digit of the dimension `n`. -/
def IsDigit (n : Nat) (cs : List Char) : Prop := 2 ≤ n ∧ n ≤ 4 ∧ cs = [n.digitChar]

/-- Whether `cs` writes the dimension `n`, with a plus sign and zeros in front or without. -/
def IsNumeral (n : Nat) (cs : List Char) : Prop :=
  2 ≤ n ∧ n ≤ 4 ∧ ∃ sign zeros, sign ∈ [[], ['+']] ∧ (∀ c ∈ zeros, c = '0') ∧
    cs = sign ++ zeros ++ [n.digitChar]

/-- The names of the types, with dimensions as `writes` has them. -/
inductive Names (writes : Nat → List Char → Prop) : ElementType → List Char → Prop
  | scalar (s : ScalarType) : Names writes (.scalar s) s.word
  | vector (s : ScalarType) {n : Nat} {cs : List Char} (hn : writes n cs) :
      Names writes (.vector s n) (s.letter ++ ['v', 'e', 'c'] ++ cs)
  | square {s : ScalarType} (hs : s = .float ∨ s = .double) {n : Nat} {cs : List Char}
      (hn : writes n cs) : Names writes (.matrix s n n) (s.letter ++ ['m', 'a', 't'] ++ cs)
  | matrix {s : ScalarType} (hs : s = .float ∨ s = .double) {c r : Nat} {cs rs : List Char}
      (hc : writes c cs) (hr : writes r rs) :
      Names writes (.matrix s c r) (s.letter ++ ['m', 'a', 't'] ++ (cs ++ 'x' :: rs))

/-- Whether neither a plus sign nor a zero stands in the text. -/
def IsPlain (cs : List Char) : Prop := '+' ∉ cs ∧ '0' ∉ cs

section
variable {cs xs ys : List Char} {n columns rows : Nat} {s : ScalarType} {ty : ElementType}

theorem isPlain_append : IsPlain (xs ++ ys) ↔ IsPlain xs ∧ IsPlain ys := by
  simp only [IsPlain, List.mem_append]
  tauto

theorem isPlain_letter (s : ScalarType) : IsPlain s.letter := by
  cases s <;> exact ⟨by decide, by decide⟩

theorem isPlain_word (s : ScalarType) : IsPlain s.word := by
  cases s <;> exact ⟨by decide, by decide⟩

theorem digitChar_dimension : ∀ n ≤ 4, 2 ≤ n → n.digitChar ≠ 'x' ∧ n.digitChar ≠ '0' := by
  decide

theorem IsNumeral.not_mem (h : IsNumeral n cs) : 'x' ∉ cs := by
  obtain ⟨h2, h4, sign, zeros, hsign, hzeros, rfl⟩ := h
  have hdigit : 'x' ≠ n.digitChar := (digitChar_dimension n h4 h2).1.symm
  have hsign : 'x' ∉ sign := by
    simp only [List.mem_cons, List.not_mem_nil, or_false] at hsign
    rcases hsign with rfl | rfl <;> decide
  have hzero : 'x' ∉ zeros := fun hx => absurd (hzeros _ hx) (by decide)
  simp [hdigit, hsign, hzero]

/-- **The digit alone is the plain numeral.** -/
theorem isDigit_iff : IsDigit n cs ↔ IsNumeral n cs ∧ IsPlain cs := by
  constructor
  · rintro ⟨h2, h4, rfl⟩
    refine ⟨⟨h2, h4, [], [], by simp, by simp, rfl⟩, ?_⟩
    have hzero := (digitChar_dimension n h4 h2).2
    exact ⟨by simp, by simpa using hzero.symm⟩
  · rintro ⟨⟨h2, h4, sign, zeros, hsign, hzeros, rfl⟩, hplus, hzero⟩
    have hsign : sign = [] := by
      simp only [List.mem_cons, List.not_mem_nil, or_false] at hsign
      rcases hsign with rfl | rfl
      · rfl
      · simp at hplus
    have hzeros : zeros = [] := by
      refine List.eq_nil_iff_forall_not_mem.2 fun c hc => hzero ?_
      rw [← hzeros c hc]
      simp [hc]
    exact ⟨h2, h4, by rw [hsign, hzeros]; rfl⟩

/-- **The names with digits are the plain ones** among the names with numerals. -/
theorem names_isDigit_iff : ty.Names IsDigit cs ↔ ty.Names IsNumeral cs ∧ IsPlain cs := by
  have hvec : IsPlain ['v', 'e', 'c'] := ⟨by decide, by decide⟩
  have hmat : IsPlain ['m', 'a', 't'] := ⟨by decide, by decide⟩
  have hcross {xs ys : List Char} : IsPlain (xs ++ 'x' :: ys) ↔ IsPlain xs ∧ IsPlain ys := by
    rw [isPlain_append, ← List.singleton_append, isPlain_append]
    exact and_congr_right fun _ => and_iff_right ⟨by decide, by decide⟩
  constructor
  · intro h
    cases h with
    | scalar s => exact ⟨.scalar s, isPlain_word s⟩
    | vector s hn =>
      obtain ⟨hn, hplain⟩ := isDigit_iff.1 hn
      exact ⟨.vector s hn, isPlain_append.2 ⟨isPlain_append.2 ⟨isPlain_letter s, hvec⟩, hplain⟩⟩
    | square hs hn =>
      obtain ⟨hn, hplain⟩ := isDigit_iff.1 hn
      exact ⟨.square hs hn,
        isPlain_append.2 ⟨isPlain_append.2 ⟨isPlain_letter _, hmat⟩, hplain⟩⟩
    | matrix hs hc hr =>
      obtain ⟨hc, hcplain⟩ := isDigit_iff.1 hc
      obtain ⟨hr, hrplain⟩ := isDigit_iff.1 hr
      exact ⟨.matrix hs hc hr, isPlain_append.2
        ⟨isPlain_append.2 ⟨isPlain_letter _, hmat⟩, hcross.2 ⟨hcplain, hrplain⟩⟩⟩
  · rintro ⟨h, hplain⟩
    cases h with
    | scalar s => exact .scalar s
    | vector s hn => exact .vector s (isDigit_iff.2 ⟨hn, (isPlain_append.1 hplain).2⟩)
    | square hs hn => exact .square hs (isDigit_iff.2 ⟨hn, (isPlain_append.1 hplain).2⟩)
    | matrix hs hc hr =>
      obtain ⟨hcplain, hrplain⟩ := hcross.1 (isPlain_append.1 hplain).2
      exact .matrix hs (isDigit_iff.2 ⟨hc, hcplain⟩) (isDigit_iff.2 ⟨hr, hrplain⟩)

/-- **A type has one name with digits**, a square matrix a long and a short one. -/
theorem Names.eq_or_square (hx : ty.Names IsDigit xs) (hy : ty.Names IsDigit ys) (hne : xs ≠ ys) :
    ∃ s n, ty = .matrix s n n ∧
      ((xs = s.letter ++ ['m', 'a', 't', n.digitChar] ∧
          ys = s.letter ++ ['m', 'a', 't', n.digitChar, 'x', n.digitChar]) ∨
        (xs = s.letter ++ ['m', 'a', 't', n.digitChar, 'x', n.digitChar] ∧
          ys = s.letter ++ ['m', 'a', 't', n.digitChar])) := by
  cases hx with
  | scalar s =>
    cases hy
    exact absurd rfl hne
  | vector s hn =>
    obtain ⟨-, -, rfl⟩ := hn
    cases hy with
    | vector s hn =>
      obtain ⟨-, -, rfl⟩ := hn
      exact absurd rfl hne
  | square hs hn =>
    obtain ⟨-, -, rfl⟩ := hn
    cases hy with
    | square hs hn =>
      obtain ⟨-, -, rfl⟩ := hn
      exact absurd rfl hne
    | matrix hs hc hr =>
      obtain ⟨-, -, rfl⟩ := hc
      obtain ⟨-, -, rfl⟩ := hr
      exact ⟨_, _, rfl, .inl ⟨List.append_assoc .., List.append_assoc ..⟩⟩
  | matrix hs hc hr =>
    obtain ⟨-, -, rfl⟩ := hc
    obtain ⟨-, -, rfl⟩ := hr
    cases hy with
    | square hs hn =>
      obtain ⟨-, -, rfl⟩ := hn
      exact ⟨_, _, rfl, .inr ⟨List.append_assoc .., List.append_assoc ..⟩⟩
    | matrix hs hc hr =>
      obtain ⟨-, -, rfl⟩ := hc
      obtain ⟨-, -, rfl⟩ := hr
      exact absurd rfl hne

/-! ## What is accepted -/

/-- **A dimension is read from a numeral.** -/
theorem dimension?_eq_some_iff : dimension? cs = some n ↔ IsNumeral n cs := by
  have hrange : dimension? cs = some n ↔ numeral? bound8 cs = some n ∧ 2 ≤ n ∧ n ≤ 4 := by
    simp [dimension?, Option.filter_eq_some_iff]
  rw [hrange, numeral?_eq_some_iff]
  constructor
  · rintro ⟨⟨-, sign, digits, hsign, hdigits, rfl⟩, h2, h4⟩
    obtain ⟨zeros, hzeros, rfl⟩ := (digits?_eq_some_iff (by omega)).1 hdigits
    exact ⟨h2, h4, sign, zeros, hsign, hzeros, (List.append_assoc ..).symm⟩
  · rintro ⟨h2, h4, sign, zeros, hsign, hzeros, rfl⟩
    have hdigits := (digits?_eq_some_iff (n := n) (by omega)).2 ⟨zeros, hzeros, rfl⟩
    refine ⟨⟨?_, sign, zeros ++ [n.digitChar], hsign, hdigits, List.append_assoc ..⟩, h2, h4⟩
    rw [bound8]
    omega

/-- **A shape is one dimension or two around an `x`.** -/
theorem shape?_eq_some_iff : shape? cs = some (columns, rows) ↔
    (IsNumeral columns cs ∧ columns = rows) ∨
      ∃ xs ys, IsNumeral columns xs ∧ IsNumeral rows ys ∧ cs = xs ++ 'x' :: ys := by
  constructor
  · intro h
    unfold shape? at h
    split at h
    · next xs ys hsplit =>
      obtain ⟨c, hc, h⟩ := Option.bind_eq_some_iff.1 h
      obtain ⟨r, hr, h⟩ := Option.map_eq_some_iff.1 h
      cases h
      exact .inr ⟨xs, ys, dimension?_eq_some_iff.1 hc, dimension?_eq_some_iff.1 hr,
        (splitOnce?_eq_some_iff.1 hsplit).1⟩
    · obtain ⟨n, hn, h⟩ := Option.map_eq_some_iff.1 h
      cases h
      exact .inl ⟨dimension?_eq_some_iff.1 hn, rfl⟩
  · unfold shape?
    rintro (⟨hn, rfl⟩ | ⟨xs, ys, hc, hr, rfl⟩)
    · rw [splitOnce?_eq_none hn.not_mem]
      simp only [dimension?_eq_some_iff.2 hn, Option.map_some]
    · rw [splitOnce?_append hc.not_mem]
      simp only [dimension?_eq_some_iff.2 hc, dimension?_eq_some_iff.2 hr, Option.bind_some,
        Option.map_some]

theorem eq_of_component {rest : List Char} (h : component cs = (s, rest)) :
    cs = s.letter ++ rest := by
  unfold component at h
  split at h <;> cases h <;> rfl

theorem component_vec (s : ScalarType) (cs : List Char) :
    component (s.letter ++ ['v', 'e', 'c'] ++ cs) = (s, ['v', 'e', 'c'] ++ cs) := by
  cases s <;> rfl

theorem component_mat (s : ScalarType) (cs : List Char) :
    component (s.letter ++ ['m', 'a', 't'] ++ cs) = (s, ['m', 'a', 't'] ++ cs) := by
  cases s <;> rfl

theorem vector?_eq_some_iff : vector? cs = some ty ↔
    ∃ s n ns, IsNumeral n ns ∧ cs = s.letter ++ ['v', 'e', 'c'] ++ ns ∧ ty = .vector s n := by
  constructor
  · intro h
    cases hcs : component cs with
    | mk s rest =>
      rw [vector?, hcs] at h
      obtain ⟨n, hn, rfl⟩ := Option.map_eq_some_iff.1 h
      obtain ⟨ns, hns, hn⟩ := Option.bind_eq_some_iff.1 hn
      refine ⟨s, n, ns, dimension?_eq_some_iff.1 hn, ?_, rfl⟩
      rw [eq_of_component hcs, stripHead?_eq_some_iff.1 hns, List.append_assoc]
  · rintro ⟨s, n, ns, hn, rfl, rfl⟩
    rw [vector?, component_vec]
    simp only [SourceScan.stripHead?_append, Option.bind_some, dimension?_eq_some_iff.2 hn,
      Option.map_some]

theorem matrix?_eq_some_iff : matrix? cs = some ty ↔
    ∃ s c r ns, (s = .float ∨ s = .double) ∧ shape? ns = some (c, r) ∧
      cs = s.letter ++ ['m', 'a', 't'] ++ ns ∧ ty = .matrix s c r := by
  constructor
  · intro h
    cases hcs : component cs with
    | mk s rest =>
      rw [matrix?, hcs] at h
      obtain ⟨hs, h⟩ := Option.ite_none_right_eq_some.1 h
      obtain ⟨⟨c, r⟩, hshape, rfl⟩ := Option.map_eq_some_iff.1 h
      obtain ⟨ns, hns, hshape⟩ := Option.bind_eq_some_iff.1 hshape
      refine ⟨s, c, r, ns, hs, hshape, ?_, rfl⟩
      rw [eq_of_component hcs, stripHead?_eq_some_iff.1 hns, List.append_assoc]
  · rintro ⟨s, c, r, ns, hs, hshape, rfl, rfl⟩
    rw [matrix?, component_mat]
    simp only [if_pos hs, SourceScan.stripHead?_append, Option.bind_some, hshape,
      Option.map_some]

theorem lookup_scalars_eq_some_iff : scalars.lookup cs = some s ↔ cs = s.word := by
  constructor
  · intro h
    obtain ⟨before, behind, hscalars, -⟩ := List.lookup_eq_some_iff.1 h
    have hmem : (cs, s) ∈ scalars := hscalars ▸ List.mem_append_cons_self
    simp only [scalars, List.mem_cons, List.not_mem_nil, or_false, Prod.mk.injEq] at hmem
    rcases hmem with ⟨rfl, rfl⟩ | ⟨rfl, rfl⟩ | ⟨rfl, rfl⟩ | ⟨rfl, rfl⟩ | ⟨rfl, rfl⟩ <;> rfl
  · rintro rfl
    cases s <;> rfl

theorem parse?_word (s : ScalarType) : parse? (.ofList s.word) = some (.scalar s) := by
  rw [parse?, String.toList_ofList, lookup_scalars_eq_some_iff.2 rfl]

theorem parse?_vec (s : ScalarType) (h : dimension? cs = some n) :
    parse? (.ofList (s.letter ++ ['v', 'e', 'c'] ++ cs)) = some (.vector s n) := by
  have hword : scalars.lookup (s.letter ++ ['v', 'e', 'c'] ++ cs) = none := by cases s <;> rfl
  rw [parse?, String.toList_ofList, hword,
    vector?_eq_some_iff.2 ⟨s, n, cs, dimension?_eq_some_iff.1 h, rfl, rfl⟩]
  rfl

theorem parse?_mat (hs : s = .float ∨ s = .double) (h : shape? cs = some (columns, rows)) :
    parse? (.ofList (s.letter ++ ['m', 'a', 't'] ++ cs)) = some (.matrix s columns rows) := by
  have hword : scalars.lookup (s.letter ++ ['m', 'a', 't'] ++ cs) = none := by cases s <;> rfl
  have hvec : vector? (s.letter ++ ['m', 'a', 't'] ++ cs) = none := by cases s <;> rfl
  rw [parse?, String.toList_ofList, hword, hvec,
    matrix?_eq_some_iff.2 ⟨s, columns, rows, cs, hs, h, rfl, rfl⟩]
  rfl

theorem names_of_parse? {name : String} (h : parse? name = some ty) :
    ty.Names IsNumeral name.toList := by
  unfold parse? at h
  dsimp only at h
  split at h
  · next s hs =>
    rw [lookup_scalars_eq_some_iff.1 hs]
    cases h
    exact .scalar s
  · rw [Option.orElse_eq_orElse, Option.orElse_eq_or, Option.or_eq_some_iff] at h
    rcases h with h | ⟨-, h⟩
    · obtain ⟨s, n, ns, hn, hname, rfl⟩ := vector?_eq_some_iff.1 h
      rw [hname]
      exact .vector s hn
    · obtain ⟨s, c, r, ns, hs, hshape, hname, rfl⟩ := matrix?_eq_some_iff.1 h
      rw [hname]
      rcases shape?_eq_some_iff.1 hshape with ⟨hn, rfl⟩ | ⟨xs, ys, hc, hr, rfl⟩
      · exact .square hs hn
      · exact .matrix hs hc hr

/-- **A name is accepted exactly if it is one with numerals**, as the type that it names. -/
theorem parse?_eq_some_iff {name : String} :
    parse? name = some ty ↔ ty.Names IsNumeral name.toList := by
  refine ⟨names_of_parse?, fun h => ?_⟩
  rw [← String.ofList_toList (s := name)]
  revert h
  generalize name.toList = cs
  intro h
  cases h with
  | scalar s => exact parse?_word s
  | vector s hn => exact parse?_vec s (dimension?_eq_some_iff.2 hn)
  | square hs hn => exact parse?_mat hs (shape?_eq_some_iff.2 (.inl ⟨hn, rfl⟩))
  | matrix hs hc hr => exact parse?_mat hs (shape?_eq_some_iff.2 (.inr ⟨_, _, hc, hr, rfl⟩))

end

/-- **The names with digits are accepted and told apart**, and apart from them exactly those that
have a plus sign or a zero in front of a digit. -/
theorem parse?_exact (name : String) :
    (∀ ty, parse? name = some ty ↔ ty.Names IsNumeral name.toList) ∧
    ((∀ ty, parse? name = some ty ↔ ty.Names IsDigit name.toList) ↔
      ((parse? name).isSome → IsPlain name.toList)) ∧
    ∀ other ty, IsPlain name.toList → IsPlain other.toList → parse? name = some ty →
      parse? other = some ty → name ≠ other → ∃ s n, ty = .matrix s n n ∧
        ((name.toList = s.letter ++ ['m', 'a', 't', n.digitChar] ∧
            other.toList = s.letter ++ ['m', 'a', 't', n.digitChar, 'x', n.digitChar]) ∨
          (name.toList = s.letter ++ ['m', 'a', 't', n.digitChar, 'x', n.digitChar] ∧
            other.toList = s.letter ++ ['m', 'a', 't', n.digitChar])) := by
  refine ⟨fun ty => parse?_eq_some_iff, ?_, ?_⟩
  · simp only [parse?_eq_some_iff, names_isDigit_iff, Option.isSome_iff_exists, iff_self_and]
    exact exists_imp.symm
  · intro other ty hname hother hty hty' hne
    refine Names.eq_or_square (names_isDigit_iff.2 ⟨parse?_eq_some_iff.1 hty, hname⟩)
      (names_isDigit_iff.2 ⟨parse?_eq_some_iff.1 hty', hother⟩) fun h => ?_
    exact hne (String.toList_inj.1 h)

/-- The two names of a square matrix of three columns. -/
theorem parse?_exact_mat3 : IsPlain "mat3".toList ∧ IsPlain "mat3x3".toList ∧
    parse? "mat3" = some (.matrix .float 3 3) ∧ parse? "mat3x3" = some (.matrix .float 3 3) ∧
    ∃ s n, ElementType.matrix .float 3 3 = .matrix s n n ∧
      (("mat3".toList = s.letter ++ ['m', 'a', 't', n.digitChar] ∧
          "mat3x3".toList = s.letter ++ ['m', 'a', 't', n.digitChar, 'x', n.digitChar]) ∨
        ("mat3".toList = s.letter ++ ['m', 'a', 't', n.digitChar, 'x', n.digitChar] ∧
          "mat3x3".toList = s.letter ++ ['m', 'a', 't', n.digitChar])) := by
  have hshort : IsPlain "mat3".toList := ⟨by decide, by decide⟩
  have hlong : IsPlain "mat3x3".toList := ⟨by decide, by decide⟩
  have hmat3 : parse? "mat3" = some (.matrix .float 3 3) := by decide
  have hmat3x3 : parse? "mat3x3" = some (.matrix .float 3 3) := by decide
  exact ⟨hshort, hlong, hmat3, hmat3x3,
    (parse?_exact "mat3").2.2 "mat3x3" _ hshort hlong hmat3 hmat3x3 (by decide)⟩

/-- **Not only names with digits are accepted**: a zero may stand in front of the two. -/
theorem not_forall_names_isDigit :
    ¬∀ name ty, parse? name = some ty ↔ ty.Names IsDigit name.toList := by
  intro h
  have hplain := (names_isDigit_iff.1 ((h "vec02" (.vector .float 2)).1 (by decide))).2
  exact hplain.2 (by decide)

end ElementType

end FrameGraph
