import FrameGraph.Proofs.Occurrences
import FrameGraph.Proofs.ScannedSlots

/-!
# Rendered declarations

A layout declaration is written as a row of tokens (`LayoutDeclaration.tokens`), its qualifiers in
any order, with blanks and comments between the tokens as one likes (`Renders`). The scan reads off
what was declared, however that is: the qualifiers give the slot (`Spaced.ofText_qualifiers`), and
the last word outside brackets gives the name (`Spaced.declaredName?_eq`). Nothing else in the text
is taken for a declaration. So the scan undoes the rendering (`scan_rendered`).
-/

set_option autoImplicit false

namespace FrameGraph.SourceScan

open FrameGraph.Text

/-! ## Declarations -/

/-- Letters, digits and underscores. -/
abbrev Word := { cs : List Char // cs ≠ [] ∧ ∀ c ∈ cs, isIdentChar c = true }

/-- Decimal digits. -/
abbrev Digits := { cs : List Char // cs ≠ [] ∧ ∀ c ∈ cs, c.isDigit = true }

/-- The number that digits write. -/
def Digits.value (n : Digits) : Nat := Nat.ofDigitChars 10 n.val 0

/-- A qualifier: a word, with a number or without. The numbers of binding and set have 32 bits. -/
structure Qualifier where
  key : Word
  number : Option Digits
  fits : key.val = bindingKey ∨ key.val = setKey →
    ∃ n, number = some n ∧ n.value < bound32

/-- What a qualifier gives to that key. -/
def Qualifier.given? (key : List Char) (q : Qualifier) : Option Nat :=
  if q.key.val = key then q.number.map Digits.value else none

/-- A piece of a text that is passed over, between two comments. -/
abbrev Piece := { cs : List Char // '/' ∉ cs ∧ ¬HasKeyword cs }

/-- A piece of what stands in brackets. -/
abbrev Bound := { p : Piece // ∀ c ∈ ['[', ']', '\x7b', '\x7d', ';'], c ∉ p.val }

/-- What ends a declaration: a semicolon, with a block before it or without. -/
inductive Ending
  | plain
  | block (body name : List Piece)

structure LayoutDeclaration where
  /-- In the order in which they are written. -/
  qualifiers : List Qualifier
  binding : Nat
  set : Option Nat
  binds : qualifiers.filterMap (·.given? bindingKey) = [binding]
  sets : qualifiers.filterMap (·.given? setKey) = set.toList
  /-- The words in front of the name. -/
  words : List Word
  name : Word
  arrays : List (List Bound)
  ending : Ending

namespace LayoutDeclaration

/-- Whether the declaration is one of set 0, which need not be written. -/
def inSetZero (d : LayoutDeclaration) : Bool := d.set.getD 0 == 0

/-- The words and the name. -/
def declared (d : LayoutDeclaration) : List (List Char) := (d.words ++ [d.name]).map (·.val)

end LayoutDeclaration

/-! ## Their tokens -/

def Qualifier.tokens (q : Qualifier) : List Token :=
  .word q.key :: q.number.elim [] fun n => [.mark '=', .word n]

/-- Qualifiers, with commas between them. -/
def qualifierTokens : List Qualifier → List Token
  | [] => []
  | [q] => q.tokens
  | q :: qs => q.tokens ++ .mark ',' :: qualifierTokens qs

def arrayTokens (pieces : List Bound) : List Token :=
  .mark '[' :: (pieces.map fun p => .text p.val.val) ++ [.mark ']']

/-- What stands before the last semicolon. -/
def Ending.tokens : Ending → List Token
  | plain => []
  | block body name => .mark '\x7b' :: (body.map fun p => .text p.val) ++
      .mark '\x7d' :: (name.map fun p => .text p.val)

def LayoutDeclaration.tokens (d : LayoutDeclaration) : List Token :=
  .word keyword :: .mark '(' :: (qualifierTokens d.qualifiers ++ .mark ')' ::
    (d.declared.map .word ++ (d.arrays.flatMap arrayTokens ++ (d.ending.tokens ++ [.mark ';']))))

/-- Whether a source is these declarations one after the other, with gaps wherever blanks may
stand. The last line may end in a comment. -/
def Renders (ds : List LayoutDeclaration) (source : List Char) : Prop :=
  ∃ lead body tail, source = lead ++ (body ++ tail) ∧ Gap lead ∧
    Spaced Gap (ds.flatMap LayoutDeclaration.tokens) body ∧
    (tail = [] ∨ ∃ text, '\n' ∉ text ∧ tail = '/' :: '/' :: text)

/-! ## Reading qualifiers -/

/-- What a qualifier makes of the numbers so far. -/
def Qualifier.apply (acc : Qualifiers) (q : Qualifier) : Qualifiers where
  binding := (q.given? bindingKey).or acc.binding
  set := (q.given? setKey).or acc.set

section
variable {q : Qualifier} {qs : List Qualifier} {acc : Qualifiers} {lead cs : List Char} {c : Char}

theorem Word.isBlank (w : Word) : ∀ c ∈ w.val, isBlank c = false := fun c hc =>
  isBlank_of_isIdentChar (w.property.2 c hc)

theorem Digits.isIdentChar (n : Digits) : ∀ c ∈ n.val, isIdentChar c = true := fun c hc =>
  isIdentChar_of_isDigit (n.property.2 c hc)

theorem Digits.isBlank (n : Digits) : ∀ c ∈ n.val, isBlank c = false := fun c hc =>
  isBlank_of_isIdentChar (n.isIdentChar c hc)

theorem Digits.numeral? (n : Digits) (h : n.value < bound32) :
    numeral? bound32 n.val = some n.value :=
  numeral?_of_digits n.property.1 n.property.2 h

theorem Word.not_mem (w : Word) (hc : isIdentChar c = false) : c ∉ w.val := by
  intro hmem
  rw [w.property.2 c hmem] at hc
  cases hc

theorem Qualifier.not_mem_tokens (q : Qualifier) (hc : isIdentChar c = false) (hsign : c ≠ '=') :
    ∀ t ∈ q.tokens, c ∉ t.chars := by
  intro t ht hmem
  rcases List.mem_cons.1 ht with rfl | ht
  · exact q.key.not_mem hc hmem
  · cases hn : q.number with
    | none => simp [hn] at ht
    | some n =>
      simp only [hn, Option.elim_some, List.mem_cons, List.not_mem_nil, or_false] at ht
      rcases ht with rfl | rfl
      · exact hsign (List.mem_singleton.1 hmem)
      · rw [n.isIdentChar c hmem] at hc
        cases hc

theorem not_mem_qualifierTokens (hc : isIdentChar c = false) (hsign : c ≠ '=') (hcomma : c ≠ ',') :
    ∀ t ∈ qualifierTokens qs, c ∉ t.chars := by
  induction qs using qualifierTokens.induct with
  | case1 => simp [qualifierTokens]
  | case2 q => exact q.not_mem_tokens hc hsign
  | case3 q qs hne ih =>
    rw [qualifierTokens]
    · refine List.forall_mem_append.2 ⟨q.not_mem_tokens hc hsign, List.forall_mem_cons.2 ⟨?_, ih⟩⟩
      simpa [Token.chars] using hcomma
    · exact hne

theorem Qualifiers.read_append {before behind : List Char} (h : '=' ∉ before) :
    acc.read (before ++ '=' :: behind) =
      if trim before = bindingKey then { acc with binding := Text.numeral? bound32 (trim behind) }
      else if trim before = setKey then { acc with set := Text.numeral? bound32 (trim behind) }
      else acc := by
  simp only [Qualifiers.read, splitOnce?_append h]
  rfl

theorem Qualifier.read_of_number (acc : Qualifiers) {n : Digits} (hn : q.number = some n)
    {before behind : List Char}
    (hbefore : trim before = q.key.val) (hbehind : trim behind = n.val) (hsign : '=' ∉ before) :
    acc.read (before ++ '=' :: behind) = q.apply acc := by
  have hfits (h : q.key.val = bindingKey ∨ q.key.val = setKey) :
      Text.numeral? bound32 n.val = some n.value := by
    obtain ⟨m, hm, hlt⟩ := q.fits h
    obtain rfl := Option.some.inj (hn.symm.trans hm)
    exact n.numeral? hlt
  rw [Qualifiers.read_append hsign, hbefore, hbehind, Qualifier.apply, given?, given?, hn]
  by_cases hbinding : q.key.val = bindingKey
  · rw [hfits (.inl hbinding), if_pos hbinding, if_pos hbinding, hbinding, if_neg (by decide)]
    rfl
  · by_cases hset : q.key.val = setKey
    · rw [hfits (.inr hset), if_neg hbinding, if_pos hset, if_neg hbinding, if_pos hset]
      rfl
    · rw [if_neg hbinding, if_neg hset, if_neg hbinding, if_neg hset]
      rfl

/-- **A qualifier is read**, whatever blanks are in it. -/
theorem Qualifier.read_eq (h : Spaced Blanks q.tokens cs) (hlead : Blanks lead) :
    acc.read (lead ++ cs) = q.apply acc := by
  cases hn : q.number with
  | none =>
    have htokens : ∀ t ∈ q.tokens, '=' ∉ t.chars := by
      simpa [Qualifier.tokens, hn, Token.chars] using q.key.not_mem (c := '=') rfl
    have hsign : '=' ∉ lead ++ cs := List.not_mem_append (hlead.not_mem rfl) (h.not_mem rfl htokens)
    rw [Qualifiers.read, splitOnce?_eq_none hsign, Qualifier.apply, given?, given?, hn]
    simp
  | some n =>
    simp only [Qualifier.tokens, hn, Option.elim_some] at h
    obtain ⟨gap, rest, rfl, hgap, h⟩ := h.split_cons
    obtain ⟨gap', rest, rfl, hgap', h⟩ := h.split_cons
    obtain ⟨gap'', rest, rfl, hgap'', h⟩ := h.split_cons
    cases h
    have hsign : '=' ∉ lead ++ q.key.val ++ gap :=
      List.not_mem_append (List.not_mem_append (hlead.not_mem rfl) (q.key.not_mem rfl))
        (hgap.not_mem rfl)
    have hread := read_of_number acc hn
      (trim_around hlead q.key.property.1 q.key.isBlank hgap)
      (trim_around hgap' n.property.1 n.isBlank hgap'') hsign
    simpa only [Token.chars, List.append_assoc, List.cons_append, List.nil_append,
      List.append_nil] using hread

/-- Of several numbers for one key the last one counts. -/
theorem foldl_apply (qs : List Qualifier) (acc : Qualifiers) : qs.foldl Qualifier.apply acc =
    ⟨(qs.filterMap (·.given? bindingKey)).getLast?.or acc.binding,
      (qs.filterMap (·.given? setKey)).getLast?.or acc.set⟩ := by
  have hlast (key : List Char) (q : Qualifier) (qs : List Qualifier) (n? : Option Nat) :
      ((q :: qs).filterMap (·.given? key)).getLast?.or n? =
        (qs.filterMap (·.given? key)).getLast?.or ((q.given? key).or n?) := by
    cases hq : q.given? key with
    | none => rw [List.filterMap_cons_none hq, Option.none_or]
    | some n =>
      rw [List.filterMap_cons_some hq, List.getLast?_cons, Option.some_or]
      cases (qs.filterMap (·.given? key)).getLast? <;> rfl
  induction qs generalizing acc with
  | nil => rfl
  | cons q qs ih =>
    rw [List.foldl_cons, ih, hlast, hlast]
    rfl

/-- **Qualifiers are read one after the other.** -/
theorem foldl_read (hne : qs ≠ []) (h : Spaced Blanks (qualifierTokens qs) cs)
    (hlead : Blanks lead) :
    (split (· == ',') (lead ++ cs)).foldl Qualifiers.read acc = qs.foldl Qualifier.apply acc := by
  have hpiece {q : Qualifier} {lead cs : List Char} (h : Spaced Blanks q.tokens cs)
      (hlead : Blanks lead) : ∀ c ∈ lead ++ cs, (c == ',') = false := by
    rintro c hc
    refine beq_eq_false_iff_ne.2 ?_
    rintro rfl
    exact List.not_mem_append (hlead.not_mem rfl)
      (h.not_mem rfl (q.not_mem_tokens rfl (by decide))) hc
  induction qs using qualifierTokens.induct generalizing lead cs acc with
  | case1 => exact absurd rfl hne
  | case2 q =>
    rw [split_of_uncut (hpiece h hlead)]
    exact q.read_eq h hlead
  | case3 q qs hmore ih =>
    rw [qualifierTokens] at h
    · obtain ⟨xs, ys, rfl, hxs, hys⟩ := h.split
      obtain ⟨gap, rest, rfl, hgap, hrest⟩ := hys.split_cons
      rw [← List.append_assoc, Token.chars, List.singleton_append, List.cons_append,
        split_append (hpiece hxs hlead) (by simp), List.foldl_cons, List.foldl_cons,
        q.read_eq hxs hlead]
      exact ih (fun heq => hmore heq) hrest hgap
    · exact hmore

/-- **The qualifiers tell the slot** of a declaration of set 0. -/
theorem LayoutDeclaration.slot?_eq (d : LayoutDeclaration) {declared : List Char}
    (h : Spaced Blanks (qualifierTokens d.qualifiers) cs) (hlead : Blanks lead) :
    Declaration.slot? ⟨lead ++ cs, declared⟩ = if d.inSetZero then some d.binding else none := by
  have hne : d.qualifiers ≠ [] := by
    intro hnil
    have hbinds := d.binds
    rw [hnil] at hbinds
    cases hbinds
  have hread : Qualifiers.ofText (lead ++ cs) = ⟨some d.binding, d.set⟩ := by
    rw [Qualifiers.ofText, foldl_read hne h hlead, foldl_apply, d.binds, d.sets]
    cases d.set <;> rfl
  simp only [Declaration.slot?, hread, inSetZero, beq_iff_eq]

end

/-! ## Reading names -/

section
variable {ws : List (List Char)} {arrays : List (List Bound)} {cs rest lead : List Char}

theorem outsideBrackets_append (hopen : '[' ∉ cs) (hclose : ']' ∉ cs) :
    outsideBrackets 0 (cs ++ rest) = cs ++ outsideBrackets 0 rest := by
  induction cs with
  | nil => rfl
  | cons c cs ih =>
    obtain ⟨ho, hopen⟩ := List.ne_and_not_mem_of_not_mem_cons hopen
    obtain ⟨hc, hclose⟩ := List.ne_and_not_mem_of_not_mem_cons hclose
    rw [List.cons_append, outsideBrackets, ih hopen hclose, List.cons_append]
    · exact fun heq => ho heq.symm
    · exact fun heq => hc heq.symm

theorem outsideBrackets_inside (hopen : '[' ∉ cs) (hclose : ']' ∉ cs) :
    outsideBrackets 1 (cs ++ ']' :: rest) = outsideBrackets 0 rest := by
  induction cs with
  | nil => rfl
  | cons c cs ih =>
    obtain ⟨ho, hopen⟩ := List.ne_and_not_mem_of_not_mem_cons hopen
    obtain ⟨hc, hclose⟩ := List.ne_and_not_mem_of_not_mem_cons hclose
    rw [List.cons_append, outsideBrackets, ih hopen hclose]
    · exact fun heq => ho heq.symm
    · exact fun heq => hc heq.symm

/-- Brackets and what is in them leave blanks. -/
theorem Spaced.outside_arrays (h : Spaced Blanks (arrays.flatMap arrayTokens) cs) :
    Blanks (outsideBrackets 0 cs) := by
  induction arrays generalizing cs with
  | nil =>
    cases h
    simp [Blanks, outsideBrackets]
  | cons pieces arrays ih =>
    rw [List.flatMap_cons] at h
    obtain ⟨xs, ys, rfl, hxs, hys⟩ := h.split
    obtain ⟨gap, rest, rfl, hgap, hrest⟩ := hxs.split_cons
    obtain ⟨inside, close, rfl, hinside, hclose⟩ := hrest.split
    obtain ⟨gap', rest, rfl, hgap', hrest⟩ := hclose.split_cons
    cases hrest
    have hnot {c : Char} (hc : c ∈ ['[', ']', '\x7b', '\x7d', ';']) (hblank : isBlank c = false) :
        c ∉ gap ++ inside := by
      refine List.not_mem_append (hgap.not_mem hblank) (hinside.not_mem hblank fun t ht => ?_)
      obtain ⟨p, -, rfl⟩ := List.mem_map.1 ht
      exact p.property c hc
    have hcut : outsideBrackets 0 ('[' :: (gap ++ inside ++ ']' :: (gap' ++ ys))) =
        gap' ++ outsideBrackets 0 ys := by
      rw [outsideBrackets, outsideBrackets_inside (hnot (by simp) rfl) (hnot (by simp) rfl),
        outsideBrackets_append (hgap'.not_mem rfl) (hgap'.not_mem rfl)]
    simp only [Token.chars, List.append_assoc, List.cons_append, List.nil_append,
      List.append_nil] at hcut ⊢
    rw [hcut]
    exact List.forall_mem_append.2 ⟨hgap', ih hys⟩

/-- Between blanks stand the words. -/
theorem Spaced.words_eq (h : Spaced Blanks (ws.map .word) cs)
    (hws : ∀ w ∈ ws, w ≠ [] ∧ ∀ c ∈ w, isIdentChar c = true) (hrest : Blanks rest) :
    words (fun c => !isIdentChar c) (cs ++ rest) = ws := by
  have hcut {c : Char} (hc : isIdentChar c = false) : (!isIdentChar c) = true := by simp [hc]
  have hend : words (fun c => !isIdentChar c) rest = [] := by
    have hblank : words (fun c => !isIdentChar c) (rest ++ []) = words _ [] :=
      words_gap fun c hc => hcut (isIdentChar_of_isBlank (hrest c hc))
    rw [List.append_nil] at hblank
    rw [hblank]
    rfl
  induction ws generalizing cs with
  | nil =>
    cases h
    exact hend
  | cons w ws ih =>
    obtain ⟨⟨hne, hw⟩, hws⟩ := List.forall_mem_cons.1 hws
    cases h with
    | @cons _ _ gap cs hgap hapart h =>
      have hhead : ∀ c ∈ (gap ++ (cs ++ rest)).head?, isIdentChar c = false :=
        h.head_behind hgap hapart rfl (by simp) fun c hc =>
          isIdentChar_of_isBlank (hrest c (List.mem_of_mem_head? hc))
      rw [List.append_assoc, List.append_assoc, Token.chars,
        words_word hne (fun c hc => by simp [hw c hc]) fun c hc => hcut (hhead c hc),
        words_gap fun c hc => hcut (isIdentChar_of_isBlank (hgap c hc)), ih h hws]

theorem LayoutDeclaration.isWord (d : LayoutDeclaration) :
    ∀ w ∈ d.declared, w ≠ [] ∧ ∀ c ∈ w, isIdentChar c = true := by
  intro w hw
  obtain ⟨v, -, rfl⟩ := List.mem_map.1 hw
  exact v.property

/-- **The last word outside brackets is the name.** -/
theorem LayoutDeclaration.declaredName?_eq (d : LayoutDeclaration) {ds : List Char}
    (h : Spaced Blanks (d.declared.map .word) cs)
    (harrays : Spaced Blanks (d.arrays.flatMap arrayTokens) ds) (hlead : Blanks lead) :
    declaredName? (lead ++ (cs ++ ds)) = some (String.ofList d.name.val) := by
  have hnot {c : Char} (hident : isIdentChar c = false) (hblank : isBlank c = false) :
      c ∉ lead ++ cs := by
    refine List.not_mem_append (hlead.not_mem hblank) (h.not_mem hblank fun t ht => ?_)
    obtain ⟨w, hw, rfl⟩ := List.mem_map.1 ht
    exact Word.not_mem ⟨w, d.isWord w hw⟩ hident
  have hwords : Text.words (fun c => !isIdentChar c) (outsideBrackets 0 (lead ++ (cs ++ ds))) =
      d.declared := by
    rw [← List.append_assoc, outsideBrackets_append (hnot rfl rfl) (hnot rfl rfl),
      List.append_assoc, words_gap fun c hc => by simp [isIdentChar_of_isBlank (hlead c hc)],
      h.words_eq d.isWord harrays.outside_arrays]
  change (Text.words _ _).getLast?.map String.ofList = _
  rw [hwords]
  simp [declared]

end

/-! ## Finding declarations -/

namespace LayoutDeclaration

/-- What a declaration asks for: its slot and its name, if it is one of set 0. -/
def request? (d : LayoutDeclaration) : Option (Nat × String) :=
  if d.inSetZero then some (d.binding, String.ofList d.name.val) else none

variable {d : LayoutDeclaration} {before : Option Char} {cs lead ds es rest : List Char}

theorem inert_arrays (d : LayoutDeclaration) :
    ∀ t ∈ d.arrays.flatMap arrayTokens, t.Inert ∧ '/' ∉ t.chars := by
  intro t ht
  obtain ⟨pieces, -, ht⟩ := List.mem_flatMap.1 ht
  simp only [arrayTokens, List.mem_append, List.mem_cons, List.mem_map, List.not_mem_nil,
    or_false] at ht
  rcases ht with (rfl | ⟨p, -, rfl⟩) | rfl
  · exact ⟨rfl, by decide⟩
  · exact p.val.property.symm
  · exact ⟨rfl, by decide⟩

theorem inert_ending (e : Ending) : ∀ t ∈ e.tokens, t.Inert ∧ '/' ∉ t.chars := by
  intro t ht
  cases e with
  | plain => cases ht
  | block body name =>
    simp only [Ending.tokens, List.mem_append, List.mem_cons, List.mem_map] at ht
    rcases ht with (rfl | ⟨p, -, rfl⟩) | rfl | ⟨p, -, rfl⟩
    · exact ⟨rfl, by decide⟩
    · exact p.property.symm
    · exact ⟨rfl, by decide⟩
    · exact p.property.symm

theorem noSlash (d : LayoutDeclaration) : ∀ t ∈ d.tokens, '/' ∉ t.chars := by
  intro t ht
  simp only [tokens, List.mem_cons, List.mem_append, List.not_mem_nil, or_false] at ht
  rcases ht with rfl | rfl | ht | rfl | ht | ht | ht | rfl
  · decide
  · decide
  · exact not_mem_qualifierTokens rfl (by decide) (by decide) t ht
  · decide
  · obtain ⟨w, hw, rfl⟩ := List.mem_map.1 ht
    exact Word.not_mem ⟨w, d.isWord w hw⟩ rfl
  · exact (d.inert_arrays t ht).2
  · exact (inert_ending d.ending t ht).2
  · decide

/-- A block or the semicolon ends what is declared. -/
theorem ending_starts {e : Ending} (h : Spaced Blanks (e.tokens ++ [.mark ';']) cs) :
    ∃ c tl, cs = c :: tl ∧ (c = '\x7b' ∨ c = ';') := by
  cases e with
  | plain =>
    obtain ⟨gap, rest, rfl, -, -⟩ := h.split_cons
    exact ⟨';', _, rfl, .inr rfl⟩
  | block body name =>
    obtain ⟨gap, rest, rfl, -, -⟩ := h.split_cons
    exact ⟨'\x7b', _, rfl, .inl rfl⟩

/-- Brackets may stand before that. -/
theorem tail_starts (harrays : Spaced Blanks (d.arrays.flatMap arrayTokens) ds)
    (hending : Spaced Blanks (d.ending.tokens ++ [.mark ';']) es) :
    ∃ c tl, ds ++ es = c :: tl ∧ (c = '[' ∨ c = '\x7b' ∨ c = ';') := by
  cases hd : d.arrays with
  | nil =>
    rw [hd] at harrays
    cases harrays
    obtain ⟨c, tl, rfl, hc⟩ := ending_starts hending
    exact ⟨c, tl, rfl, .inr hc⟩
  | cons pieces arrays =>
    rw [hd] at harrays
    obtain ⟨gap, rest, rfl, -, -⟩ := harrays.split_cons
    exact ⟨'[', _, rfl, .inl rfl⟩

theorem not_mem_arrays (d : LayoutDeclaration) {c : Char} (hc : c = '\x7b' ∨ c = ';') :
    ∀ t ∈ d.arrays.flatMap arrayTokens, c ∉ t.chars := by
  intro t ht
  obtain ⟨pieces, -, ht⟩ := List.mem_flatMap.1 ht
  simp only [arrayTokens, List.mem_append, List.mem_cons, List.mem_map, List.not_mem_nil,
    or_false] at ht
  rcases ht with (rfl | ⟨p, -, rfl⟩) | rfl
  · rcases hc with rfl | rfl <;> decide
  · exact p.property c (by rcases hc with rfl | rfl <;> simp)
  · rcases hc with rfl | rfl <;> decide

/-- What is declared reaches to the block or the semicolon. -/
theorem takeWhile_declared (hlead : Blanks lead) (h : Spaced Blanks (d.declared.map .word) cs)
    (harrays : Spaced Blanks (d.arrays.flatMap arrayTokens) ds)
    (hending : Spaced Blanks (d.ending.tokens ++ [.mark ';']) es) :
    (lead ++ (cs ++ (ds ++ (es ++ rest)))).takeWhile (fun c => c != '\x7b' && c != ';') =
      lead ++ (cs ++ ds) := by
  have hnot {c : Char} (hc : c = '\x7b' ∨ c = ';') : c ∉ lead ++ (cs ++ ds) := by
    have hother : isIdentChar c = false ∧ isBlank c = false := by
      rcases hc with rfl | rfl <;> exact ⟨rfl, rfl⟩
    refine List.not_mem_append (hlead.not_mem hother.2) (List.not_mem_append ?_ ?_)
    · refine h.not_mem hother.2 fun t ht => ?_
      obtain ⟨w, hw, rfl⟩ := List.mem_map.1 ht
      exact Word.not_mem ⟨w, d.isWord w hw⟩ hother.1
    · exact harrays.not_mem hother.2 (d.not_mem_arrays hc)
  have hkept : ∀ c ∈ lead ++ (cs ++ ds), (c != '\x7b' && c != ';') = true := by
    intro c hc
    simp only [Bool.and_eq_true, bne_iff_ne]
    exact ⟨fun heq => hnot (.inl heq) hc, fun heq => hnot (.inr heq) hc⟩
  obtain ⟨c, tl, rfl, hc⟩ := ending_starts hending
  have hsplit : lead ++ (cs ++ (ds ++ (c :: tl ++ rest))) =
      lead ++ (cs ++ ds) ++ c :: (tl ++ rest) := by
    simp only [List.append_assoc, List.cons_append]
  rw [hsplit, List.takeWhile_append_of_pos hkept, List.takeWhile_cons_of_neg, List.append_nil]
  rcases hc with rfl | rfl <;> simp

/-- **Behind its qualifiers, a declaration is passed over**, and no word reaches beyond it. -/
theorem passes (hlead : Blanks lead) (h : Spaced Blanks (d.declared.map .word) cs)
    (harrays : Spaced Blanks (d.arrays.flatMap arrayTokens) ds)
    (hending : Spaced Blanks (d.ending.tokens ++ [.mark ';']) es) (before : Option Char)
    (rest : List Char) :
    Passes (lead ++ (cs ++ (ds ++ es))) rest ∧
      (behind before (lead ++ (cs ++ (ds ++ es)))).any isIdentChar = false := by
  obtain ⟨c, tl, hstart, hc⟩ := tail_starts harrays hending
  obtain ⟨c', tl', hstart', hc'⟩ := ending_starts hending
  obtain ⟨xs, ys, rfl, hxs, hys⟩ := hending.split
  obtain ⟨gap, nothing, rfl, hgap, hnothing⟩ := hys.split_cons
  cases hnothing
  have hwords : Passes cs (ds ++ (xs ++ (Token.chars (.mark ';') ++ gap ++ [])) ++ rest) := by
    rw [hstart]
    refine h.passes_words d.isWord (fun x hx => ?_) ?_
    · obtain rfl := Option.some.inj hx
      rcases hc with rfl | rfl | rfl <;> rfl
    · rw [List.cons_append, Opens, List.dropWhile_cons_of_neg]
      · rcases hc with rfl | rfl | rfl <;> simp
      · rcases hc with rfl | rfl | rfl <;> decide
  have hbrackets : Passes ds (xs ++ (Token.chars (.mark ';') ++ gap ++ []) ++ rest) := by
    rw [hstart']
    refine harrays.passes_inert (fun t ht => (d.inert_arrays t ht).1) fun x hx => ?_
    obtain rfl := Option.some.inj hx
    rcases hc' with rfl | rfl <;> rfl
  have hblock : Passes xs (Token.chars (.mark ';') ++ gap ++ [] ++ rest) := by
    refine hxs.passes_inert (fun t ht => (inert_ending d.ending t ht).1) fun x hx => ?_
    obtain rfl := Option.some.inj hx
    rfl
  have hlast : Passes (Token.chars (.mark ';') ++ gap ++ []) rest := by
    rw [List.append_nil]
    exact Passes.append (.mark rfl) (.blanks hgap)
  refine ⟨(Passes.blanks hlead).append (hwords.append (hbrackets.append (hblock.append hlast))), ?_⟩
  rw [behind_append, behind_append, behind_append, behind_append, List.append_nil, behind_append]
  exact behind_blanks hgap rfl

/-- **A declaration is found as it was declared**, and the search goes on behind it. -/
theorem found (h : Spaced Blanks d.tokens cs) (hbefore : before.any isIdentChar = false) :
    ∃ (e : Declaration) (before' : Option Char), e.request? = d.request? ∧
      before'.any isIdentChar = false ∧
      ∀ rest, declarationsFrom before 0 (cs ++ rest) = e :: declarationsFrom before' 0 rest := by
  obtain ⟨gap, cs, rfl, hgap, h⟩ := h.split_cons
  obtain ⟨open', cs, rfl, hopen, h⟩ := h.split_cons
  obtain ⟨qs, cs, rfl, hqs, h⟩ := h.split
  obtain ⟨lead, cs, rfl, hlead, h⟩ := h.split_cons
  obtain ⟨ws, cs, rfl, hws, h⟩ := h.split
  obtain ⟨ds, es, rfl, hds, hes⟩ := h.split
  have hqualifiers : ')' ∉ open' ++ qs := List.not_mem_append (hopen.not_mem rfl)
    (hqs.not_mem rfl (not_mem_qualifierTokens rfl (by decide) (by decide)))
  obtain ⟨-, hbehind⟩ := passes hlead hws hds hes (some ')') []
  refine ⟨⟨open' ++ qs, lead ++ (ws ++ ds)⟩, _, ?_, hbehind, fun rest => ?_⟩
  · rw [Declaration.request?, d.slot?_eq hqs hopen, d.declaredName?_eq hws hds hlead, request?]
    split <;> rfl
  · have hfound := declarationsFrom_declaration hbefore hgap hqualifiers
      (lead ++ (ws ++ (ds ++ (es ++ rest))))
    have hpasses := (passes hlead hws hds hes none rest).1 (some ')')
    rw [takeWhile_declared hlead hws hds hes] at hfound
    simp only [Token.chars, List.append_assoc, List.cons_append, List.nil_append]
      at hfound hpasses ⊢
    rw [hfound, hpasses]

end LayoutDeclaration

/-- **Of a row of declarations all are found.** -/
theorem entries_of_spaced {ds : List LayoutDeclaration} {before : Option Char} {cs : List Char}
    (h : Spaced Blanks (ds.flatMap LayoutDeclaration.tokens) cs)
    (hbefore : before.any isIdentChar = false) :
    (declarationsFrom before 0 cs).filterMap Declaration.request? =
      ds.filterMap LayoutDeclaration.request? := by
  induction ds generalizing before cs with
  | nil =>
    cases h
    rfl
  | cons d ds ih =>
    rw [List.flatMap_cons] at h
    obtain ⟨xs, ys, rfl, hxs, hys⟩ := h.split
    obtain ⟨e, before', hentry, hbefore', hfound⟩ := LayoutDeclaration.found hxs hbefore
    rw [hfound, List.filterMap_cons, List.filterMap_cons, hentry, ih hys hbefore']

/-- What is found in a rendered source is what was rendered. -/
theorem entries_of_renders {ds : List LayoutDeclaration} {source : String}
    (h : Renders ds source.toList) : entries source = ds.filterMap LayoutDeclaration.request? := by
  obtain ⟨lead, body, tail, hsource, hlead, hbody, htail⟩ := h
  obtain ⟨gap, hgap, -, hlead⟩ := hlead.strip
  obtain ⟨left, hleft, hbody⟩ := hbody.strip (List.forall_mem_flatMap.2 fun d _ => d.noSlash)
  have hend : stripFrom .code tail = [] := by
    rcases htail with rfl | ⟨text, htext, rfl⟩
    · rfl
    · rw [stripFrom, stripFrom_openComment htext]
  rw [entries, found, hsource, stripComments, hlead, hbody, hend, List.append_nil, declarations,
    Passes.blanks hgap none, entries_of_spaced hleft (behind_blanks hgap rfl)]

theorem lookup_entries (ds : List LayoutDeclaration) (slot : Nat) :
    (ds.filterMap LayoutDeclaration.request?).lookup slot =
      (ds.find? fun d => d.inSetZero && d.binding == slot).map
        fun d => String.ofList d.name.val := by
  induction ds with
  | nil => rfl
  | cons d ds ih =>
    rw [List.filterMap_cons, List.find?_cons, LayoutDeclaration.request?]
    cases d.inSetZero with
    | false => exact ih
    | true =>
      rw [if_pos rfl, List.lookup_cons, Bool.true_and]
      by_cases hslot : d.binding = slot
      · simp [hslot]
      · rw [beq_eq_false_iff_ne.2 hslot, beq_eq_false_iff_ne.2 (Ne.symm hslot)]
        exact ih

/-- **The scan undoes the rendering** of any declarations, with any blanks and comments: it ends in
the table that gives each slot the name of the first declaration of set 0 that binds it. -/
theorem scan_rendered {ds : List LayoutDeclaration} {source : String}
    (h : Renders ds source.toList) : ∃ table, (scan source).result = .ok table ∧ table.Sorted ∧
      ∀ slot, table.find? slot = (ds.find? fun d => d.inSetZero && d.binding == slot).map
        fun d => String.ofList d.name.val := by
  obtain ⟨table, hscan, hsorted, hfind⟩ := scan_spec source
  refine ⟨table, hscan, hsorted, fun slot => ?_⟩
  rw [hfind, entries_of_renders h, lookup_entries]

/-! ### Two inks and a foreign set -/

/-- Every declaration can be written: any gap will do behind each token, if there is one. -/
theorem renders_of_gap {gap : List Char} (hgap : Gap gap) (hne : gap ≠ [])
    (ds : List LayoutDeclaration) :
    Renders ds ((ds.flatMap LayoutDeclaration.tokens).flatMap fun t => t.chars ++ gap) := by
  have hspaced (ts : List Token) : Spaced Gap ts (ts.flatMap fun t => t.chars ++ gap) := by
    induction ts with
    | nil => exact .nil
    | cons t ts ih => exact .cons hgap (fun _ => hne) ih
  exact ⟨[], _, [], by simp, .nil, hspaced _, .inl rfl⟩

theorem HasKeyword.mem {cs : List Char} (h : HasKeyword cs) : 'l' ∈ cs := by
  obtain ⟨before, behind, rfl, -⟩ := h
  simp [keyword]

namespace Inkwell

def word (cs : List Char) (hne : cs ≠ []) (h : cs.all isIdentChar = true) : Word :=
  ⟨cs, hne, List.all_eq_true.1 h⟩

def digit (c : Char) (h : c.isDigit = true) : Digits :=
  ⟨[c], by simp, List.forall_mem_singleton.2 h⟩

def seven : Qualifier :=
  ⟨word bindingKey (by decide) rfl, some (digit '7' rfl), fun _ => ⟨_, rfl, by decide⟩⟩

def foreign : Qualifier :=
  ⟨word setKey (by decide) rfl, some (digit '1' rfl), fun _ => ⟨_, rfl, by decide⟩⟩

def packed : Qualifier :=
  ⟨word ['s', 't', 'd'] (by decide) rfl, none, by decide⟩

def uniform : Word := word ['u', 'n', 'i', 'f', 'o', 'r', 'm'] (by decide) rfl

def piece (cs : List Char) (h : '/' ∉ cs ∧ 'l' ∉ cs) : Piece := ⟨cs, h.1, fun hk => h.2 hk.mem⟩

/-- A blot of another set, a block and an array, all at one slot. -/
def declarations : List LayoutDeclaration := [
  { qualifiers := [foreign, seven]
    binding := 7
    set := some 1
    binds := rfl
    sets := rfl
    words := [uniform]
    name := word ['B', 'l', 'o', 't'] (by decide) rfl
    arrays := []
    ending := .plain },
  { qualifiers := [packed, seven]
    binding := 7
    set := none
    binds := rfl
    sets := rfl
    words := [uniform]
    name := word ['I', 'n', 'k'] (by decide) rfl
    arrays := []
    ending := .block [piece ['v', 'e', 'c', '4', ' ', 't', ';'] (by decide)]
      [piece ['i', 'n', 'k'] (by decide)] },
  { qualifiers := [seven]
    binding := 7
    set := none
    binds := rfl
    sets := rfl
    words := [uniform]
    name := word ['S', 't', 'a', 'i', 'n'] (by decide) rfl
    arrays := [[⟨piece ['2'] (by decide), by simp [piece]⟩]]
    ending := .plain }]

/-- A comment behind every token. -/
def source : List Char :=
  (declarations.flatMap LayoutDeclaration.tokens).flatMap fun t => t.chars ++ ['/', '*', '*', '/']

theorem gap : Gap ['/', '*', '*', '/'] :=
  .blockComment (by decide : ¬['*', '/'] <:+: []) .nil

theorem renders : Renders declarations source := renders_of_gap gap (by simp) declarations

end Inkwell

/-- The block is the first of set 0. -/
theorem scan_rendered_ink : Renders Inkwell.declarations (String.ofList Inkwell.source).toList ∧
    ∃ table, (scan (String.ofList Inkwell.source)).result = .ok table ∧ table.Sorted ∧
      table.find? 7 = some (String.ofList ['I', 'n', 'k']) ∧ table.find? 1 = none := by
  have hrenders : Renders Inkwell.declarations (String.ofList Inkwell.source).toList := by
    rw [String.toList_ofList]
    exact Inkwell.renders
  obtain ⟨table, hscan, hsorted, hfind⟩ := scan_rendered hrenders
  refine ⟨hrenders, table, hscan, hsorted, ?_, ?_⟩
  · rw [hfind]
    rfl
  · rw [hfind]
    rfl

end FrameGraph.SourceScan
