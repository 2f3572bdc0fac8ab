import FrameGraph.Proofs.Spacing
import FrameGraph.Proofs.Words

/-!
# Where declarations are found

The search passes over a text in which the keyword is no word of its own (`Passes.text`), and over
the keyword itself unless a parenthesis opens behind it (`Passes.words`). Where one does, it finds a
declaration and goes on behind the closing parenthesis (`declarationsFrom_declaration`).
-/

set_option autoImplicit false

namespace FrameGraph.SourceScan

open FrameGraph.Text

/-! ## Letters and blanks -/

section
variable {c : Char}

theorem isIdentChar_eq (c : Char) : isIdentChar c =
    (decide (65 ≤ c.val ∧ c.val ≤ 90) || (decide (97 ≤ c.val) && decide (c.val ≤ 122)) ||
      (decide (48 ≤ c.val) && decide (c.val ≤ 57)) || c == '_') := rfl

theorem isBlank_of_isIdentChar (h : isIdentChar c = true) : isBlank c = false := by
  have hrange : (48 ≤ c.toNat ∧ c.toNat ≤ 57) ∨ (65 ≤ c.toNat ∧ c.toNat ≤ 90) ∨
      (97 ≤ c.toNat ∧ c.toNat ≤ 122) ∨ c.toNat = 95 := by
    simp only [isIdentChar_eq, Bool.or_eq_true, Bool.and_eq_true, decide_eq_true_eq, beq_iff_eq,
      UInt32.le_iff_toNat_le] at h
    rcases h with ((h | h) | h) | rfl
    · exact .inr (.inl h)
    · exact .inr (.inr (.inl h))
    · exact .inl h
    · exact .inr (.inr (.inr rfl))
  simp only [isBlank, Bool.or_eq_false_iff, Bool.and_eq_false_iff, decide_eq_false_iff_not,
    beq_eq_false_iff_ne]
  omega

theorem isIdentChar_of_isBlank (h : isBlank c = true) : isIdentChar c = false := by
  by_contra hc
  rw [isBlank_of_isIdentChar (by simpa using hc)] at h
  cases h

theorem isIdentChar_of_isDigit (h : c.isDigit = true) : isIdentChar c = true := by
  simp [isIdentChar, Char.isAlphanum, h]

theorem isIdentChar_keyword : ∀ c ∈ keyword, isIdentChar c = true := List.all_eq_true.1 rfl

end

/-! ## What begins at one place -/

/-- Whether the keyword stands in a text as a word of its own. -/
def HasKeyword (cs : List Char) : Prop :=
  ∃ before behind, cs = before ++ keyword ++ behind ∧
    (∀ c ∈ before.getLast?, isIdentChar c = false) ∧ ∀ c ∈ behind.head?, isIdentChar c = false

/-- Whether a parenthesis opens behind the blanks of a text. -/
def Opens (cs : List Char) : Prop := (cs.dropWhile isBlank).head? = some '('

section
variable {before : Option Char} {cs ds gap rest : List Char} {c : Char}

theorem HasKeyword.eq (h : HasKeyword cs) (hcs : ∀ c ∈ cs, isIdentChar c = true) :
    cs = keyword := by
  obtain ⟨x, y, rfl, hx, hy⟩ := h
  have hnone {l : List Char} {c? : Option Char} (hc? : ∀ c ∈ c?, c ∈ l)
      (hl : ∀ c ∈ l, isIdentChar c = true) (hother : ∀ c ∈ c?, isIdentChar c = false) :
      c? = none := by
    refine Option.eq_none_iff_forall_not_mem.2 fun c hc => ?_
    have hident := hl c (hc? c hc)
    rw [hother c hc] at hident
    cases hident
  have hx' : x.getLast? = none :=
    hnone (fun c hc => List.mem_of_mem_getLast? hc) (fun c hc => hcs c (by simp [hc])) hx
  have hy' : y.head? = none :=
    hnone (fun c hc => List.mem_of_mem_head? hc) (fun c hc => hcs c (by simp [hc])) hy
  rw [List.getLast?_eq_none_iff.1 hx', List.head?_eq_none_iff.1 hy', List.nil_append,
    List.append_nil]

theorem opens_gap (hgap : Blanks gap) : Opens (gap ++ rest) ↔ Opens rest := by
  rw [Opens, List.dropWhile_append_of_pos hgap, Opens]

theorem not_opens_cons (hc : isIdentChar c = true) : ¬Opens (c :: cs) := by
  rw [Opens, List.dropWhile_cons_of_neg (by simp [isBlank_of_isIdentChar hc])]
  rintro h
  obtain rfl := Option.some.inj h
  cases hc

theorem occurrenceAt_of_ident (h : before.any isIdentChar = true) :
    occurrenceAt before cs = .nothing := by
  rw [occurrenceAt, if_pos h]

theorem occurrenceAt_of_other (h : ¬keyword <+: cs) : occurrenceAt before cs = .nothing := by
  have hnone : stripHead? keyword cs = none := by
    rw [stripHead?, if_neg (by rwa [List.isPrefixOf_iff_prefix])]
  unfold occurrenceAt
  split
  · rfl
  · rw [hnone]

theorem stripHead?_append (head : List Char) : stripHead? head (head ++ rest) = some rest := by
  rw [stripHead?, if_pos (List.isPrefixOf_iff_prefix.2 (List.prefix_append _ _)),
    List.drop_left]

theorem occurrenceAt_of_not_opens (h : ¬Opens rest) :
    occurrenceAt before (keyword ++ rest) = .nothing := by
  unfold occurrenceAt
  split
  · rfl
  · rw [stripHead?_append]
    dsimp only
    split
    · next inside heq =>
      exact absurd (by rw [Opens, heq]; rfl) h
    · rfl

/-- What begins with the keyword does so in front of what cannot belong to a word. -/
theorem keyword_prefix (h : keyword <+: cs ++ rest)
    (hrest : ∀ c ∈ rest.head?, isIdentChar c = false) : keyword <+: cs := by
  by_contra hnot
  rcases Nat.lt_or_ge cs.length keyword.length with hlt | hge
  · obtain ⟨tail, htail⟩ := h
    have hnext : (cs ++ rest)[cs.length]? = rest.head? := by
      rw [List.getElem?_append_right (Nat.le_refl _), Nat.sub_self, List.head?_eq_getElem?]
    have hsame : (keyword ++ tail)[cs.length]? = some keyword[cs.length] := by
      rw [List.getElem?_append_left hlt, List.getElem?_eq_getElem hlt]
    rw [htail, hnext] at hsame
    have hident := isIdentChar_keyword _ (List.getElem_mem hlt)
    rw [hrest _ hsame] at hident
    cases hident
  · exact hnot (List.prefix_of_prefix_length_le h (List.prefix_append _ _) hge)

/-! ## Going on -/

/-- The character in front of what follows a text. -/
def behind (before : Option Char) (cs : List Char) : Option Char := cs.getLast?.or before

theorem behind_cons : behind before (c :: cs) = behind (some c) cs := by
  rw [behind, behind, List.getLast?_cons]
  cases cs.getLast? <;> rfl

theorem behind_append : behind before (cs ++ ds) = behind (behind before cs) ds := by
  rw [behind, behind, behind, List.getLast?_append, Option.or_assoc]

theorem behind_blanks (hgap : Blanks gap) (h : before.any isIdentChar = false) :
    (behind before gap).any isIdentChar = false := by
  rw [behind]
  cases hc : gap.getLast? with
  | none => exact h
  | some c => exact isIdentChar_of_isBlank (hgap c (List.mem_of_getLast? hc))

theorem declarationsFrom_skip (cs rest : List Char) :
    declarationsFrom before cs.length (cs ++ rest) =
      declarationsFrom (behind before cs) 0 rest := by
  induction cs generalizing before with
  | nil => rfl
  | cons c cs ih =>
    rw [List.length_cons, List.cons_append, declarationsFrom, ih, behind_cons]

/-- It is enough to look at all places of a text. -/
theorem declarationsFrom_of_nothing (h : ∀ x c y, cs = x ++ c :: y →
      occurrenceAt (behind before x) (c :: (y ++ rest)) = .nothing) :
    declarationsFrom before 0 (cs ++ rest) = declarationsFrom (behind before cs) 0 rest := by
  induction cs generalizing before with
  | nil => rfl
  | cons c cs ih =>
    have hc : occurrenceAt before (c :: (cs ++ rest)) = .nothing := h [] c cs rfl
    rw [List.cons_append, declarationsFrom, hc, behind_cons]
    refine ih fun x d y hsplit => ?_
    rw [← behind_cons]
    exact h (c :: x) d y (by rw [hsplit, List.cons_append])

/-- Whether the search finds nothing in a text, with this behind it. -/
def Passes (cs rest : List Char) : Prop := ∀ before,
  declarationsFrom before 0 (cs ++ rest) = declarationsFrom (behind before cs) 0 rest

namespace Passes

theorem nil : Passes [] rest := fun _ => rfl

theorem append (h : Passes cs (ds ++ rest)) (h' : Passes ds rest) : Passes (cs ++ ds) rest := by
  intro before
  rw [List.append_assoc, h, h', behind_append]

/-- Without the first letter of the keyword, nothing begins. -/
theorem of_not_mem (h : 'l' ∉ cs) : Passes cs rest := by
  refine fun before => declarationsFrom_of_nothing fun x c y hsplit => occurrenceAt_of_other ?_
  rintro ⟨tail, htail⟩
  obtain rfl : 'l' = c := (List.cons.inj htail).1
  exact h (by simp [hsplit])

theorem blanks (hgap : Blanks gap) : Passes gap rest := by
  refine of_not_mem fun hl => ?_
  cases hgap 'l' hl

theorem mark (hc : isIdentChar c = false) : Passes [c] rest := by
  refine of_not_mem fun hl => ?_
  obtain rfl := List.mem_singleton.1 hl
  cases hc

/-- **The keyword is passed over** within a longer word, and as a word of its own where nothing
opens behind it. -/
theorem text (hrest : ∀ c ∈ rest.head?, isIdentChar c = false)
    (hkeyword : HasKeyword cs → cs = keyword ∧ ¬Opens rest) : Passes cs rest := by
  refine fun before => declarationsFrom_of_nothing fun x c y hsplit => ?_
  by_cases hbefore : (behind before x).any isIdentChar = true
  · exact occurrenceAt_of_ident hbefore
  · by_cases hprefix : keyword <+: c :: y ++ rest
    · obtain ⟨z, hz⟩ := keyword_prefix hprefix hrest
      rw [← List.cons_append, ← hz, List.append_assoc]
      refine occurrenceAt_of_not_opens ?_
      rw [← hz, ← List.append_assoc] at hsplit
      by_cases hword : ∀ c ∈ z.head?, isIdentChar c = false
      · have hx : ∀ c ∈ x.getLast?, isIdentChar c = false := by
          intro c hc
          by_contra hident
          refine hbefore ?_
          rw [behind, Option.mem_def.1 hc]
          simpa using hident
        obtain ⟨heq, hopens⟩ := hkeyword ⟨x, z, hsplit, hx, hword⟩
        -- the word is all of the text
        have hlength := congrArg List.length (hsplit.symm.trans heq)
        simp only [List.length_append] at hlength
        obtain rfl : z = [] := List.length_eq_zero_iff.1 (by omega)
        exact hopens
      · cases z with
        | nil => simp at hword
        | cons d z => exact not_opens_cons (by simpa using hword)
    · exact occurrenceAt_of_other hprefix

end Passes

/-! ## Rows of tokens -/

/-- Whether nothing in the token looks like a declaration. -/
def Token.Inert : Token → Prop
  | .word _ => False
  | .mark c => isIdentChar c = false
  | .text cs => ¬HasKeyword cs

/-- Behind a token that is no mark stands nothing that could belong to a word. -/
theorem Spaced.head_behind {t : Token} {ts : List Token} (hgap : Blanks gap)
    (hapart : t.Touches ts → gap ≠ []) (ht : t.isMark = false) (h : Spaced Blanks ts cs)
    (hmarks : ∀ c, .mark c ∈ ts → isIdentChar c = false)
    (hrest : ∀ c ∈ rest.head?, isIdentChar c = false) :
    ∀ c ∈ (gap ++ (cs ++ rest)).head?, isIdentChar c = false := by
  cases gap with
  | cons d gap =>
    intro c hc
    obtain rfl := Option.some.inj hc
    exact isIdentChar_of_isBlank (hgap d List.mem_cons_self)
  | nil =>
    cases h with
    | nil => exact hrest
    | @cons u us gap' rest' _ _ _ =>
      cases u with
      | mark d =>
        intro c hc
        obtain rfl := Option.some.inj hc
        exact hmarks d List.mem_cons_self
      | word w => exact absurd rfl (hapart ⟨ht, _, rfl, rfl⟩)
      | text w => exact absurd rfl (hapart ⟨ht, _, rfl, rfl⟩)

/-- **Marks and texts without the keyword are passed over.** -/
theorem Spaced.passes_inert {ts : List Token} (h : Spaced Blanks ts cs) (hts : ∀ t ∈ ts, t.Inert)
    (hrest : ∀ c ∈ rest.head?, isIdentChar c = false) : Passes cs rest := by
  induction h with
  | nil => exact .nil
  | @cons t ts gap cs hgap hapart h ih =>
    obtain ⟨ht, hbehind⟩ := List.forall_mem_cons.1 hts
    have hmarks : ∀ c, .mark c ∈ ts → isIdentChar c = false := fun c hc => hbehind _ hc
    rw [List.append_assoc]
    refine Passes.append ?_ (Passes.append (.blanks hgap) (ih hbehind))
    cases t with
    | mark c => exact .mark ht
    | word w => exact absurd ht id
    | text w =>
      refine .text ?_ fun hkeyword => absurd hkeyword ht
      rw [List.append_assoc]
      exact h.head_behind hgap hapart rfl (fun c hc => hmarks c hc) hrest

/-- **Words are passed over** if no parenthesis opens behind them. -/
theorem Spaced.passes_words {ws : List (List Char)} (h : Spaced Blanks (ws.map .word) cs)
    (hws : ∀ w ∈ ws, w ≠ [] ∧ ∀ c ∈ w, isIdentChar c = true)
    (hrest : ∀ c ∈ rest.head?, isIdentChar c = false) (hopens : ¬Opens rest) :
    Passes cs rest := by
  induction ws generalizing cs with
  | nil =>
    cases h
    exact .nil
  | cons w ws ih =>
    cases h with
    | @cons _ _ gap cs hgap hapart h =>
      obtain ⟨⟨-, hw⟩, hws⟩ := List.forall_mem_cons.1 hws
      have hbehind : Passes (gap ++ cs) rest := Passes.append (.blanks hgap) (ih h hws)
      rw [List.append_assoc]
      refine Passes.append (.text ?_ fun hkeyword => ⟨hkeyword.eq hw, ?_⟩) hbehind
      · rw [List.append_assoc]
        exact h.head_behind hgap hapart rfl (by simp) hrest
      · rw [List.append_assoc, opens_gap hgap]
        cases ws with
        | nil =>
          cases h
          exact hopens
        | cons v vs =>
          obtain ⟨⟨hne, hv⟩, -⟩ := List.forall_mem_cons.1 hws
          obtain ⟨gap', cs', rfl, -, -⟩ := h.split_cons
          obtain ⟨d, v, rfl⟩ := List.exists_cons_of_ne_nil hne
          exact not_opens_cons (hv d List.mem_cons_self)

/-! ## A declaration -/

variable {qualifiers after : List Char}

theorem occurrenceAt_declaration (hbefore : before.any isIdentChar = false) (hgap : Blanks gap)
    (hqualifiers : ')' ∉ qualifiers) (after : List Char) :
    occurrenceAt before (keyword ++ (gap ++ '(' :: (qualifiers ++ ')' :: after))) =
      .declaration ⟨qualifiers, after.takeWhile fun c => c != '\x7b' && c != ';'⟩
        (keyword.length + gap.length + qualifiers.length + 2) := by
  have hinside : (gap ++ '(' :: (qualifiers ++ ')' :: after)).dropWhile isBlank =
      '(' :: (qualifiers ++ ')' :: after) := dropWhile_gap hgap (by simp; rfl)
  rw [occurrenceAt, if_neg (by simp [hbefore]), stripHead?_append]
  simp only [hinside, splitOnce?_append hqualifiers]
  congr 1
  simp only [List.length_append, List.length_cons]
  omega

theorem declarationsFrom_found {d : Declaration}
    (h : occurrenceAt before (c :: (cs ++ after)) = .declaration d (cs.length + 1)) :
    declarationsFrom before 0 (c :: (cs ++ after)) =
      d :: declarationsFrom (behind (some c) cs) 0 after := by
  rw [declarationsFrom, h]
  dsimp only
  rw [Nat.add_sub_cancel, declarationsFrom_skip]

/-- **The search goes on behind the closing parenthesis.** -/
theorem declarationsFrom_declaration (hbefore : before.any isIdentChar = false)
    (hgap : Blanks gap) (hqualifiers : ')' ∉ qualifiers) (after : List Char) :
    declarationsFrom before 0 (keyword ++ (gap ++ '(' :: (qualifiers ++ ')' :: after))) =
      ⟨qualifiers, after.takeWhile fun c => c != '\x7b' && c != ';'⟩ ::
        declarationsFrom (some ')') 0 after := by
  have hoccurs := occurrenceAt_declaration hbefore hgap hqualifiers after
  have hsplit : keyword ++ (gap ++ '(' :: (qualifiers ++ ')' :: after)) =
      'l' :: ((keyword.tail ++ gap ++ '(' :: qualifiers ++ [')']) ++ after) := by
    simp [keyword]
  have hwidth : keyword.length + gap.length + qualifiers.length + 2 =
      (keyword.tail ++ gap ++ '(' :: qualifiers ++ [')']).length + 1 := by
    simp [keyword]
    omega
  rw [hsplit, hwidth] at hoccurs
  rw [hsplit, declarationsFrom_found hoccurs, behind_append]
  rfl

end

end FrameGraph.SourceScan
