import FrameGraph.Shader.SourceScan
import Mathlib.Data.List.Basic

/-!
# Spacing

A source is a row of tokens with gaps behind them (`Spaced`). A gap consists of blanks and comments
(`Gap`); it may be empty unless two tokens would run into one. Where the comments go, each leaves a
blank, so that what is left is the same row of tokens with gaps of blanks (`Spaced.strip`).
-/

set_option autoImplicit false

namespace FrameGraph.SourceScan

open FrameGraph.Text

/-! ## Gaps -/

/-- Blanks and comments, in any order. A comment may say anything but its own end. -/
inductive Gap : List Char → Prop
  | nil : Gap []
  | blank {c : Char} {gap : List Char} (hc : isBlank c = true) (h : Gap gap) : Gap (c :: gap)
  | lineComment {text gap : List Char} (htext : '\n' ∉ text) (h : Gap gap) :
      Gap ('/' :: '/' :: text ++ '\n' :: gap)
  | blockComment {text gap : List Char} (htext : ¬['*', '/'] <:+: text) (h : Gap gap) :
      Gap ('/' :: '*' :: text ++ '*' :: '/' :: gap)

/-- A gap without comments. -/
def Blanks (gap : List Char) : Prop := ∀ c ∈ gap, isBlank c = true

theorem Blanks.not_mem {gap : List Char} (h : Blanks gap) {c : Char} (hc : isBlank c = false) :
    c ∉ gap := fun hmem => by
  cases hc.symm.trans (h c hmem)

section
variable {text cs gap rest : List Char} {c : Char}

theorem stripFrom_cons (h : c ≠ '/') : stripFrom .code (c :: rest) = c :: stripFrom .code rest := by
  rw [stripFrom]
  · exact fun _ hc => absurd hc h
  · exact fun _ hc => absurd hc h

/-- Text without a slash stays. -/
theorem stripFrom_append (h : '/' ∉ cs) :
    stripFrom .code (cs ++ rest) = cs ++ stripFrom .code rest := by
  induction cs with
  | nil => rfl
  | cons c cs ih =>
    obtain ⟨hc, hcs⟩ := List.ne_and_not_mem_of_not_mem_cons h
    rw [List.cons_append, stripFrom_cons hc.symm, ih hcs, List.cons_append]

theorem stripFrom_lineComment (h : '\n' ∉ text) :
    stripFrom .lineComment (text ++ '\n' :: rest) = '\n' :: stripFrom .code rest := by
  induction text with
  | nil => rfl
  | cons c text ih =>
    obtain ⟨hc, htext⟩ := List.ne_and_not_mem_of_not_mem_cons h
    rw [List.cons_append, stripFrom, ih htext]
    rintro rfl
    exact hc rfl

theorem stripFrom_openComment (h : '\n' ∉ text) : stripFrom .lineComment text = [] := by
  induction text with
  | nil => rfl
  | cons c text ih =>
    obtain ⟨hc, htext⟩ := List.ne_and_not_mem_of_not_mem_cons h
    rw [stripFrom, ih htext]
    rintro rfl
    exact hc rfl

theorem stripFrom_blockComment (h : ¬['*', '/'] <:+: text) :
    stripFrom .blockComment (text ++ '*' :: '/' :: rest) = ' ' :: stripFrom .code rest := by
  induction text with
  | nil => rfl
  | cons c text ih =>
    have htext : ¬['*', '/'] <:+: text := fun hinside =>
      h (hinside.trans (List.suffix_cons c text).isInfix)
    rw [List.cons_append, stripFrom, ih htext]
    intro r hc hr
    subst hc
    cases text with
    | nil => cases hr
    | cons d text =>
      obtain rfl : d = '/' := (List.cons.inj hr).1
      exact h ⟨[], text, rfl⟩

/-- **A gap leaves blanks**, and some if there was anything. -/
theorem Gap.strip (h : Gap gap) : ∃ left, Blanks left ∧ (gap ≠ [] → left ≠ []) ∧
    ∀ rest, stripFrom .code (gap ++ rest) = left ++ stripFrom .code rest := by
  induction h with
  | nil => exact ⟨[], by simp [Blanks], by simp, fun _ => rfl⟩
  | @blank c gap hc _ ih =>
    obtain ⟨left, hleft, -, hstrip⟩ := ih
    refine ⟨c :: left, List.forall_mem_cons.2 ⟨hc, hleft⟩, by simp, fun rest => ?_⟩
    have hslash : c ≠ '/' := by
      rintro rfl
      cases hc
    rw [List.cons_append, stripFrom_cons hslash, hstrip, List.cons_append]
  | @lineComment text gap htext _ ih =>
    obtain ⟨left, hleft, -, hstrip⟩ := ih
    refine ⟨'\n' :: left, List.forall_mem_cons.2 ⟨rfl, hleft⟩, by simp, fun rest => ?_⟩
    simp only [List.cons_append, List.append_assoc, stripFrom]
    rw [stripFrom_lineComment htext, hstrip]
  | @blockComment text gap htext _ ih =>
    obtain ⟨left, hleft, -, hstrip⟩ := ih
    refine ⟨' ' :: left, List.forall_mem_cons.2 ⟨rfl, hleft⟩, by simp, fun rest => ?_⟩
    simp only [List.cons_append, List.append_assoc, stripFrom]
    rw [stripFrom_blockComment htext, hstrip]

end

/-! ## Tokens -/

/-- A token: a word, a punctuation mark, or a text that is passed over. -/
inductive Token
  | word (cs : List Char)
  | mark (c : Char)
  | text (cs : List Char)

namespace Token

def chars : Token → List Char
  | word cs => cs
  | mark c => [c]
  | text cs => cs

def isMark : Token → Bool
  | mark _ => true
  | _ => false

/-- Whether a token would run into the first of those behind it. -/
def Touches (t : Token) (ts : List Token) : Prop :=
  t.isMark = false ∧ ∃ u ∈ ts.head?, u.isMark = false

end Token

/-- Whether a text is the tokens in their order with a gap behind each. -/
inductive Spaced (G : List Char → Prop) : List Token → List Char → Prop
  | nil : Spaced G [] []
  | cons {t : Token} {ts : List Token} {gap rest : List Char} (hgap : G gap)
      (hapart : t.Touches ts → gap ≠ []) (h : Spaced G ts rest) :
      Spaced G (t :: ts) (t.chars ++ gap ++ rest)

namespace Spaced

variable {G : List Char → Prop} {ts us : List Token} {t : Token} {cs rest : List Char} {c : Char}

/-- A row of tokens can be parted anywhere. -/
theorem split (h : Spaced G (ts ++ us) cs) :
    ∃ xs ys, cs = xs ++ ys ∧ Spaced G ts xs ∧ Spaced G us ys := by
  induction ts generalizing cs with
  | nil => exact ⟨[], cs, rfl, .nil, h⟩
  | cons t ts ih =>
    cases h with
    | @cons _ _ gap rest hgap hapart h =>
      obtain ⟨xs, ys, rfl, hxs, hys⟩ := ih h
      refine ⟨t.chars ++ gap ++ xs, ys, by simp, .cons hgap (fun htouch => hapart ?_) hxs, hys⟩
      obtain ⟨ht, u, hu, hmark⟩ := htouch
      exact ⟨ht, u, List.mem_head?_append_of_mem_head? hu, hmark⟩

theorem split_cons (h : Spaced G (t :: ts) cs) :
    ∃ gap rest, cs = t.chars ++ gap ++ rest ∧ G gap ∧ Spaced G ts rest := by
  cases h with
  | cons hgap _ h => exact ⟨_, _, rfl, hgap, h⟩

/-- All that stands in a text is in one of the tokens or a blank. -/
theorem mem_cases (h : Spaced Blanks ts cs) (hc : c ∈ cs) :
    isBlank c = true ∨ ∃ t ∈ ts, c ∈ t.chars := by
  induction h with
  | nil => cases hc
  | @cons t ts gap rest hgap _ _ ih =>
    simp only [List.mem_append] at hc
    rcases hc with (hc | hc) | hc
    · exact .inr ⟨t, List.mem_cons_self, hc⟩
    · exact .inl (hgap c hc)
    · exact (ih hc).imp_right fun ⟨u, hu, hc⟩ => ⟨u, List.mem_cons_of_mem _ hu, hc⟩

theorem not_mem (h : Spaced Blanks ts cs) (hc : isBlank c = false)
    (hts : ∀ t ∈ ts, c ∉ t.chars) : c ∉ cs := by
  intro hmem
  rcases h.mem_cases hmem with hblank | ⟨t, ht, hmem⟩
  · cases hc.symm.trans hblank
  · exact hts t ht hmem

/-- **Without its comments a text has the same tokens.** -/
theorem strip (h : Spaced Gap ts cs) (hts : ∀ t ∈ ts, '/' ∉ t.chars) :
    ∃ left, Spaced Blanks ts left ∧
      ∀ rest, stripFrom .code (cs ++ rest) = left ++ stripFrom .code rest := by
  induction h with
  | nil => exact ⟨[], .nil, fun _ => rfl⟩
  | @cons t ts gap behind hgap hapart _ ih =>
    obtain ⟨ht, hts⟩ := List.forall_mem_cons.1 hts
    obtain ⟨blanks, hblanks, hnonempty, hgap⟩ := hgap.strip
    obtain ⟨left, hleft, hbehind⟩ := ih hts
    refine ⟨t.chars ++ blanks ++ left, .cons hblanks (hnonempty ∘ hapart) hleft, fun rest => ?_⟩
    simp only [List.append_assoc]
    rw [stripFrom_append ht, hgap, hbehind]

end Spaced

end FrameGraph.SourceScan
