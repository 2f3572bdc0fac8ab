import FrameGraph.Proofs.Spacing

/-!
# Texts without comments

Comments are told apart from code one character ahead, and their delimiters overlap: a slash may be
code, open a comment of either kind, or be the end of one, and an open comment swallows whatever
would open another. `EndsIn` says how a text divides into code and comments and where it leaves off;
every text divides in that way (`exists_endsIn`).

What is left of a text without its comments has no comment any more (`commentFree_stripComments`),
not even one that the parts around a comment would make together: the text in front of a comment
would have opened it before. And text without comments stays as it is (`CommentFree.strip`), so that
stripping is a normal form, and `scan` sees no more than that (`stripComments_normal`).
-/

set_option autoImplicit false

namespace FrameGraph.SourceScan

/-! ## Where comments begin -/

/-- Whether a text begins with a comment. -/
def OpensComment (cs : List Char) : Prop := ['/', '/'] <+: cs ∨ ['/', '*'] <+: cs

/-- Whether no comment begins anywhere in a text. -/
def CommentFree (cs : List Char) : Prop := ¬['/', '/'] <:+: cs ∧ ¬['/', '*'] <:+: cs

/-- How a text that begins in code divides into code and comments, and in which of them it ends. -/
inductive EndsIn : Region → List Char → Prop
  | nil : EndsIn .code []
  | code {r : Region} {c : Char} {text : List Char} (hc : ¬ OpensComment (c :: text))
      (h : EndsIn r text) : EndsIn r (c :: text)
  | lineComment {r : Region} {comment text : List Char} (hcomment : '\n' ∉ comment)
      (h : EndsIn r text) : EndsIn r ('/' :: '/' :: comment ++ '\n' :: text)
  | openLine {comment : List Char} (hcomment : '\n' ∉ comment) :
      EndsIn .lineComment ('/' :: '/' :: comment)
  | blockComment {r : Region} {comment text : List Char} (hcomment : ¬['*', '/'] <:+: comment)
      (h : EndsIn r text) : EndsIn r ('/' :: '*' :: comment ++ '*' :: '/' :: text)
  | openBlock {comment : List Char} (hcomment : ¬['*', '/'] <:+: comment) :
      EndsIn .blockComment ('/' :: '*' :: comment)

section
variable {c d : Char} {cs text rest comment before after : List Char} {r : Region}

theorem opensComment_cons_cons_iff :
    OpensComment (c :: d :: cs) ↔ c = '/' ∧ (d = '/' ∨ d = '*') := by
  simp only [OpensComment, List.cons_prefix_cons, List.nil_prefix, and_true]
  grind

/-- A single character is no comment. -/
theorem not_opensComment_singleton : ¬ OpensComment [c] := by
  simp [OpensComment]

theorem exists_of_opensComment (h : OpensComment cs) :
    ∃ rest, cs = '/' :: '/' :: rest ∨ cs = '/' :: '*' :: rest := by
  rcases h with ⟨rest, rfl⟩ | ⟨rest, rfl⟩
  · exact ⟨rest, .inl rfl⟩
  · exact ⟨rest, .inr rfl⟩

theorem commentFree_cons_iff :
    CommentFree (c :: cs) ↔ ¬ OpensComment (c :: cs) ∧ CommentFree cs := by
  simp only [CommentFree, OpensComment, List.infix_cons_iff]
  tauto

theorem commentFree_nil : CommentFree [] := by
  simp [CommentFree]

/-! ## How texts divide -/

/-- A text goes on to the first end of a block comment, or there is none. -/
theorem blockEnd_cases (cs : List Char) :
    (∃ comment rest, cs = comment ++ '*' :: '/' :: rest ∧ ¬['*', '/'] <:+: comment) ∨
      ¬['*', '/'] <:+: cs := by
  induction cs with
  | nil => exact .inr (by simp)
  | cons c cs ih =>
    by_cases hend : ['*', '/'] <+: c :: cs
    · obtain ⟨rest, hrest⟩ := hend
      exact .inl ⟨[], rest, hrest.symm, by simp⟩
    · rcases ih with ⟨comment, rest, rfl, hcomment⟩ | hopen
      · refine .inl ⟨c :: comment, rest, rfl, fun hinside => ?_⟩
        rcases List.infix_cons_iff.1 hinside with hstart | hinside
        · exact hend (hstart.trans ⟨_, List.cons_append⟩)
        · exact hcomment hinside
      · refine .inr fun hinside => ?_
        rcases List.infix_cons_iff.1 hinside with hstart | hinside
        · exact hend hstart
        · exact hopen hinside

/-- **Every text divides into code and comments.** -/
theorem exists_endsIn (text : List Char) : ∃ r, EndsIn r text := by
  -- a comment is passed over as a whole, so the induction is on the length of what is left
  induction hlength : text.length using Nat.strongRecOn generalizing text with
  | _ n ih =>
    subst hlength
    cases text with
    | nil => exact ⟨_, .nil⟩
    | cons c text =>
      by_cases hopens : OpensComment (c :: text)
      · obtain ⟨rest, h | h⟩ := exists_of_opensComment hopens
        · rw [h] at ih ⊢
          by_cases hend : '\n' ∈ rest
          · obtain ⟨comment, rest, rfl, hcomment⟩ := List.eq_append_cons_of_mem hend
            obtain ⟨r, hr⟩ := ih rest.length (by simp; omega) rest rfl
            exact ⟨r, .lineComment hcomment hr⟩
          · exact ⟨_, .openLine hend⟩
        · rw [h] at ih ⊢
          rcases blockEnd_cases rest with ⟨comment, rest, rfl, hcomment⟩ | hopen
          · obtain ⟨r, hr⟩ := ih rest.length (by simp; omega) rest rfl
            exact ⟨r, .blockComment hcomment hr⟩
          · exact ⟨_, .openBlock hopen⟩
      · obtain ⟨r, hr⟩ := ih text.length (by simp) text rfl
        exact ⟨r, .code hopens hr⟩

/-! ## What is left of each part -/

/-- Code stays, unless it opens a comment. -/
theorem stripFrom_code (h : ¬ OpensComment (c :: rest)) :
    stripFrom .code (c :: rest) = c :: stripFrom .code rest := by
  rw [stripFrom]
  · rintro rest rfl rfl
    exact h (opensComment_cons_cons_iff.2 ⟨rfl, .inl rfl⟩)
  · rintro rest rfl rfl
    exact h (opensComment_cons_cons_iff.2 ⟨rfl, .inr rfl⟩)

theorem stripFrom_line (h : '\n' ∉ comment) :
    stripFrom .code ('/' :: '/' :: (comment ++ '\n' :: rest)) = '\n' :: stripFrom .code rest := by
  rw [stripFrom, stripFrom_lineComment h]

theorem stripFrom_openLine (h : '\n' ∉ comment) :
    stripFrom .code ('/' :: '/' :: comment) = [] := by
  rw [stripFrom, stripFrom_openComment h]

theorem stripFrom_block (h : ¬['*', '/'] <:+: comment) :
    stripFrom .code ('/' :: '*' :: (comment ++ '*' :: '/' :: rest)) =
      ' ' :: stripFrom .code rest := by
  rw [stripFrom, stripFrom_blockComment h]

/-- A block comment that is never closed leaves its blank, too. -/
theorem stripFrom_openBlock (h : ¬['*', '/'] <:+: comment) :
    stripFrom .code ('/' :: '*' :: comment) = [' '] := by
  rw [stripFrom]
  induction comment with
  | nil => rfl
  | cons c comment ih =>
    rw [List.infix_cons_iff, not_or] at h
    rw [stripFrom, ih h.2]
    rintro rest rfl rfl
    exact h.1 ⟨rest, rfl⟩

/-! ## Stripping -/

/-- **A text without comments stays as it is.** -/
theorem CommentFree.strip (h : CommentFree cs) : stripComments cs = cs := by
  unfold stripComments
  induction cs with
  | nil => rfl
  | cons c cs ih =>
    obtain ⟨hopens, hcs⟩ := commentFree_cons_iff.1 h
    rw [stripFrom_code hopens, ih hcs]

/-- What is left of code and the comments behind it opens a comment only if the code did. -/
theorem not_opensComment_strip (h : ¬ OpensComment (c :: text)) :
    ¬ OpensComment (c :: stripFrom .code text) := by
  cases text with
  | nil => exact not_opensComment_singleton
  | cons d text =>
    rw [opensComment_cons_cons_iff] at h
    by_cases hd : d = '/'
    · -- then `c` is no slash
      cases hleft : stripFrom .code (d :: text) with
      | nil => exact not_opensComment_singleton
      | cons e left =>
        rw [opensComment_cons_cons_iff]
        exact fun hopens => h ⟨hopens.1, .inl hd⟩
    · rw [stripFrom_cons hd, opensComment_cons_cons_iff]
      exact h

/-- **What is left of a text has no comments.** -/
theorem commentFree_stripComments (text : List Char) : CommentFree (stripComments text) := by
  unfold stripComments
  obtain ⟨r, h⟩ := exists_endsIn text
  induction h with
  | nil => exact commentFree_nil
  | code hc _ ih =>
    rw [stripFrom_code hc]
    exact commentFree_cons_iff.2 ⟨not_opensComment_strip hc, ih⟩
  | lineComment hcomment _ ih =>
    rw [List.cons_append, List.cons_append, stripFrom_line hcomment]
    exact commentFree_cons_iff.2 ⟨by simp [OpensComment], ih⟩
  | openLine hcomment =>
    rw [stripFrom_openLine hcomment]
    exact commentFree_nil
  | blockComment hcomment _ ih =>
    rw [List.cons_append, List.cons_append, stripFrom_block hcomment]
    exact commentFree_cons_iff.2 ⟨by simp [OpensComment], ih⟩
  | openBlock hcomment =>
    rw [stripFrom_openBlock hcomment]
    exact commentFree_cons_iff.2 ⟨by simp [OpensComment], commentFree_nil⟩

/-- **The texts without comments are those that stay.** -/
theorem stripComments_eq_self_iff : stripComments cs = cs ↔ CommentFree cs := by
  constructor
  · intro h
    rw [← h]
    exact commentFree_stripComments cs
  · exact CommentFree.strip

/-- How a text does not end, its last part does not end either. -/
theorem getLast?_behind (front : List Char) (h : (front ++ text).getLast? ≠ some c) :
    text.getLast? ≠ some c := by
  intro hlast
  rw [List.getLast?_append, hlast] at h
  exact h rfl

/-- **Behind code, a text is stripped as if it stood alone.** A slash at the end of the code might
open a comment together with what follows. -/
theorem EndsIn.strip_append (h : EndsIn r before) (hr : r = .code)
    (hlast : before.getLast? ≠ some '/') :
    stripFrom .code (before ++ rest) = stripFrom .code before ++ stripFrom .code rest := by
  induction h with
  | nil => rfl
  | @code r c text hc _ ih =>
    rw [stripFrom_code hc]
    cases text with
    | nil =>
      have hslash : c ≠ '/' := fun hslash => hlast (by rw [hslash]; rfl)
      exact stripFrom_cons hslash
    | cons d text =>
      have hopens : ¬ OpensComment (c :: (d :: text ++ rest)) := by
        rw [opensComment_cons_cons_iff] at hc
        rw [List.cons_append, opensComment_cons_cons_iff]
        exact hc
      rw [List.getLast?_cons_cons] at hlast
      rw [List.cons_append, stripFrom_code hopens, ih hr hlast, List.cons_append]
  | @lineComment r comment text hcomment _ ih =>
    have htext := getLast?_behind ('/' :: '/' :: comment ++ ['\n']) (by simpa using hlast)
    simp only [List.cons_append, List.append_assoc]
    rw [stripFrom_line hcomment, stripFrom_line hcomment, ih hr htext, List.cons_append]
  | openLine _ => cases hr
  | @blockComment r comment text hcomment _ ih =>
    have htext := getLast?_behind ('/' :: '*' :: comment ++ ['*', '/']) (by simpa using hlast)
    simp only [List.cons_append, List.append_assoc]
    rw [stripFrom_block hcomment, stripFrom_block hcomment, ih hr htext, List.cons_append]
  | openBlock _ => cases hr

end

/-- **Stripping comments is a normal form.** What is left has no comments and is left as it is when
it is stripped again, and a scan of it finds the same, with the same messages. A block comment
behind code stands for a blank between what is left on either side. -/
theorem stripComments_normal :
    (∀ source, CommentFree (stripComments source) ∧
      stripComments (stripComments source) = stripComments source) ∧
    (∀ source : String, scan (.ofList (stripComments source.toList)) = scan source) ∧
    ∀ before comment after, EndsIn .code before → before.getLast? ≠ some '/' →
      ¬['*', '/'] <:+: comment →
      stripComments (before ++ ('/' :: '*' :: comment ++ '*' :: '/' :: after)) =
        stripComments before ++ ' ' :: stripComments after := by
  have hagain : ∀ source, stripComments (stripComments source) = stripComments source :=
    fun source => (commentFree_stripComments source).strip
  refine ⟨fun source => ⟨commentFree_stripComments source, hagain source⟩, fun source => ?_,
    fun before comment after hbefore hlast hcomment => ?_⟩
  · unfold scan
    rw [String.toList_ofList, hagain]
  · unfold stripComments
    rw [hbefore.strip_append rfl hlast]
    simp only [List.cons_append]
    rw [stripFrom_block hcomment]

/-! ### Delimiters that overlap -/

namespace Overlap

/-- A block comment of one slash between two words. -/
def before : List Char := ['v', '/', '*', '/', '*', '/', 'w']

/-- What would open comments of both kinds. -/
def comment : List Char := ['/', '/', '*']

/-- A block comment that is never closed. -/
def after : List Char := ['/', '*', 'u']

theorem endsIn_before : EndsIn .code before := by
  have hcomment : ¬['*', '/'] <:+: ['/'] := by decide
  have hword : EndsIn .code ['w'] := .code not_opensComment_singleton .nil
  exact .code (by simp [OpensComment]) (.blockComment hcomment hword)

end Overlap

/-- Of three comments that touch, each leaves its blank. -/
theorem stripComments_normal_overlap :
    EndsIn .code Overlap.before ∧ Overlap.before.getLast? ≠ some '/' ∧
    ¬['*', '/'] <:+: Overlap.comment ∧
    stripComments ['v', '/', '*', '/', '*', '/', 'w', '/', '*', '/', '/', '*', '*', '/',
      '/', '*', 'u'] = ['v', ' ', 'w', ' ', ' '] := by
  have hlast : Overlap.before.getLast? ≠ some '/' := by decide
  have hcomment : ¬['*', '/'] <:+: Overlap.comment := by decide
  refine ⟨Overlap.endsIn_before, hlast, hcomment, ?_⟩
  exact stripComments_normal.2.2 Overlap.before Overlap.comment Overlap.after
    Overlap.endsIn_before hlast hcomment

end FrameGraph.SourceScan
