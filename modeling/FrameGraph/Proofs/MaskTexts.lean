import FrameGraph.Proofs.CarriedStates
import FrameGraph.Proofs.Words

/-!
# What the text of a mask names

The plan dump writes a mask as a row of names from a table (`Text.Reads`). A text names a flag if
one of its words is a name of that flag (`Mask.Names`), be it the short one of the dump or the full
one. A row from a table of single flags names those flags of the mask that the table has, and no
others (`Mask.names_iff`).

So the text of a mask is complete exactly if the table has all of its flags. That of an access mask
is so wherever it is taken from the table (`AccessMask.names_shortText_iff`); that of a stage mask
leaves out what the table lacks, as soon as there is anything else
(`StageMask.names_shortText_iff`).
-/

set_option autoImplicit false

namespace FrameGraph

/-! ## Rows of names -/

namespace Text

/-- Whether a character stands between the names of a row. -/
def isBar (c : Char) : Bool := c == ' ' || c == '|'

/-- Whether a name is a single word. -/
def IsWord (name : String) : Prop := name.toList ≠ [] ∧ ∀ c ∈ name.toList, isBar c = false

theorem isWord_iff {name : String} :
    IsWord name ↔ (!name.toList.isEmpty && name.toList.all (!isBar ·)) = true := by
  simp [IsWord]

instance (name : String) : Decidable (IsWord name) := decidable_of_iff' _ isWord_iff

/-- Whether a text is a row of these names. -/
def Reads (text : String) (names : List String) : Prop :=
  words isBar text.toList = names.map (·.toList)

/-- Names with bars between them can be read again. -/
theorem reads_intercalate {names : List String} (h : ∀ name ∈ names, IsWord name) :
    Reads (String.intercalate " | " names) names := by
  unfold Reads
  induction names with
  | nil => rfl
  | cons name names ih =>
    obtain ⟨⟨hne, hword⟩, hnames⟩ := List.forall_mem_cons.1 h
    cases names with
    | nil =>
      have hend : ∀ c ∈ [].head?, isBar c = true := by simp
      have hread := words_word hne hword hend
      rw [List.append_nil] at hread
      rw [String.intercalate_singleton, hread]
      rfl
    | cons next names =>
      have hbar : [' ', '|', ' '].all isBar = true := by decide
      rw [String.intercalate_cons_cons, String.toList_append, String.toList_append,
        List.append_assoc, words_word hne hword (by simp [isBar]), List.map_cons, ← ih hnames]
      exact congrArg _ (words_gap (List.all_eq_true.1 hbar))

end Text

/-! ## Names from a table -/

namespace Mask

variable {κ : Vocabulary} {table vocabulary : List (Mask κ × String)} {m : Mask κ} {i : Nat}
  {text : String}

/-- The names that a table has for what is in a mask. -/
def named (table : List (Mask κ × String)) (m : Mask κ) : List String :=
  (table.filter fun e => decide (e.1 ⊆ m)).map (·.2)

/-- All flags that a table has names for. -/
def listed (table : List (Mask κ × String)) : Mask κ := table.foldl (fun m e => m ∪ e.1) ∅

/-- Whether a word of a text is the name of a flag. -/
def Names (vocabulary : List (Mask κ × String)) (text : String) (i : Nat) : Prop :=
  ∃ e ∈ vocabulary, i ∈ e.1 ∧ e.2.toList ∈ Text.words Text.isBar text.toList

/-- Whether every row of a table has one flag and a name that is a word, which stands for no other
flag in the whole vocabulary. -/
structure IsTable (vocabulary table : List (Mask κ × String)) : Prop where
  known : table ⊆ vocabulary
  flag : ∀ e ∈ table, ∃ k < 64, e.1.bits = BitVec.twoPow 64 k
  word : ∀ e ∈ table, Text.IsWord e.2
  unique : ∀ e ∈ table, ∀ e' ∈ vocabulary, e'.2 = e.2 → e'.1 = e.1

theorem exists_mem (h : m ≠ ∅) : ∃ i, i ∈ m := by
  by_contra hnone
  refine h (ext fun i => ?_)
  exact ⟨fun hi => absurd ⟨i, hi⟩ hnone, fun hi => absurd hi (not_mem_empty i)⟩

theorem union_subset {m' whole : Mask κ} (h : m ⊆ whole) (h' : m' ⊆ whole) :
    m ∪ m' ⊆ whole := by
  rw [subset_iff] at h h' ⊢
  exact fun i hi => (mem_union.1 hi).elim (h i) (h' i)

/-- What is joined to a mask is in it. -/
theorem mem_foldl_union {α : Type} {part : α → Mask κ} {rows : List α} :
    i ∈ rows.foldl (fun m e => m ∪ part e) m ↔ i ∈ m ∨ ∃ e ∈ rows, i ∈ part e := by
  induction rows generalizing m with
  | nil => simp
  | cons e rows ih => rw [List.foldl_cons, ih, mem_union, List.exists_mem_cons_iff, or_assoc]

theorem mem_listed : i ∈ listed table ↔ ∃ e ∈ table, i ∈ e.1 := by
  rw [listed, mem_foldl_union]
  simp

theorem mem_named {name : String} : name ∈ named table m ↔ ∃ e ∈ table, e.1 ⊆ m ∧ e.2 = name := by
  simp [named, and_assoc]

/-- A mask has a flag if it has any bit of it. -/
theorem subset_of_flag {flag : Mask κ} (hflag : ∃ k < 64, flag.bits = BitVec.twoPow 64 k)
    (hi : i ∈ flag) (hm : i ∈ m) : flag ⊆ m := by
  obtain ⟨k, -, hk⟩ := hflag
  rw [mem_def, hk, BitVec.getLsbD_twoPow, Bool.and_eq_true, decide_eq_true_iff,
    decide_eq_true_iff] at hi
  exact subset_of_bit hk (hi.2 ▸ hm)

theorem named_ne_nil (h : IsTable vocabulary table) (hm : m.meets (listed table) = true) :
    named table m ≠ [] := by
  obtain ⟨i, hi, hlisted⟩ := meets_iff.1 hm
  obtain ⟨e, he, hie⟩ := mem_listed.1 hlisted
  exact List.ne_nil_of_mem (mem_named.2 ⟨e, he, subset_of_flag (h.flag e he) hie hi, rfl⟩)

/-- **A row from a table names the flags of the mask that the table has.** -/
theorem names_iff (h : IsTable vocabulary table) (htext : Text.Reads text (named table m)) :
    Names vocabulary text i ↔ i ∈ m ∧ i ∈ listed table := by
  unfold Names
  rw [htext]
  constructor
  · rintro ⟨e, he, hi, hword⟩
    obtain ⟨name, hname, heq⟩ := List.mem_map.1 hword
    obtain rfl := String.toList_injective heq
    obtain ⟨row, hrow, hsubset, hsame⟩ := mem_named.1 hname
    rw [h.unique row hrow e he hsame.symm] at hi
    exact ⟨subset_iff.1 hsubset i hi, mem_listed.2 ⟨row, hrow, hi⟩⟩
  · rintro ⟨hm, hlisted⟩
    obtain ⟨e, he, hi⟩ := mem_listed.1 hlisted
    have hsubset := subset_of_flag (h.flag e he) hi hm
    exact ⟨e, h.known he, hi, List.mem_map_of_mem (mem_named.2 ⟨e, he, hsubset, rfl⟩)⟩

theorem reads_named (h : IsTable vocabulary table) :
    Text.Reads (String.intercalate " | " (named table m)) (named table m) := by
  refine Text.reads_intercalate fun name hname => ?_
  obtain ⟨e, he, -, rfl⟩ := mem_named.1 hname
  exact h.word e he

end Mask

/-! ## Stages -/

namespace StageMask

variable {m : StageMask} {i : Nat}

/-- All names that a stage has. -/
def vocabulary : List (StageMask × String) := shortNames ++ flagNames

/-- The stages that the dump has names for. -/
def listed : StageMask := Mask.listed shortNames

theorem isTable_shortNames : Mask.IsTable vocabulary shortNames where
  known := List.subset_append_left _ _
  flag := by decide +kernel
  word := by decide +kernel
  unique := by decide +kernel

theorem reads_shortText (h : m.meets listed = true) :
    Text.Reads m.shortText (Mask.named shortNames m) := by
  have hreads := Mask.reads_named (m := m) isTable_shortNames
  unfold shortText
  split
  · next hnone => exact absurd hnone (Mask.named_ne_nil isTable_shortNames h)
  · exact hreads

/-- **The text of a mask with a name names what has a name**, and leaves out the rest. -/
theorem names_shortText_iff (h : m.meets listed = true) :
    Mask.Names vocabulary m.shortText i ↔ i ∈ m ∧ i ∈ listed :=
  Mask.names_iff isTable_shortNames (reads_shortText h)

end StageMask

/-! ## Accesses -/

namespace AccessMask

variable {m : AccessMask} {i : Nat}

/-- All names that an access has. -/
def vocabulary : List (AccessMask × String) := shortNames ++ flagNames

/-- The accesses that the dump has names for. -/
def listed : AccessMask := Mask.listed shortNames

theorem isTable_shortNames : Mask.IsTable vocabulary shortNames where
  known := List.subset_append_left _ _
  flag := by decide +kernel
  word := by decide +kernel
  unique := by decide +kernel

/-- The word for no access is no name. -/
theorem not_names_none : ¬ Mask.Names vocabulary "NONE" i := by
  rintro ⟨e, he, -, hword⟩
  have hnone : ∀ e ∈ vocabulary, e.2 ≠ "NONE" := by decide +kernel
  have hreads : Text.words Text.isBar "NONE".toList = ["NONE".toList] := by decide +kernel
  rw [hreads, List.mem_singleton] at hword
  exact hnone e he (String.toList_injective hword)

/-- **The text of a mask from the table names all that is in it.** -/
theorem names_shortText_iff (h : m ⊆ listed) :
    Mask.Names vocabulary m.shortText i ↔ i ∈ m := by
  rw [Mask.subset_iff] at h
  unfold shortText
  split
  · next hempty =>
    rw [hempty]
    exact iff_of_false not_names_none (Mask.not_mem_empty i)
  · next hne =>
    obtain ⟨j, hj⟩ := Mask.exists_mem hne
    have hsome := Mask.named_ne_nil isTable_shortNames (Mask.meets_iff.2 ⟨j, hj, h j hj⟩)
    split
    · next hnone => exact absurd hnone hsome
    · rw [← and_iff_left_of_imp (h i)]
      exact Mask.names_iff isTable_shortNames (Mask.reads_named isTable_shortNames)

end AccessMask

end FrameGraph
