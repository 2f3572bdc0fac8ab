/-!
# Flag sets

`Mask κ` is a set of at most 64 flags from the vocabulary `κ`. It is viewed as the set of its bit
numbers: `i ∈ m` says that bit `i` is set, and `Mask.ext`, `Mask.mem_union`, `Mask.mem_inter` and
`Mask.subset_iff` reduce every question on masks to that view.
-/

set_option autoImplicit false

namespace FrameGraph

/-- What the bits of a mask stand for. -/
inductive Vocabulary
  | stage | access | shaderStage | aspect | imageUsage | bufferUsage | sampleCount | cullMode
  | colorComponent | descriptorBinding | setLayout | subpassStage | subpassAccess | dependency
  deriving DecidableEq

/-- A set of flags of the vocabulary `κ`, one bit each. -/
structure Mask (κ : Vocabulary) where
  bits : BitVec 64
  deriving DecidableEq

namespace Mask

variable {κ : Vocabulary}

def ofNat (n : Nat) : Mask κ := ⟨BitVec.ofNat 64 n⟩

def toNat (m : Mask κ) : Nat := m.bits.toNat

instance : Membership Nat (Mask κ) := ⟨fun m i => m.bits.getLsbD i = true⟩

instance (i : Nat) (m : Mask κ) : Decidable (i ∈ m) :=
  inferInstanceAs (Decidable (m.bits.getLsbD i = true))

instance : EmptyCollection (Mask κ) := ⟨⟨0⟩⟩

instance : Inhabited (Mask κ) := ⟨∅⟩

instance : Union (Mask κ) := ⟨fun a b => ⟨a.bits ||| b.bits⟩⟩

instance : Inter (Mask κ) := ⟨fun a b => ⟨a.bits &&& b.bits⟩⟩

instance : HasSubset (Mask κ) := ⟨fun a b => a.bits &&& b.bits = a.bits⟩

instance (a b : Mask κ) : Decidable (a ⊆ b) :=
  inferInstanceAs (Decidable (a.bits &&& b.bits = a.bits))

/-- Whether the two masks share a flag. -/
def meets (a b : Mask κ) : Bool := a ∩ b ≠ ∅

/-- The flags of `a` that `b` lacks. -/
def without (a b : Mask κ) : Mask κ := ⟨a.bits &&& ~~~b.bits⟩

theorem mem_def {i : Nat} {m : Mask κ} : i ∈ m ↔ m.bits.getLsbD i = true := Iff.rfl

@[simp] theorem not_mem_empty (i : Nat) : i ∉ (∅ : Mask κ) := by
  show ¬ (0 : BitVec 64).getLsbD i = true
  simp

@[simp] theorem mem_union {i : Nat} {a b : Mask κ} : i ∈ a ∪ b ↔ i ∈ a ∨ i ∈ b := by
  show (a.bits ||| b.bits).getLsbD i = true ↔ _
  simp [mem_def]

@[simp] theorem mem_inter {i : Nat} {a b : Mask κ} : i ∈ a ∩ b ↔ i ∈ a ∧ i ∈ b := by
  show (a.bits &&& b.bits).getLsbD i = true ↔ _
  simp [mem_def]

theorem ext {a b : Mask κ} (h : ∀ i, i ∈ a ↔ i ∈ b) : a = b := by
  cases a with
  | mk x =>
    cases b with
    | mk y =>
      have hxy : x = y := BitVec.eq_of_getLsbD_eq fun i _ => Bool.eq_iff_iff.2 (h i)
      rw [hxy]

theorem subset_iff {a b : Mask κ} : a ⊆ b ↔ ∀ i, i ∈ a → i ∈ b := by
  constructor
  · intro h i hi
    have hab : a ∩ b = a := congrArg Mask.mk h
    rw [← hab] at hi
    exact (mem_inter.1 hi).2
  · intro h
    have hab : a ∩ b = a :=
      ext fun i => ⟨fun hi => (mem_inter.1 hi).1, fun hi => mem_inter.2 ⟨hi, h i hi⟩⟩
    exact congrArg Mask.bits hab

theorem meets_iff {a b : Mask κ} : a.meets b = true ↔ ∃ i, i ∈ a ∧ i ∈ b := by
  unfold meets
  simp only [ne_eq, decide_not, Bool.not_eq_true', decide_eq_false_iff_not]
  constructor
  · intro h
    refine Classical.byContradiction fun hn => h (ext fun i => ?_)
    constructor
    · intro hi
      exact absurd ⟨i, mem_inter.1 hi⟩ hn
    · intro hi
      exact absurd hi (not_mem_empty i)
  · rintro ⟨i, hi⟩ h
    have : i ∈ a ∩ b := mem_inter.2 hi
    rw [h] at this
    exact not_mem_empty i this

theorem subset_refl (a : Mask κ) : a ⊆ a := subset_iff.2 fun _ h => h

theorem subset_union_left (a b : Mask κ) : a ⊆ a ∪ b :=
  subset_iff.2 fun _ h => mem_union.2 (Or.inl h)

theorem subset_union_right (a b : Mask κ) : b ⊆ a ∪ b :=
  subset_iff.2 fun _ h => mem_union.2 (Or.inr h)

@[simp] theorem union_self (a : Mask κ) : a ∪ a = a := ext fun i => by simp

theorem union_assoc (a b c : Mask κ) : a ∪ b ∪ c = a ∪ (b ∪ c) := ext fun i => by
  simp [or_assoc]

theorem union_comm (a b : Mask κ) : a ∪ b = b ∪ a := ext fun i => by
  simp [or_comm]

/-! ## Text -/

/-- The names of the flags of `m`, in the order of the table, and what the table does not name as
one binary number, with a bar between. The empty mask has the empty text. -/
def text (names : List (Mask κ × String)) (m : Mask κ) : String :=
  let named := names.filter fun entry => decide (entry.1 ⊆ m)
  let rest := named.foldl (fun left entry => left.without entry.1) m
  let unnamed := if rest = ∅ then [] else [String.ofList (Nat.toDigits 2 rest.toNat)]
  String.intercalate " | " (named.map (·.2) ++ unnamed)

end Mask

end FrameGraph
