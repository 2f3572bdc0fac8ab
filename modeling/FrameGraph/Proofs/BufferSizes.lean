import FrameGraph.Proofs.DeclaredKinds
import FrameGraph.Proofs.ElementNames
import Mathlib.Algebra.GroupWithZero.Nat

/-!
# Sizes of buffers

`ShaderBinding.bufferSize` adds up the members of a buffer one after the other. It checks each
product of size and count, and each sum that it comes to, against 32 bits. Sums never shrink and are
no less than the products that they are made of, so that some check fails exactly if the exact size
of the whole buffer does not fit (`foldlM_addElement_eq_ok_iff`).

The first member at which a check fails is where the sum outgrows 32 bits (`FirstExcess`). Its
product is checked before its sum, and so decides which of the two faults is raised
(`foldlM_addElement_of_firstExcess`).
-/

set_option autoImplicit false

namespace FrameGraph

open Text (bound32)

/-! ## Exact sizes -/

/-- The exact size of a member: that of its type, as often as it is repeated. -/
def BufferElement.bytes (e : BufferElement) : Nat := e.type.size * e.count

/-- The exact size of all members together. -/
def totalSize (es : List BufferElement) : Nat := (es.map (·.bytes)).sum

theorem ScalarType.size_le (s : ScalarType) : s.size ≤ 8 := by
  cases s <;> decide

/-- The sizes of types with names are far from 32 bits themselves. -/
theorem ElementType.size_le_of_parse? {name : String} {type : ElementType}
    (h : parse? name = some type) : type.size ≤ 128 := by
  have hnames := names_of_parse? h
  generalize name.toList = cs at hnames
  cases hnames with
  | scalar s =>
    have hs := s.size_le
    rw [size]
    omega
  | vector s hn =>
    exact (Nat.mul_le_mul s.size_le hn.2.1).trans (by decide)
  | @square s _ n _ hn =>
    exact (Nat.mul_le_mul (Nat.mul_le_mul s.size_le hn.2.1) hn.2.1).trans (by decide)
  | @matrix s _ c r _ _ hc hr =>
    exact (Nat.mul_le_mul (Nat.mul_le_mul s.size_le hc.2.1) hr.2.1).trans (by decide)

section
variable {es xs ys before : List BufferElement} {e x : BufferElement} {size n : Nat}

@[simp] theorem totalSize_nil : totalSize [] = 0 := rfl

@[simp] theorem totalSize_cons : totalSize (e :: es) = e.bytes + totalSize es := by
  simp [totalSize]

@[simp] theorem totalSize_append : totalSize (xs ++ ys) = totalSize xs + totalSize ys := by
  simp [totalSize]

/-- Sums never shrink. -/
theorem totalSize_mono (h : xs <+: ys) : totalSize xs ≤ totalSize ys := by
  obtain ⟨zs, rfl⟩ := h
  rw [totalSize_append]
  exact Nat.le_add_right _ _

/-! ## Members that do not fit -/

/-- Whether the product of a member reaches 32 bits, or the sum up to and with that member does. -/
def Exceeds (before : List BufferElement) (e : BufferElement) : Prop :=
  bound32 ≤ e.bytes ∨ bound32 ≤ totalSize before + e.bytes

/-- Whether a member does not fit, and all in front of it do. -/
structure FirstExcess (es before : List BufferElement) (e : BufferElement) : Prop where
  member : ∃ after, es = before ++ e :: after
  exceeds : Exceeds before e
  fits : ∀ xs x, xs ++ [x] <+: before → ¬ Exceeds xs x

/-- A product that does not fit makes no sum that does. -/
theorem exceeds_iff : Exceeds before e ↔ bound32 ≤ totalSize before + e.bytes := by
  unfold Exceeds
  omega

/-- Where all members fit, so does their sum. -/
theorem totalSize_lt_of_fits (h : ∀ xs x, xs ++ [x] <+: before → ¬ Exceeds xs x) :
    totalSize before < bound32 := by
  rcases before.eq_nil_or_concat with rfl | ⟨xs, x, rfl⟩
  · decide
  · rw [List.concat_eq_append] at h ⊢
    have hfits := h xs x (List.prefix_refl _)
    rw [exceeds_iff] at hfits
    simpa using hfits

/-- And where their sum fits, so do all members. -/
theorem fits_of_totalSize_lt (h : totalSize before < bound32) (hxs : xs ++ [x] <+: before) :
    ¬ Exceeds xs x := by
  have hle := totalSize_mono hxs
  rw [totalSize_append, totalSize_cons, totalSize_nil] at hle
  rw [exceeds_iff]
  omega

namespace ShaderBinding

/-! ## One member -/

theorem addElement_eq_ok_iff :
    addElement size e = .ok n ↔ n = size + e.bytes ∧ size + e.bytes < bound32 := by
  unfold addElement BufferElement.bytes
  split
  · simp only [reduceCtorEq, false_iff, not_and]
    omega
  · split
    · simp only [reduceCtorEq, false_iff, not_and]
      omega
    · simp only [Except.ok.injEq]
      omega

/-- What is raised at a member that does not fit. The product is looked at first. -/
def excessFault (e : BufferElement) : Fault :=
  if bound32 ≤ e.bytes then .multiplyOverflow else .addOverflow

theorem addElement_of_le (h : bound32 ≤ size + e.bytes) :
    addElement size e = .error (excessFault e) := by
  unfold addElement excessFault
  unfold BufferElement.bytes at h ⊢
  by_cases hproduct : bound32 ≤ e.type.size * e.count
  · rw [if_pos hproduct, if_pos hproduct]
  · rw [if_neg hproduct, if_pos h, if_neg hproduct]

/-! ## All members -/

/-- **Members can be added up exactly if their exact sum fits.** -/
theorem foldlM_addElement_eq_ok_iff (hsize : size < bound32) :
    es.foldlM addElement size = .ok n ↔
      n = size + totalSize es ∧ size + totalSize es < bound32 := by
  induction es generalizing size with
  | nil =>
    rw [List.foldlM_nil, totalSize_nil]
    constructor
    · intro h
      exact ⟨(Except.ok.inj h).symm, hsize⟩
    · rintro ⟨rfl, -⟩
      rfl
  | cons e es ih =>
    rw [List.foldlM_cons, Except.bind_eq_ok_iff, totalSize_cons]
    constructor
    · rintro ⟨m, hm, h⟩
      obtain ⟨rfl, hfits⟩ := addElement_eq_ok_iff.1 hm
      have hrest := (ih hfits).1 h
      omega
    · rintro ⟨rfl, hfits⟩
      have hfirst : size + e.bytes < bound32 := by omega
      refine ⟨_, addElement_eq_ok_iff.2 ⟨rfl, hfirst⟩, (ih hfirst).2 ?_⟩
      omega

/-- **The first member that does not fit tells how the sum fails.** -/
theorem foldlM_addElement_of_firstExcess (h : FirstExcess es before e) :
    es.foldlM addElement 0 = .error (excessFault e) := by
  obtain ⟨after, rfl⟩ := h.member
  have hbefore : before.foldlM addElement 0 = .ok (totalSize before) := by
    refine (foldlM_addElement_eq_ok_iff (by decide)).2 ⟨by omega, ?_⟩
    have hfits := totalSize_lt_of_fits h.fits
    omega
  rw [List.foldlM_append, hbefore]
  change List.foldlM addElement (totalSize before) (e :: after) = _
  rw [List.foldlM_cons, addElement_of_le (exceeds_iff.1 h.exceeds)]
  rfl

/-- A sum that does not fit has a first member at which it does not. -/
theorem exists_firstExcess (h : bound32 ≤ totalSize es) : ∃ before e, FirstExcess es before e := by
  cases hsum : es.foldlM addElement 0 with
  | ok n =>
    have hfits := (foldlM_addElement_eq_ok_iff (by decide)).1 hsum
    omega
  | error fault =>
    obtain ⟨before, e, after, size, rfl, hbefore, he⟩ := exists_of_foldlM_error hsum
    obtain ⟨rfl, hfits⟩ := (foldlM_addElement_eq_ok_iff (by decide)).1 hbefore
    rw [Nat.zero_add] at hfits he
    refine ⟨before, e, ⟨after, rfl⟩, ?_, fun xs x => fits_of_totalSize_lt hfits⟩
    rw [exceeds_iff]
    by_contra hsmall
    rw [addElement_eq_ok_iff.2 ⟨rfl, by omega⟩] at he
    cases he

/-! ## Whole bindings -/

theorem bufferSize_of_buffer {b : ShaderBinding} (h : b.detail = .buffer es) :
    b.bufferSize = some <$> es.foldlM addElement 0 := by
  unfold bufferSize
  rw [h]
  rfl

end ShaderBinding

end

/-- Whether a buffer with these members has its exact size, or the fault that its first excess
calls for. -/
structure ShaderBinding.SizesExactly (b : ShaderBinding) (es : List BufferElement) : Prop where
  /-- The size is known exactly if the sum is below 2^32, and is the sum then. -/
  exact : ∀ n, b.bufferSize = .ok (some n) ↔ n = totalSize es ∧ totalSize es < bound32
  /-- Otherwise there is a first member at which a product or a sum does not fit. -/
  excess : bound32 ≤ totalSize es ↔ ∃ before e, FirstExcess es before e
  /-- It fails in its product if that does not fit, and else in the sum. -/
  fault : ∀ before e, FirstExcess es before e →
    ∃ fault, b.bufferSize = .error fault ∧ fault.message =
      if bound32 ≤ e.bytes then "attempt to multiply with overflow"
      else "attempt to add with overflow"

/-- **The size of a declared buffer is exact, or the sum is refused.** Its members are those of the
declaration, of types that are small themselves. -/
theorem ShaderBinding.bufferSize_exact {name : String} {d : DeclaredBinding}
    {visibility : ShaderStages} {b : ShaderBinding} (h : ofDeclared name d visibility = .ok b)
    (hclass : d.resource = .buffer) :
    ∃ es, b.detail = .buffer es ∧
      List.Forall₂ (fun declared e => ElementType.parse? declared.type = some e.type ∧
        e.count = declared.count ∧ e.type.size ≤ 128) d.elements es ∧
      b.SizesExactly es := by
  obtain ⟨type, detail, hmeans, rfl⟩ := of_ofDeclared h
  cases hmeans with
  | @buffer type es _ helements husage =>
    refine ⟨es, rfl, helements.imp fun declared e he => ?_, fun n => ?_,
      ⟨exists_firstExcess, ?_⟩, fun before e hfirst => ?_⟩
    · exact ⟨he.1, he.2, ElementType.size_le_of_parse? he.1⟩
    · rw [bufferSize_of_buffer rfl, Except.map_eq_ok_iff]
      have hsum : es.foldlM addElement 0 = .ok n ↔
          n = 0 + totalSize es ∧ 0 + totalSize es < bound32 :=
        foldlM_addElement_eq_ok_iff (by decide)
      simpa using hsum
    · rintro ⟨before, e, hfirst⟩
      by_contra hfits
      have hsum := foldlM_addElement_of_firstExcess hfirst
      rw [(foldlM_addElement_eq_ok_iff (by decide)).2 ⟨rfl, by omega⟩] at hsum
      cases hsum
    · refine ⟨excessFault e, ?_, ?_⟩
      · rw [bufferSize_of_buffer rfl, foldlM_addElement_of_firstExcess hfirst]
        rfl
      · unfold excessFault
        split
        · rfl
        · rfl
  | image hother | sampler hother | bindless hother =>
    rw [hclass] at hother
    cases hother

/-! ### A buffer whose sum is too large before a product is -/

namespace Lightmap

/-- Two members of half of what 32 bits count, and one of all of it. -/
def declared : DeclaredBinding where
  slot := 3
  resource := .buffer
  elements := [⟨"mat4", 2 ^ 25⟩, ⟨"vec4", 2 ^ 27⟩, ⟨"float", 2 ^ 30⟩]

def matrices : BufferElement := ⟨.matrix .float 4 4, 2 ^ 25⟩

def vectors : BufferElement := ⟨.vector .float 4, 2 ^ 27⟩

def floats : BufferElement := ⟨.scalar .float, 2 ^ 30⟩

def binding : ShaderBinding :=
  ⟨"lightmap", 3, .all, .frame, 1, .uniformBuffer, .buffer [matrices, vectors, floats]⟩

theorem firstExcess : FirstExcess [matrices, vectors, floats] [matrices] vectors where
  member := ⟨[floats], rfl⟩
  exceeds := exceeds_iff.2 (by decide)
  fits _ _ := fits_of_totalSize_lt (by decide)

end Lightmap

/-- The second member ends the sum, before the product of the third is looked at. -/
theorem ShaderBinding.bufferSize_exact_lightmap :
    ofDeclared "lightmap" Lightmap.declared .all = .ok Lightmap.binding ∧
    Lightmap.declared.resource = .buffer ∧
    ∃ fault, Lightmap.binding.bufferSize = .error fault ∧
      fault.message = "attempt to add with overflow" := by
  have hdeclared : ofDeclared "lightmap" Lightmap.declared .all = .ok Lightmap.binding := rfl
  obtain ⟨es, hes, -, hsizes⟩ := bufferSize_exact hdeclared rfl
  obtain rfl := BindingDetail.buffer.inj hes
  obtain ⟨fault, hfault, hmessage⟩ := hsizes.fault _ _ Lightmap.firstExcess
  rw [if_neg (by decide)] at hmessage
  exact ⟨hdeclared, rfl, fault, hfault, hmessage⟩

end FrameGraph
