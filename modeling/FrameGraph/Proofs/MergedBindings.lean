import FrameGraph.Proofs.DeclaredKinds
import FrameGraph.Proofs.ScannedSlots
import FrameGraph.Shader.Registry
import Mathlib.Data.List.Induction

/-!
# Declarations of one slot

The declarations of a document go into a table of bindings one after the other. `Shader.Merged`
says what the table holds of those that went in: a binding for each slot, named by the first
declaration of the slot, that all of its declarations mean and the stages of each see. One more
declaration keeps this (`Merged.add`), so it holds of the table in the end (`merged_of_foldlM`).
-/

set_option autoImplicit false

namespace FrameGraph

/-! ## Lists with one more member -/

section

variable {α : Type} {l : List α} {a : α} {P : α → Prop}

theorem exists_mem_concat_iff : (∃ x ∈ l ++ [a], P x) ↔ (∃ x ∈ l, P x) ∨ P a := by
  simp [or_and_right, exists_or]

theorem forall_mem_concat_iff : (∀ x ∈ l ++ [a], P x) ↔ (∀ x ∈ l, P x) ∧ P a := by
  simp [or_imp, forall_and]

end

/-! ## One binding -/

/-- The name of a declared binding, where its slot may be called something: that, else its own. -/
def DeclaredBinding.nameFrom? (d : DeclaredBinding) (called : Nat → Option String) :
    Option String :=
  (called d.slot).or d.name

/-- The binding `b` is what the declarations of its slot come to. The first of them names it, all
mean it, and the stages of each see it. -/
structure ShaderBinding.Joins (b : ShaderBinding) (called : Nat → Option String)
    (ds : List (DeclaredBinding × ShaderStages)) : Prop where
  first : ∃ d, (ds.map (·.1)).find? (·.slot == b.slot) = some d ∧
    d.nameFrom? called = some b.name ∧ d.rate = b.rate ∧ d.count = b.count
  means : ∀ e ∈ ds, e.1.slot = b.slot → e.1.Means b.descriptorType b.detail
  seen : ∀ i, i ∈ b.visibility ↔ ∃ e ∈ ds, e.1.slot = b.slot ∧ i ∈ e.2

namespace ShaderBinding.Joins

variable {b : ShaderBinding} {called : Nat → Option String}
  {ds : List (DeclaredBinding × ShaderStages)} {e : DeclaredBinding × ShaderStages}

theorem first_concat (h : b.Joins called ds) (e : DeclaredBinding × ShaderStages) :
    ∃ d, ((ds ++ [e]).map (·.1)).find? (·.slot == b.slot) = some d ∧
      d.nameFrom? called = some b.name ∧ d.rate = b.rate ∧ d.count = b.count := by
  obtain ⟨d, hd, hrest⟩ := h.first
  refine ⟨d, ?_, hrest⟩
  rw [List.map_append, List.find?_append, hd, Option.some_or]

/-- A declaration of another slot changes nothing. -/
theorem skip (h : b.Joins called ds) (hslot : e.1.slot ≠ b.slot) : b.Joins called (ds ++ [e]) where
  first := h.first_concat e
  means := forall_mem_concat_iff.2 ⟨h.means, fun heq => absurd heq hslot⟩
  seen := by
    intro i
    rw [h.seen, exists_mem_concat_iff, or_iff_left]
    exact fun hmem => hslot hmem.1

/-- One more declaration of the slot adds its stages. -/
theorem widen (h : b.Joins called ds) (hslot : e.1.slot = b.slot)
    (hmeans : e.1.Means b.descriptorType b.detail) :
    Joins { b with visibility := b.visibility ∪ e.2 } called (ds ++ [e]) where
  first := h.first_concat e
  means := forall_mem_concat_iff.2 ⟨h.means, fun _ => hmeans⟩
  seen := by
    intro i
    rw [Mask.mem_union, h.seen, exists_mem_concat_iff, and_iff_right hslot]

/-- The first declaration of a slot comes to itself. -/
theorem single {d : DeclaredBinding} {name : String} {visibility : ShaderStages}
    {type : DescriptorType} {detail : BindingDetail} (hnew : ∀ e ∈ ds, e.1.slot ≠ d.slot)
    (hname : d.nameFrom? called = some name) (hmeans : d.Means type detail) :
    Joins ⟨name, d.slot, visibility, d.rate, d.count, type, detail⟩ called
      (ds ++ [(d, visibility)]) where
  first := by
    refine ⟨d, ?_, hname, rfl, rfl⟩
    have hnone : (ds.map (·.1)).find? (·.slot == d.slot) = none := by
      simpa using fun d' v hd' => hnew (d', v) hd'
    rw [List.map_append, List.find?_append, hnone, Option.none_or]
    simp
  means := forall_mem_concat_iff.2 ⟨fun e he heq => absurd heq (hnew e he), fun _ => hmeans⟩
  seen := by
    intro i
    have hnone : ¬∃ e ∈ ds, e.1.slot = d.slot ∧ i ∈ e.2 := fun ⟨e, he, heq, _⟩ => hnew e he heq
    rw [exists_mem_concat_iff, or_iff_right hnone, and_iff_right rfl]

end ShaderBinding.Joins

namespace Shader

/-- The table holds the bindings that these declarations make, each under its slot. -/
structure Merged (called : Nat → Option String) (ds : List (DeclaredBinding × ShaderStages))
    (t : SlotTable ShaderBinding) : Prop where
  sorted : t.Sorted
  slot_eq : ∀ slot b, t.find? slot = some b → b.slot = slot
  joins : ∀ slot b, t.find? slot = some b → b.Joins called ds
  held : ∀ e ∈ ds, (t.find? e.1.slot).isSome = true
  named : ∀ e ∈ ds, (e.1.nameFrom? called).isSome = true

variable {shader : String} {names : SlotTable String} {t t' : SlotTable ShaderBinding}
  {d : DeclaredBinding} {visibility : ShaderStages} {ds : List (DeclaredBinding × ShaderStages)}
  {name : String} {error : ShaderError}

theorem bindingName_eq_ok_iff :
    bindingName shader names d = .ok name ↔ d.nameFrom? names.find? = some name := by
  unfold bindingName DeclaredBinding.nameFrom?
  cases names.find? d.slot <;> cases d.name <;> simp

theorem bindingName_eq_error_iff : bindingName shader names d = .error error ↔
    d.nameFrom? names.find? = none ∧ error = .unnamedSlot shader d.slot := by
  unfold bindingName DeclaredBinding.nameFrom?
  cases names.find? d.slot <;> cases d.name <;> simp [eq_comm]

/-- What a declaration does to the table. -/
theorem of_addDeclared (h : addDeclared shader names t (d, visibility) = .ok t') :
    ∃ name type detail, d.nameFrom? names.find? = some name ∧ d.Means type detail ∧
      ((t.find? d.slot = none ∧
          t' = t.insert d.slot ⟨name, d.slot, visibility, d.rate, d.count, type, detail⟩) ∨
        ∃ b, t.find? d.slot = some b ∧ b.descriptorType = type ∧ b.detail = detail ∧
          t' = t.insert d.slot { b with visibility := b.visibility ∪ visibility }) := by
  unfold addDeclared at h
  obtain ⟨name, hname, h⟩ := Except.bind_eq_ok_iff.1 h
  obtain ⟨binding, hbinding, h⟩ := Except.bind_eq_ok_iff.1 h
  obtain ⟨type, detail, hmeans, rfl⟩ :=
    ShaderBinding.of_ofDeclared (Except.mapError_eq_ok_iff.1 hbinding)
  refine ⟨name, type, detail, bindingName_eq_ok_iff.1 hname, hmeans, ?_⟩
  split at h
  · next hnone => exact .inl ⟨hnone, (Except.ok.inj h).symm⟩
  · next b hb =>
    split at h
    · next hagree => exact .inr ⟨b, hb, hagree.1, hagree.2, (Except.ok.inj h).symm⟩
    · cases h

/-- Why a declaration does not go into the table. -/
theorem of_addDeclared_error (h : addDeclared shader names t (d, visibility) = .error error) :
    (d.nameFrom? names.find? = none ∧ error = .unnamedSlot shader d.slot) ∨
      (∃ name cause, d.nameFrom? names.find? = some name ∧ d.Refuses name cause ∧
        error = .invalidSlot shader d.slot cause) ∨
      ∃ b type detail, t.find? d.slot = some b ∧ d.Means type detail ∧
        (b.descriptorType ≠ type ∨ b.detail ≠ detail) ∧ error = .conflictingSlot shader d.slot := by
  unfold addDeclared at h
  obtain h | ⟨name, hname, h⟩ := Except.bind_eq_error_iff.1 h
  · exact .inl (bindingName_eq_error_iff.1 h)
  · obtain h | ⟨binding, hbinding, h⟩ := Except.bind_eq_error_iff.1 h
    · obtain ⟨cause, hcause, rfl⟩ := Except.mapError_eq_error_iff.1 h
      exact .inr (.inl ⟨name, cause, bindingName_eq_ok_iff.1 hname,
        ShaderBinding.refuses_of_ofDeclared hcause, rfl⟩)
    · obtain ⟨type, detail, hmeans, rfl⟩ :=
        ShaderBinding.of_ofDeclared (Except.mapError_eq_ok_iff.1 hbinding)
      split at h
      · cases h
      · next b hb =>
        split at h
        · cases h
        · next hagree =>
          refine .inr (.inr ⟨b, type, detail, hb, hmeans, ?_, (Except.error.inj h).symm⟩)
          exact Decidable.not_and_iff_or_not.1 hagree

/-! ### One more declaration -/

namespace Merged

variable {called : Nat → Option String} {e : DeclaredBinding × ShaderStages}

theorem empty (called : Nat → Option String) : Merged called [] .empty where
  sorted := .empty
  slot_eq _ _ h := nomatch h
  joins _ _ h := nomatch h
  held _ h := absurd h List.not_mem_nil
  named _ h := absurd h List.not_mem_nil

/-- **One more declaration** goes into the binding of its slot; the bindings of other slots stay. -/
theorem insert (h : Merged called ds t) {b : ShaderBinding} (hslot : b.slot = e.1.slot)
    (hb : b.Joins called (ds ++ [e])) (hname : (e.1.nameFrom? called).isSome = true) :
    Merged called (ds ++ [e]) (t.insert e.1.slot b) where
  sorted := h.sorted.insert _ _
  slot_eq := by
    intro slot b' hb'
    rw [SlotTable.find?_insert] at hb'
    split at hb'
    · next heq =>
      obtain rfl := Option.some.inj hb'
      rw [hslot, heq]
    · exact h.slot_eq slot b' hb'
  joins := by
    intro slot b' hb'
    rw [SlotTable.find?_insert] at hb'
    split at hb'
    · obtain rfl := Option.some.inj hb'
      exact hb
    · next hne => exact (h.joins slot b' hb').skip (h.slot_eq slot b' hb' ▸ Ne.symm hne)
  held := by
    refine forall_mem_concat_iff.2 ⟨fun e' he' => ?_, ?_⟩
    · rw [SlotTable.find?_insert]
      split
      · rfl
      · exact h.held e' he'
    · rw [SlotTable.find?_insert, if_pos rfl]
      rfl
  named := forall_mem_concat_iff.2 ⟨h.named, hname⟩

theorem add (h : Merged names.find? ds t) (hadd : addDeclared shader names t e = .ok t') :
    Merged names.find? (ds ++ [e]) t' := by
  obtain ⟨name, type, detail, hname, hmeans, hcases⟩ := of_addDeclared hadd
  rcases hcases with ⟨hnone, rfl⟩ | ⟨b, hb, rfl, rfl, rfl⟩
  · have hnew : ∀ e' ∈ ds, e'.1.slot ≠ e.1.slot := by
      intro e' he' hslot
      have hheld := h.held e' he'
      rw [hslot, hnone] at hheld
      cases hheld
    exact h.insert rfl (.single hnew hname hmeans) (Option.isSome_of_eq_some hname)
  · have hslot := h.slot_eq _ _ hb
    exact h.insert hslot ((h.joins _ _ hb).widen hslot.symm hmeans) (Option.isSome_of_eq_some hname)

end Merged

/-- **All declarations that go through are in the table.** -/
theorem merged_of_foldlM (h : ds.foldlM (addDeclared shader names) .empty = .ok t) :
    Merged names.find? ds t := by
  -- From the end of the list: the table is told by the declarations in front of the next one.
  induction ds using List.reverseRecOn generalizing t with
  | nil =>
    obtain rfl := Except.ok.inj h
    exact .empty _
  | append_singleton ds e ih =>
    rw [List.foldlM_append, Except.bind_eq_ok_iff] at h
    obtain ⟨t', ht', h⟩ := h
    rw [List.foldlM_cons, Except.bind_eq_ok_iff] at h
    obtain ⟨t'', ht'', h⟩ := h
    obtain rfl := Except.ok.inj h
    exact (ih ht').add ht''

end Shader

end FrameGraph
