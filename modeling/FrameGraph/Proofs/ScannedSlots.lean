import FrameGraph.Proofs.Outcomes
import FrameGraph.Shader.SourceScan

/-!
# The slots that a scan reports

The declarations of a source are offered to the table one after the other, and a slot goes to the
first that asks for it (`SlotTable.find?_offerAll`). So the table of a scan lists, in increasing
order, each slot that a declaration of set 0 names, with the first of the names (`scan_spec`).
-/

set_option autoImplicit false

namespace FrameGraph

/-! ## Tables -/

namespace SlotTable

variable {α : Type} {t : SlotTable α} {slot k : Nat} {a : α}

/-- Whether the slots stand in increasing order. -/
def Sorted (t : SlotTable α) : Prop := t.slots.Pairwise (· < ·)

theorem Sorted.empty : Sorted (empty : SlotTable α) := .nil

theorem mem_slots_insertInto {l : List (Nat × α)} :
    k ∈ (insertInto slot a l).map (·.1) ↔ k = slot ∨ k ∈ l.map (·.1) := by
  induction l with
  | nil => simp [insertInto]
  | cons e rest ih =>
    rw [insertInto]
    split
    · simp
    · split
      · next heq => simp [heq]
      · simp only [List.map_cons, List.mem_cons, ih]
        tauto

/-- **What is put in goes to its place.** -/
theorem Sorted.insert (h : t.Sorted) (slot : Nat) (a : α) : (t.insert slot a).Sorted := by
  obtain ⟨l⟩ := t
  simp only [Sorted, slots, SlotTable.insert] at h ⊢
  induction l with
  | nil => simp [insertInto]
  | cons e rest ih =>
    obtain ⟨hbehind, hrest⟩ := List.pairwise_cons.1 h
    rw [insertInto]
    split
    · next hlt =>
      refine List.pairwise_cons.2 ⟨fun k hk => ?_, h⟩
      rcases List.mem_cons.1 hk with rfl | hk
      · exact hlt
      · exact Nat.lt_trans hlt (hbehind k hk)
    · split
      · next heq =>
        subst heq
        exact List.pairwise_cons.2 ⟨hbehind, hrest⟩
      · refine List.pairwise_cons.2 ⟨fun k hk => ?_, ih hrest⟩
        rcases mem_slots_insertInto.1 hk with rfl | hk
        · change e.1 < k
          omega
        · exact hbehind k hk

/-- In a table with every slot once, an entry is what stands at its slot. -/
theorem Sorted.mem_entries_iff (h : t.Sorted) : (k, a) ∈ t.entries ↔ t.find? k = some a := by
  rw [find?, List.lookup_eq_some_iff]
  constructor
  · intro hmem
    obtain ⟨before, behind, hsplit⟩ := List.append_of_mem hmem
    refine ⟨before, behind, hsplit, fun e he => bne_iff_ne.2 ?_⟩
    rw [Sorted, slots, hsplit, List.map_append, List.pairwise_append] at h
    have hlt := h.2.2 _ (List.mem_map_of_mem he) _ (List.mem_map_of_mem List.mem_cons_self)
    exact Nat.ne_of_gt hlt
  · rintro ⟨before, behind, hsplit, -⟩
    simp [hsplit]

/-- The table with one more entry, unless its slot is taken. -/
def offer (t : SlotTable α) (e : Nat × α) : SlotTable α :=
  match t.find? e.1 with
  | none => t.insert e.1 e.2
  | some _ => t

theorem find?_offer (t : SlotTable α) (e : Nat × α) (k : Nat) :
    (t.offer e).find? k = (t.find? k).or (if k = e.1 then some e.2 else none) := by
  unfold offer
  cases he : t.find? e.1 with
  | none =>
    rw [find?_insert]
    by_cases hk : k = e.1
    · rw [if_pos hk, if_pos hk, hk, he, Option.none_or]
    · rw [if_neg hk, if_neg hk, Option.or_none]
  | some b =>
    by_cases hk : k = e.1
    · rw [if_pos hk, hk, he, Option.some_or]
    · rw [if_neg hk, Option.or_none]

theorem Sorted.offer (h : t.Sorted) (e : Nat × α) : (t.offer e).Sorted := by
  unfold SlotTable.offer
  split
  · exact h.insert _ _
  · exact h

/-- The table with more entries, each unless its slot is taken then. -/
def offerAll (t : SlotTable α) (es : List (Nat × α)) : SlotTable α := es.foldl offer t

/-- **A slot goes to the first that asks for it.** -/
theorem find?_offerAll (t : SlotTable α) (es : List (Nat × α)) (k : Nat) :
    (t.offerAll es).find? k = (t.find? k).or (es.lookup k) := by
  unfold offerAll
  induction es generalizing t with
  | nil => simp
  | cons e es ih =>
    obtain ⟨slot, a⟩ := e
    rw [List.foldl_cons, ih, find?_offer, Option.or_assoc, List.lookup_cons]
    by_cases hk : k = slot
    · simp [hk]
    · rw [if_neg hk, Option.none_or, beq_eq_false_iff_ne.2 hk]

theorem Sorted.offerAll (h : t.Sorted) (es : List (Nat × α)) : (t.offerAll es).Sorted := by
  unfold SlotTable.offerAll
  induction es generalizing t with
  | nil => exact h
  | cons e es ih => exact ih (h.offer e)

end SlotTable

namespace SourceScan

/-- The key of the slot in a qualifier list. -/
def bindingKey : List Char := ['b', 'i', 'n', 'd', 'i', 'n', 'g']

/-- The key of the descriptor set. -/
def setKey : List Char := ['s', 'e', 't']

/-! ## What a declaration asks for -/

/-- The slot and the name that a declaration asks for. -/
def Declaration.request? (d : Declaration) : Option (Nat × String) :=
  d.slot?.bind fun slot => (declaredName? d.declared).map fun name => (slot, name)

theorem Declaration.request?_eq_some_iff {d : Declaration} {slot : Nat} {name : String} :
    d.request? = some (slot, name) ↔ d.slot? = some slot ∧ declaredName? d.declared = some name := by
  simp only [request?, Option.bind_eq_some_iff, Option.map_eq_some_iff, Prod.mk.injEq]
  constructor
  · rintro ⟨slot', hslot, name', hname, rfl, rfl⟩
    exact ⟨hslot, hname⟩
  · rintro ⟨hslot, hname⟩
    exact ⟨slot, hslot, name, hname, rfl, rfl⟩

/-- The declarations of a source. -/
def found (source : String) : List Declaration := declarations (stripComments source.toList)

/-- What the declarations of a source ask for, in their order. -/
def entries (source : String) : List (Nat × String) :=
  (found source).filterMap Declaration.request?

/-- A declaration that asks for nothing is passed over. -/
theorem result_addDeclaration (t : SlotTable String) (d : Declaration) :
    (addDeclaration t d).result = .ok (d.request?.elim t t.offer) := by
  unfold addDeclaration Declaration.request?
  cases d.slot? with
  | none => rfl
  | some slot =>
    cases declaredName? d.declared with
    | none => rfl
    | some name =>
      simp only [Option.bind_some, Option.map_some, Option.elim_some, SlotTable.offer]
      cases t.find? slot with
      | none => rfl
      | some existing =>
        dsimp only
        split <;> rfl

theorem foldlM_addDeclaration (t : SlotTable String) (ds : List Declaration) :
    (ds.foldlM addDeclaration t).result =
      .ok (t.offerAll (ds.filterMap Declaration.request?)) := by
  induction ds generalizing t with
  | nil => rfl
  | cons d ds ih =>
    rw [List.foldlM_cons, Traced.result_bind, result_addDeclaration]
    refine (ih _).trans ?_
    cases hd : d.request? with
    | none => rw [List.filterMap_cons_none hd, Option.elim_none]
    | some e => rw [List.filterMap_cons_some hd, Option.elim_some, SlotTable.offerAll,
        SlotTable.offerAll, List.foldl_cons]

theorem result_scan (source : String) :
    (scan source).result = .ok (SlotTable.empty.offerAll (entries source)) :=
  foldlM_addDeclaration _ _

/-- **A scan always ends in a table**: its slots stand in increasing order, each with the name that
the first declaration gives it. -/
theorem scan_spec (source : String) : ∃ table, (scan source).result = .ok table ∧ table.Sorted ∧
    ∀ slot, table.find? slot = (entries source).lookup slot := by
  refine ⟨_, result_scan source, SlotTable.Sorted.empty.offerAll _, fun slot => ?_⟩
  rw [SlotTable.find?_offerAll]
  rfl

end SourceScan

end FrameGraph
