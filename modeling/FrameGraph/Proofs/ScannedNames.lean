import FrameGraph.Proofs.ScannedSlots
import FrameGraph.Proofs.ShaderHistories

/-!
# The names that sources give to slots

The sources of a shader are scanned in stage order, and a slot keeps the name that it got first. So
the name of a slot is that in the source of the first stage that declares it
(`Shader.scanSources_spec`).
-/

set_option autoImplicit false

namespace FrameGraph

/-! ## What the sources call a slot -/

namespace SourceScan

/-- The name that a source gives to a slot. -/
def nameOf? (source : String) (slot : Nat) : Option String :=
  (scan source).result.toOption.bind (·.find? slot)

theorem nameOf?_eq (source : String) (slot : Nat) :
    nameOf? source slot = (SlotTable.empty.offerAll (entries source)).find? slot := by
  rw [nameOf?, result_scan]
  rfl

end SourceScan

/-- A search through keys in their order finds what a search through the entries finds, where the
entries stand in that order. -/
theorem findSome?_lookup {α β γ : Type} [BEq α] [LawfulBEq α] {keys : List α} {l : List (α × β)}
    (h : (l.map (·.1)).Sublist keys) (hkeys : keys.Nodup) (f : β → Option γ) :
    (keys.findSome? fun a => (l.lookup a).bind f) = l.findSome? fun e => f e.2 := by
  induction keys generalizing l with
  | nil =>
    obtain rfl := List.map_eq_nil_iff.1 (List.sublist_nil.1 h)
    rfl
  | cons a keys ih =>
    rw [List.nodup_cons] at hkeys
    obtain ⟨ha, hkeys⟩ := hkeys
    rcases List.sublist_cons_iff.1 h with h | ⟨rest, hl, h⟩
    · have hnone : l.lookup a = none := List.lookup_eq_none_iff.2 fun e he =>
        bne_iff_ne.2 fun heq => ha (heq ▸ h.subset (List.mem_map_of_mem he))
      rw [List.findSome?_cons, hnone, Option.bind_none]
      exact ih h hkeys
    · obtain ⟨⟨a', b⟩, l, rfl, rfl, rfl⟩ := List.map_eq_cons_iff.1 hl
      -- The keys behind the first differ from it, so they pass over the first entry.
      have hbehind : (keys.findSome? fun k => (List.lookup k ((a', b) :: l)).bind f) =
          keys.findSome? fun k => (l.lookup k).bind f := by
        rw [← List.head?_filterMap, ← List.head?_filterMap]
        refine congrArg List.head? (List.filterMap_congr fun k hk => ?_)
        have hne : (k == a') = false := beq_eq_false_iff_ne.2 fun heq => ha (heq ▸ hk)
        rw [List.lookup_cons, hne]
      rw [List.findSome?_cons, List.lookup_cons_self, Option.bind_some, hbehind,
        ih h hkeys, List.findSome?_cons]

namespace Shader

variable {shader : String} {sources : Sources}

/-- What the sources call a slot: the first of the stages whose source declares it decides. -/
def scannedName? (sources : Sources) (slot : Nat) : Option String :=
  ShaderStage.all.findSome? fun stage =>
    (sources.lookup stage).bind fun source => SourceScan.nameOf? source.text slot

theorem result_addScanned (t : SlotTable String) (e : Nat × String) :
    (addScanned shader t e).result = .ok (t.offer e) := by
  unfold addScanned SlotTable.offer
  dsimp only
  cases t.find? e.1 with
  | none => rfl
  | some existing =>
    dsimp only
    split <;> rfl

theorem foldlM_addScanned (t : SlotTable String) (es : List (Nat × String)) :
    (es.foldlM (addScanned shader) t).result = .ok (t.offerAll es) := by
  rw [Traced.result_foldlM]
  simp only [result_addScanned]
  exact List.foldlM_pure

/-- The names of a source, offered to the table behind those of the sources before it. -/
def offerScanned (t : SlotTable String) (e : ShaderStage × ShaderSource) : SlotTable String :=
  t.offerAll (SlotTable.empty.offerAll (SourceScan.entries e.2.text)).entries

theorem find?_foldl_offerScanned (sources : Sources) (t : SlotTable String) (slot : Nat) :
    (sources.foldl offerScanned t).find? slot =
      (t.find? slot).or (sources.findSome? fun e => SourceScan.nameOf? e.2.text slot) := by
  induction sources generalizing t with
  | nil => exact Option.or_none.symm
  | cons e sources ih =>
    have hname := SourceScan.nameOf?_eq e.2.text slot
    rw [SlotTable.find?] at hname
    rw [List.foldl_cons, ih, offerScanned, SlotTable.find?_offerAll, Option.or_assoc, ← hname,
      List.findSome?_cons]
    cases SourceScan.nameOf? e.2.text slot <;> rfl

/-- **The scan of the sources always ends**, with what the sources call each slot. -/
theorem scanSources_spec (shader : String)
    (hsources : (sources.map (·.1)).Sublist ShaderStage.all) :
    ∃ names, (scanSources shader sources).result = .ok names ∧
      names.find? = scannedName? sources := by
  refine ⟨sources.foldl offerScanned .empty, ?_, ?_⟩
  · have hstep : ∀ (t : SlotTable String) (e : ShaderStage × ShaderSource),
        (SourceScan.scan e.2.text >>= fun s => s.entries.foldlM (addScanned shader) t).result =
          .ok (offerScanned t e) := by
      intro t e
      rw [Traced.result_bind, SourceScan.result_scan]
      exact foldlM_addScanned t _
    rw [scanSources, Traced.result_foldlM, funext₂ hstep]
    exact List.foldlM_pure
  · funext slot
    rw [find?_foldl_offerScanned, scannedName?, findSome?_lookup hsources ShaderStage.nodup_all]
    rfl

end Shader

end FrameGraph
