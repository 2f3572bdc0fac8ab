import FrameGraph.Proofs.Collecting

/-!
# The attachments of an accepted frame

The render pass at a position of an accepted frame has the attachments of the uses of the pass at
that position (`exists_collects`), each with the view that its resource stands for
(`exists_target_of_render`).
-/

set_option autoImplicit false

namespace FrameGraph

section
variable {f f' : Forest} {shaders : Registry} {pass : Pass} {passes : List Pass}
  {uses : List PassUses} {a : Analysis} {i : Nat}

section
variable (huses : (frameUses f shaders passes).result = .ok uses)
include huses

theorem pass_of_target {r : PassUses} {t : RenderTarget AttachmentUse} (hr : uses[i]? = some r)
    (ht : r.target = some t) : t.pass = i := by
  obtain ⟨pass, -, hok⟩ := exists_pass_of_getElem? huses hr
  exact ((passUses_ok hok).2.2 t ht).1

/-- A render pass is found by its position in the frame. -/
theorem find?_targets (i : Nat) :
    (uses.filterMap (·.target)).find? (·.pass == i) = (uses[i]?).bind (·.target) := by
  have hat {t : RenderTarget AttachmentUse} (ht : t ∈ uses.filterMap (·.target))
      (hti : (t.pass == i) = true) : (uses[i]?).bind (·.target) = some t := by
    obtain ⟨r, hr, hrt⟩ := List.mem_filterMap.1 ht
    obtain ⟨j, hj⟩ := List.mem_iff_getElem?.1 hr
    obtain rfl : j = i := (pass_of_target huses hj hrt).symm.trans (beq_iff_eq.1 hti)
    rw [hj, Option.bind_some, hrt]
  cases hfind : (uses.filterMap (·.target)).find? (·.pass == i) with
  | some t =>
    have hti : (t.pass == i) = true := by simpa using List.find?_some hfind
    exact (hat (List.mem_of_find?_eq_some hfind) hti).symm
  | none =>
    cases hi : (uses[i]?).bind (·.target) with
    | none => rfl
    | some t =>
      obtain ⟨r, hr, hrt⟩ := Option.bind_eq_some_iff.1 hi
      have hmem := List.mem_filterMap.2 ⟨r, List.mem_of_getElem? hr, hrt⟩
      exact absurd (beq_iff_eq.2 (pass_of_target huses hr hrt)) (List.find?_eq_none.1 hfind t hmem)

/-- Of the render passes in the order of the frame, the one at position `i` is that of the pass
there. -/
theorem target?_ofUses (i : Nat) :
    (Analysis.ofUses f uses).target? i = ((uses[i]?).bind (·.target)).map fun t =>
      t.map (AttachmentUse.finish (Analysis.ofUses f uses).timelines i) := by
  show ((uses.filterMap (·.target)).map _).find? _ = _
  rw [List.find?_map]
  show Option.map _ ((uses.filterMap (·.target)).find? (·.pass == i)) = _
  rw [find?_targets huses]
  cases hi : (uses[i]?).bind (·.target) with
  | none => rfl
  | some t =>
    obtain ⟨r, hr, hrt⟩ := Option.bind_eq_some_iff.1 hi
    rw [Option.map_some, Option.map_some, pass_of_target huses hr hrt]
    rfl

end

/-- **The render pass at a position of an accepted frame** has the attachments of its uses, and the
timelines of the frame tell what happens to their contents. -/
theorem exists_collects (h : (analyze passes f shaders).result = .ok (a, f'))
    (hpass : passes[i]? = some pass) (hkind : pass.kind = .render) : ∃ t, Collects f pass.uses t ∧
      a.target? i = some (t.map (AttachmentUse.finish a.timelines i)) := by
  obtain ⟨uses, huses, rfl, -⟩ := analyze_ok_iff.1 h
  obtain ⟨r, hr, hok⟩ := (frameUses_ok huses).2 i pass hpass
  obtain ⟨t, ht, hcollects⟩ := collects_of_passUses hkind hok
  refine ⟨t, hcollects, ?_⟩
  rw [target?_ofUses huses, hr, Option.bind_some, ht]
  rfl

/-- A render pass of an accepted frame has an attachment for what it uses, each with the view that
its resource stands for. -/
theorem exists_target_of_render (h : (analyze passes f shaders).result = .ok (a, f'))
    (hpass : passes[i]? = some pass) (hkind : pass.kind = .render) :
    ∃ t, a.target? i = some t ∧ (t.attachments = [] ↔ pass.uses = []) ∧
      ∀ x ∈ t.attachments, f.imageViewHandle x.resource = .ok x.view := by
  obtain ⟨t, hcollects, ht⟩ := exists_collects h hpass hkind
  refine ⟨_, ht, ?_, fun x hx => ?_⟩
  · rw [← hcollects.attachments_eq_nil_iff]
    exact List.map_eq_nil_iff
  · obtain ⟨y, hy, rfl⟩ := List.mem_map.1 hx
    rw [AttachmentUse.toAttachmentUse_finish]
    exact hcollects.imageViewHandle_eq hy

end

end FrameGraph
