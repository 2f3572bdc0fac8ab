import FrameGraph.Proofs.Compiling
import FrameGraph.Proofs.Ownership
import FrameGraph.Proofs.World

/-!
# Runs

A run makes images elsewhere, carries operations out, and analyses and compiles frames, any number
of them in any order (`World.Step`). All along, the forest stays well-formed and keeps one ledger
with the device (`Intact.run`), and the device changes by single objects (`Intact.step`).
-/

set_option autoImplicit false

namespace FrameGraph

open Relation (ReflTransGen)

/-- One step of a run. With `reuse` an image made elsewhere may be brought in more than once. -/
inductive World.Step (reuse : Bool) : World → World → Prop
  | mint (w : World) :
      Step reuse w ⟨w.forest, w.device.externalImage.2, w.spare ++ [w.device.externalImage.1]⟩
  /-- A mount that the device ends early is an operation that is carried out, too. -/
  | operate {w : World} {o : Operation} {f : Forest} {d : Headless} (himages : o.images ⊆ w.spare)
      (hnodup : reuse = false → o.images.Nodup) (ho : o.run w.forest w.device = .ok (f, d)) :
      Step reuse w ⟨f, d, if reuse then w.spare else w.spare.filter (· ∉ o.images)⟩
  | frame {w : World} {passes : List Pass} {shaders : Registry} {a : Analysis} {f : Forest}
      (ha : (analyze passes w.forest shaders).result = .ok (a, f)) :
      Step reuse w ⟨f, w.device, w.spare⟩
  /-- The plan may fail to be made; what is left then goes on. -/
  | compile {w : World} {graph : PassGraph} {shaders : Registry} {cache cache' : ObjectCache}
      {r : Except DeviceError Plan} {f : Forest} {d : Headless}
      (h : (compileFrame graph w.forest shaders cache w.device).result = .ok (r, f, cache', d)) :
      Step reuse w ⟨f, d, w.spare⟩

/-- What every step of a run keeps. -/
structure World.Intact (w : World) : Prop where
  wellFormed : w.forest.WellFormed
  ledger : Ledger w.forest w.device w.spare

namespace World

variable {reuse : Bool} {w w' : World}

/-- **A step keeps the forest well-formed and the ledger right**, and comes to steps of the
device. -/
theorem Intact.step (hw : w.Intact) (h : Step reuse w w') :
    w'.Intact ∧ ReflTransGen Headless.Change w.device w'.device := by
  cases h with
  | mint =>
    have hd := w.device.externalImage_same
    exact ⟨⟨hw.wellFormed, hw.ledger.mint⟩, .single (.same hd)⟩
  | operate himages _ ho =>
    have hf := Operation.wellFormed ho hw.wellFormed
    have hd := Operation.changes ho
    cases reuse with
    | true => exact ⟨⟨hf, hw.ledger.operate himages (List.Subset.refl _) ho⟩, hd⟩
    | false => exact ⟨⟨hf, hw.ledger.operate himages (List.filter_subset_self _) ho⟩, hd⟩
  | frame ha =>
    exact ⟨⟨wellFormed_of_frame ha hw.wellFormed, hw.ledger.frame ha (.refl _)⟩, .refl⟩
  | compile h =>
    obtain ⟨⟨a, ha⟩, hd⟩ := compileFrame_ok h
    exact ⟨⟨wellFormed_of_frame ha hw.wellFormed, hw.ledger.frame ha hd⟩, .single (.same hd)⟩

theorem Intact.empty : Intact {} := ⟨.empty, .empty⟩

/-- **Every world of a run is intact**, and so is every one that it comes to. -/
theorem Intact.run (hw : w.Intact) (hr : ReflTransGen (Step reuse) w w') :
    w'.Intact ∧ ReflTransGen Headless.Change w.device w'.device :=
  kept_by_all (P := fun w' => w'.Intact ∧ ReflTransGen Headless.Change w.device w'.device)
    (fun _ _ h hs => ⟨(hs.1.step h).1, hs.2.trans (hs.1.step h).2⟩) hr ⟨hw, .refl⟩

end World

end FrameGraph
