import FrameGraph.Proofs.CarriedStates
import FrameGraph.Proofs.Runs
import FrameGraph.Proofs.WellBuilt

/-!
# Histories

The history of a forest lists the operations that were carried out on it, in their order. Frames may
be analysed in between, and the device may be in any state when an operation comes
(`Forest.Reached`), so that the forest of every session has a history (`Session.exists_reached`). A
run has a history, too (`World.exists_ran`), which is one of its forest (`World.Ran.reached`).

The clock of a forest counts the mounts of its history (`Forest.Reached.life_eq`).
-/

set_option autoImplicit false

namespace FrameGraph

open Relation (ReflTransGen)

/-- The forests that come of operations in this order, with frames in between. -/
inductive Forest.Reached (δ : Type) [Device δ] : List Operation → Forest → Prop
  | start : Reached δ [] {}
  /-- A mount that the device ends early is an operation that is carried out, too. -/
  | operate {os : List Operation} {o : Operation} {f f' : Forest} {d d' : δ} (h : Reached δ os f)
      (ho : o.run f d = .ok (f', d')) : Reached δ (os ++ [o]) f'
  | frame {os : List Operation} {passes : List Pass} {f f' : Forest} {shaders : Registry}
      {a : Analysis} (h : Reached δ os f) (ha : (analyze passes f shaders).result = .ok (a, f')) :
      Reached δ os f'

/-- Runs and the operations that they carry out, in their order. -/
inductive World.Ran (reuse : Bool) : List Operation → World → Prop
  | start : Ran reuse [] {}
  | operate {os : List Operation} {w : World} {o : Operation} {f : Forest} {d : Headless}
      (h : Ran reuse os w) (himages : o.images ⊆ w.spare)
      (hnodup : reuse = false → o.images.Nodup) (ho : o.run w.forest w.device = .ok (f, d)) :
      Ran reuse (os ++ [o]) ⟨f, d, if reuse then w.spare else w.spare.filter (· ∉ o.images)⟩
  | mint {os : List Operation} {w : World} (h : Ran reuse os w) :
      Ran reuse os ⟨w.forest, w.device.externalImage.2, w.spare ++ [w.device.externalImage.1]⟩
  | frame {os : List Operation} {w : World} {passes : List Pass} {shaders : Registry}
      {a : Analysis} {f : Forest} (h : Ran reuse os w)
      (ha : (analyze passes w.forest shaders).result = .ok (a, f)) :
      Ran reuse os ⟨f, w.device, w.spare⟩
  | compile {os : List Operation} {w : World} {graph : PassGraph} {shaders : Registry}
      {cache cache' : ObjectCache} {r : Except DeviceError Plan} {f : Forest} {d : Headless}
      (h : Ran reuse os w)
      (hc : (compileFrame graph w.forest shaders cache w.device).result = .ok (r, f, cache', d)) :
      Ran reuse os ⟨f, d, w.spare⟩

namespace World

variable {reuse : Bool} {os : List Operation} {w : World}

/-- Without its history, a run is a run. -/
theorem Ran.run (h : Ran reuse os w) : ReflTransGen (Step reuse) {} w := by
  induction h with
  | start => exact .refl
  | operate _ himages hnodup ho ih => exact ih.tail (.operate himages hnodup ho)
  | mint _ ih => exact ih.tail (.mint _)
  | frame _ ha ih => exact ih.tail (.frame ha)
  | compile _ hc ih => exact ih.tail (.compile hc)

/-- **Every run has a history.** -/
theorem exists_ran (h : ReflTransGen (Step reuse) {} w) : ∃ os, Ran reuse os w := by
  induction h with
  | refl => exact ⟨[], .start⟩
  | tail _ hstep ih =>
    obtain ⟨os, h⟩ := ih
    cases hstep with
    | mint => exact ⟨os, h.mint⟩
    | operate himages hnodup ho => exact ⟨_, h.operate himages hnodup ho⟩
    | frame ha => exact ⟨os, h.frame ha⟩
    | compile hc => exact ⟨os, h.compile hc⟩

/-- **The history of a run is that of its forest.** -/
theorem Ran.reached (h : Ran reuse os w) : Forest.Reached Headless os w.forest := by
  induction h with
  | start => exact .start
  | operate _ _ _ ho ih => exact ih.operate ho
  | mint _ ih => exact ih
  | frame _ ha ih => exact ih.frame ha
  | compile _ hc ih =>
    obtain ⟨a, -, ha, -⟩ := compileFrame_ok_iff.1 hc
    exact ih.frame ha

end World

/-! ## The clock -/

section
variable {δ : Type} [Device δ] {f f' : Forest} {d d' : δ}

theorem life_of_releases {s s' : Forest × δ} (h : Releases s s') : s'.1.life = s.1.life := by
  obtain ⟨h⟩ := h
  rcases releaseNode_ok h with ⟨rfl, -⟩ | ⟨n, payload, -, -, rfl⟩
  · rfl
  · rfl

/-- A mount moves the clock on, whether it goes through or not. -/
theorem life_of_mount {name : String} {r : Except DeviceError Unit}
    (h : (f.mount name d).result = .ok (r, f', d')) : f'.life = f.life + 1 := by
  obtain ⟨p, g, -, hg, h⟩ := mount_ok h
  rw [(mountNodes_node h).1]
  rcases expandSwapchain_unfolds hg with rfl | ⟨-, hunfolds⟩
  · rfl
  · exact (node_of_unfolds hunfolds).1

/-- **Of all operations, only mounts move the clock on.** -/
theorem Operation.life {o : Operation} (h : o.run f d = .ok (f', d')) :
    f'.life = f.life + if o.isMount then 1 else 0 := by
  rcases o.run_whole h with ⟨hmount, halters, -⟩ | ⟨hmount, hreleases⟩ | ⟨name, r, rfl, hr⟩
  · rw [hmount]
    cases halters with
    | add _ _ => rfl
    | addImage _ _ _ => rfl
    | addSwapchain _ _ => rfl
    | acquire _ _ _ => rfl
  · rw [hmount]
    exact kept_by_all (P := fun s : Forest × δ => s.1.life = f.life)
      (fun _ _ hstep hs => (life_of_releases hstep).trans hs) hreleases rfl
  · exact life_of_mount hr

end

namespace Forest.Reached

variable {δ : Type} [Device δ] {os : List Operation} {f : Forest}

/-- **What operations and frames keep holds of every forest with a history.** -/
theorem kept {P : Forest → Prop} (h : Reached δ os f) (hstart : P {})
    (hoperate : ∀ {o : Operation} {f f' : Forest} {d d' : δ},
      o.run f d = .ok (f', d') → P f → P f')
    (hframe : ∀ {passes : List Pass} {f f' : Forest} {shaders : Registry} {a : Analysis},
      (analyze passes f shaders).result = .ok (a, f') → P f → P f') : P f := by
  induction h with
  | start => exact hstart
  | operate _ ho ih => exact hoperate ho ih
  | frame _ ha ih => exact hframe ha ih

theorem wellFormed (h : Reached δ os f) : f.WellFormed :=
  h.kept .empty Operation.wellFormed wellFormed_of_frame

theorem related (h : Reached δ os f) : f.Related :=
  h.kept .empty Operation.related related_of_frame

theorem furnished (h : Reached δ os f) : f.Furnished :=
  h.kept .empty Operation.furnished furnished_of_frame

theorem carriesFit (h : Reached δ os f) : f.CarriesFit := by
  refine (h.kept (P := fun f => f.Seated ∧ f.CarriesFit) ⟨.empty, fun i n hn => ?_⟩
    (fun ho hf => ⟨Operation.seated ho hf.1, Operation.carriesFit ho hf.2⟩)
    fun ha hf => ⟨seated_of_frame ha hf.1, carriesFit_of_frame hf.1 ha hf.2⟩).2
  simp at hn

theorem proper (h : Reached Headless os f) : f.Proper :=
  h.kept .empty (fun ho hf => hf.operate ho) fun ha hf => hf.frame ha

/-- **The clock counts the mounts.** -/
theorem life_eq (h : Reached δ os f) : f.life = os.countP (·.isMount) := by
  induction h with
  | start => rfl
  | @operate os o _ _ _ _ _ ho ih =>
    rw [Operation.life ho, ih, List.countP_append, List.countP_singleton]
  | frame _ ha ih =>
    obtain ⟨-, -, -, rfl⟩ := analyze_ok_iff.1 ha
    rw [life_carry, ih]

end Forest.Reached

/-- **The forest of every session has a history.** -/
theorem Session.exists_reached {δ : Type} [Device δ]
    {Aside : ObjectCache × δ → ObjectCache × δ → Prop} {d : δ} {s : Session δ}
    (h : ReflTransGen (Session.Step Aside) { device := d } s) :
    ∃ os, s.forest.Reached δ os := by
  refine Session.forest_kept (P := fun f => ∃ os, f.Reached δ os) (fun ho hf => ?_)
    (fun ha hf => ?_) h ⟨[], .start⟩
  · obtain ⟨os, hf⟩ := hf
    exact ⟨_, hf.operate ho⟩
  · obtain ⟨os, hf⟩ := hf
    exact ⟨os, hf.frame ha⟩

end FrameGraph
