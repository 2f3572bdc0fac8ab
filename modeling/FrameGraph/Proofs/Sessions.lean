import FrameGraph.Proofs.Compiling
import FrameGraph.Proofs.Seats

/-!
# Sessions

A session is a forest with the device behind it and the cache of the objects that its frames take.
It goes on by operations on the resources, by analysed and by compiled frames (`Session.Step`), on
any device. What goes on aside from that, in the device or the cache, is left open.

What operations and frames keep of the resources holds all along (`Session.forest_kept`).
-/

set_option autoImplicit false

namespace FrameGraph

open Relation (ReflTransGen)

variable {δ : Type} [Device δ]

/-- Resources, the device and the objects kept from earlier frames. -/
structure Session (δ : Type) where
  forest : Forest := {}
  cache : ObjectCache := {}
  device : δ

namespace Session

/-- One step of a session. `Aside` tells what may become of cache and device between the steps that
the forest sees. -/
inductive Step (Aside : ObjectCache × δ → ObjectCache × δ → Prop) : Session δ → Session δ → Prop
  | aside {s : Session δ} {cache : ObjectCache} {d : δ}
      (h : Aside (s.cache, s.device) (cache, d)) : Step Aside s ⟨s.forest, cache, d⟩
  /-- A mount that the device ends early is an operation that is carried out, too. -/
  | operate {s : Session δ} {o : Operation} {f : Forest} {d : δ}
      (h : o.run s.forest s.device = .ok (f, d)) : Step Aside s ⟨f, s.cache, d⟩
  | frame {s : Session δ} {passes : List Pass} {shaders : Registry} {a : Analysis} {f : Forest}
      (h : (analyze passes s.forest shaders).result = .ok (a, f)) :
      Step Aside s ⟨f, s.cache, s.device⟩
  /-- The plan may fail to be made; what is left then goes on. -/
  | compile {s : Session δ} {graph : PassGraph} {shaders : Registry}
      {r : Except DeviceError Plan} {f : Forest} {cache : ObjectCache} {d : δ}
      (h : (compileFrame graph s.forest shaders s.cache s.device).result = .ok (r, f, cache, d)) :
      Step Aside s ⟨f, cache, d⟩

variable {Aside : ObjectCache × δ → ObjectCache × δ → Prop} {s s' : Session δ}

/-- **What operations and frames keep of the resources, a session keeps.** -/
theorem forest_kept {P : Forest → Prop}
    (hoperate : ∀ {o : Operation} {f f' : Forest} {d d' : δ},
      o.run f d = .ok (f', d') → P f → P f')
    (hframe : ∀ {passes : List Pass} {f f' : Forest} {shaders : Registry} {a : Analysis},
      (analyze passes f shaders).result = .ok (a, f') → P f → P f')
    (h : ReflTransGen (Step Aside) s s') (hs : P s.forest) : P s'.forest := by
  refine kept_by_all (P := fun s => P s.forest) (fun s s' h hs => ?_) h hs
  cases h with
  | aside _ => exact hs
  | operate h => exact hoperate h hs
  | frame h => exact hframe h hs
  | compile h =>
    obtain ⟨a, -, ha, -⟩ := compileFrame_ok_iff.1 h
    exact hframe ha hs

theorem wellFormed_kept (h : ReflTransGen (Step Aside) s s') (hs : s.forest.WellFormed) :
    s'.forest.WellFormed := forest_kept Operation.wellFormed wellFormed_of_frame h hs

theorem seated_kept (h : ReflTransGen (Step Aside) s s') (hs : s.forest.Seated) :
    s'.forest.Seated := forest_kept Operation.seated seated_of_frame h hs

end Session

end FrameGraph
