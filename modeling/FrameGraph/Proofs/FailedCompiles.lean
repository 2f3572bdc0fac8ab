import FrameGraph.Proofs.CarriedStates
import FrameGraph.Proofs.Recompiling
import FrameGraph.Proofs.Splitting

/-!
# Frames that are not compiled to the end

The analysis comes first when a frame is compiled, and with it the resources are in the states in
which the frame leaves them. When the device then refuses an object they stay there: a failed compile
leaves the resources as a compile that goes through does (`forest_of_failed`), and the next one starts
from there. So the barriers of the plan that was not made are not asked for again
(`not_forall_failed_untouched`).
-/

set_option autoImplicit false

namespace FrameGraph

/-- Whether no node carries another state than before. -/
def Forest.CarriesSame (f f' : Forest) : Prop :=
  f'.nodes.map (·.current) = f.nodes.map (·.current)

/-- Whether a frame has left its resources in the states of its last accesses. -/
structure Forest.LeftBy (f f' : Forest) (passes : List Pass) (a : Analysis) : Prop where
  onlyCarries : f.OnlyCarries f' passes
  accessed : ∀ t ∈ a.timelines, t.node.residency ≠ .dontCare →
    f'.nodes[t.index]? = some { t.node with current := t.finish }
  /-- A node without a timeline, or without contents that matter, is left alone. -/
  kept : ∀ (i : Nat) n, f.nodes[i]? = some n →
    (∀ t ∈ a.timelines, t.index = i → t.node.residency = .dontCare) → f'.nodes[i]? = some n

section
variable {passes : List Pass} {f f' : Forest} {shaders : Registry} {a : Analysis}

/-- **An analysis leaves the resources in the states of its timelines.** -/
theorem leftBy_of_analyze (h : (analyze passes f shaders).result = .ok (a, f')) :
    f.LeftBy f' passes a := by
  refine ⟨onlyCarries_of_frame h, fun t ht hres => ?_, fun i n hn hidle => ?_⟩
  · obtain ⟨frame, -, ha, rfl⟩ := analyze_frame h
    have hn := (node_of_mem_timelines h ht).1
    rw [ha] at ht ⊢
    have heq := Timeline.eq_ofNode ht rfl hn
    have hused : t.entries ≠ [] := by
      rw [heq, Timeline.ofNode_mem_iff hn] at ht
      rw [heq]
      exact ht
    rw [nodes_carry_ofFrame, hn, Option.map_some, ← heq, Timeline.after,
      Timeline.left_of_used hres hused]
  · obtain ⟨-, -, -, rfl⟩ := analyze_ok_iff.1 h
    obtain ⟨s, hs, ⟨t, ht, hi, hres, -⟩ | ⟨rfl, -⟩⟩ := Forest.exists_carry a.timelines hn
    · exact absurd (hidle t ht hi) hres
    · exact hs

end

section
variable {δ : Type} [Device δ] {graph : PassGraph} {f f' : Forest}
  {shaders : Registry} {cache cache' : ObjectCache} {d d' : δ} {e : DeviceError}

/-- **A failed compile leaves the resources as its frame would have left them**, whatever the device
refuses and when: as the analysis of the frame leaves them, and as every other compile of the frame
does, with whichever device and cache. -/
theorem forest_of_failed
    (h : (compileFrame graph f shaders cache d).result = .ok (.error e, f', cache', d')) :
    (∃ a, (analyze graph.passes f shaders).result = .ok (a, f') ∧ f.LeftBy f' graph.passes a) ∧
    ∀ (δ' : Type) [Device δ'] (c c' : ObjectCache) (x x' : δ') r g,
      (compileFrame graph f shaders c x).result = .ok (r, g, c', x') → g = f' := by
  obtain ⟨a, steps, ha, -, -⟩ := compileFrame_ok_iff.1 h
  refine ⟨⟨a, ha, leftBy_of_analyze ha⟩, fun δ' _ c c' x x' r g hr => ?_⟩
  obtain ⟨b, -, hb, -, -⟩ := compileFrame_ok_iff.1 hr
  rw [ha] at hb
  exact (Prod.mk.inj (Except.ok.inj hb)).2.symm

end

/-! ### A device that runs out of objects for plans -/

/-- A headless device that makes `left` more objects for plans and refuses all others. -/
structure Rationed where
  device : Headless
  left : Nat

namespace Rationed

variable {α : Type}

/-- A call that takes nothing from the ration. -/
def free (call : DeviceCall Headless α) : DeviceCall Rationed α := fun d =>
  ((call d.device).1, ⟨(call d.device).2, d.left⟩)

/-- A call that takes one from the ration. -/
def taken (call : DeviceCall Headless α) : DeviceCall Rationed α := fun d =>
  match d.left with
  | 0 => (.error .initializationFailed, d)
  | left + 1 => ((call d.device).1, ⟨(call d.device).2, left⟩)

instance : Device Rationed where
  createBuffer desc name := free (Device.createBuffer desc name)
  createBufferView h desc name := free (Device.createBufferView h desc name)
  createImage desc name := free (Device.createImage desc name)
  createImageView h desc name := free (Device.createImageView h desc name)
  destroyBuffer h d := (Device.destroyBuffer h d.device).map fun e => ⟨e, d.left⟩
  destroyBufferView h d := (Device.destroyBufferView h d.device).map fun e => ⟨e, d.left⟩
  destroyImage h d := (Device.destroyImage h d.device).map fun e => ⟨e, d.left⟩
  destroyImageView h d := (Device.destroyImageView h d.device).map fun e => ⟨e, d.left⟩
  createRenderPass desc := taken (Device.createRenderPass desc)
  createFramebuffer desc := taken (Device.createFramebuffer desc)
  createPipeline desc := taken (Device.createPipeline desc)
  createSetLayout desc := taken (Device.createSetLayout desc)
  createPipelineLayout desc := taken (Device.createPipelineLayout desc)
  createShaderModule words name d := do
    let (r, e) ← Device.createShaderModule words name d.device
    pure (r, ⟨e, d.left⟩)

end Rationed

namespace Easel

/-- The device with the render pass of the first step only. -/
def passed : Headless := { device with
  lastHandle := 4
  created := { device.created with renderPasses := 1 } }

/-- What becomes of the canvas in the first pass. -/
def cleared : Attachment where
  toAttachmentUse := attachment
  loadOp := .clear
  storeOp := .store
  stencilLoadOp := .dontCare
  stencilStoreOp := .dontCare
  initialLayout := .undefined
  finalLayout := .colorAttachment
  layout := .colorAttachment

/-- The cache with that render pass. -/
def cached : ObjectCache where
  entries := [(.renderPass (.single [cleared.desc] { color := [⟨0, cleared.layout⟩] }), 4)]
  misses := 1

/-- The frame finds the canvas undefined and needs a barrier on it; the render pass is made, the
framebuffer is refused. -/
theorem compile_rationed :
    (compileFrame graph (forest 1 .undefined) shaders {} (⟨device, 1⟩ : Rationed)).result =
      .ok (.error .initializationFailed, forest 1 painted, cached, ⟨passed, 0⟩) := rfl

/-- The analysis of the frame once the canvas was painted. -/
def reanalysis : Analysis := .ofUses (forest 1 painted) uses

theorem analyze_painted : (analyze graph.passes (forest 1 painted) shaders).result =
    .ok (reanalysis, forest 1 painted) := rfl

def repaint : PlanStep := { Plan.bareStep reanalysis 0 ⟨"paint", .render, []⟩ with
  renderPass := some ⟨4⟩
  framebuffer := some ⟨5⟩
  extent := some ⟨4, 4⟩ }

def restroke : PlanStep := { Plan.bareStep reanalysis 1 ⟨"strokes", .draw "flat", []⟩ with
  owner := some 0
  pipeline := some ⟨⟨6⟩, ⟨7⟩, ⟨8⟩⟩ }

theorem compileStep_painted : ∃ cache cache',
    ((Plan.compileStep shaders reanalysis graph.passes [] 0
      ⟨"paint", .render, [.colorOutput "canvas"]⟩).run (cached, passed)).result =
        .ok (.ok repaint, cache, primed) ∧
    ((Plan.compileStep shaders reanalysis graph.passes [repaint] 1
      ⟨"strokes", .draw "flat", []⟩).run (cache, primed)).result =
        .ok (.ok restroke, cache', drawn) := ⟨_, _, rfl, rfl⟩

/-- The next frame gets the objects that were refused, and finds the canvas painted. -/
theorem compile_painted : ∃ cache,
    (compileFrame graph (forest 1 painted) shaders cached passed).result =
      .ok (.ok ⟨4, [repaint, restroke], reanalysis.endOfFrame⟩, forest 1 painted, cache, drawn) := by
  obtain ⟨cache, cache', hpaint, hstrokes⟩ := compileStep_painted
  exact ⟨cache', compileFrame_of_two analyze_painted hpaint hstrokes⟩

end Easel

theorem forest_of_failed_easel : ∃ cache cache',
    (compileFrame Easel.graph (Easel.forest 1 .undefined) Easel.shaders {}
      (⟨Easel.device, 1⟩ : Rationed)).result =
        .ok (.error .initializationFailed, Easel.forest 1 Easel.painted, cache,
          ⟨Easel.passed, 0⟩) ∧
    (compileFrame Easel.graph (Easel.forest 1 .undefined) Easel.shaders {} Easel.device).result =
      .ok (.ok Easel.plan, Easel.forest 1 Easel.painted, cache', Easel.drawn) ∧
    ∃ a, (analyze Easel.graph.passes (Easel.forest 1 .undefined) Easel.shaders).result =
        .ok (a, Easel.forest 1 Easel.painted) ∧
      (Easel.forest 1 .undefined).LeftBy (Easel.forest 1 Easel.painted) Easel.graph.passes a := by
  obtain ⟨cache', h'⟩ := Easel.compile_eq
  exact ⟨_, cache', Easel.compile_rationed, h', (forest_of_failed Easel.compile_rationed).1⟩

/-- **A failed compile does not leave the states untouched.** The canvas carries another state than
before, and the compile that goes through next asks for no barrier on it, where the plan that was not
made had one. -/
theorem not_forall_failed_untouched :
    (¬ ∀ (graph : PassGraph) (f f' : Forest) (shaders : Registry) (cache cache' : ObjectCache)
      (d d' : Rationed) (e : DeviceError),
      (compileFrame graph f shaders cache d).result = .ok (.error e, f', cache', d') →
        f.CarriesSame f') ∧
    Easel.analysis.barrierCount = 1 ∧
    ∃ cache plan cache' d',
      (compileFrame Easel.graph (Easel.forest 1 .undefined) Easel.shaders {}
        (⟨Easel.device, 1⟩ : Rationed)).result =
          .ok (.error .initializationFailed, Easel.forest 1 Easel.painted, cache,
            ⟨Easel.passed, 0⟩) ∧
      (compileFrame Easel.graph (Easel.forest 1 Easel.painted) Easel.shaders cache
        Easel.passed).result = .ok (.ok plan, Easel.forest 1 Easel.painted, cache', d') ∧
      plan.barrierCount = 0 := by
  obtain ⟨cache', h'⟩ := Easel.compile_painted
  refine ⟨fun hall => ?_, rfl, _, _, cache', _, Easel.compile_rationed, h', rfl⟩
  have hsame := hall _ _ _ _ _ _ _ _ _ Easel.compile_rationed
  exact absurd hsame (by unfold Forest.CarriesSame; decide)

end FrameGraph
