import FrameGraph.Proofs.Caching
import FrameGraph.Proofs.Compiling
import FrameGraph.Proofs.Retained

/-!
# Compiling a frame again

A frame that was compiled once is compiled again without the device, however often its resources
were mounted in between: every object that a step takes is described by the declarations and by the
views behind them, not by the states that the resources carry, so it is found in the cache
(`recompile_found`).
-/

set_option autoImplicit false

namespace FrameGraph

open Relation (ReflTransGen)

variable {δ : Type} [Device δ]

/-! ## Mounting keeps what is there -/

namespace Forest

variable {f f' : Forest} {d d' : δ}

theorem expandSwapchain_retains {i : Nat} (h : (f.expandSwapchain i).result = .ok f') :
    f.Retains f' := by
  rcases expandSwapchain_ok h with rfl | ⟨s, source, acquired, -, -, -, h⟩
  · exact .refl f'
  · refine foldlM_inv (P := fun g => f.Retains g) (fun g x g' hg hstep => ?_) h (.refl f)
    obtain ⟨n, v, rfl, -⟩ := addSwapchainImage_ok hstep
    exact hg.trans (retains_push.trans retains_push)

theorem mountNode_retains {i : Nat} {r : Except DeviceError Unit}
    (h : f.mountNode d i = .ok (r, f', d')) : f.Retains f' := by
  rcases mountNode_ok h with ⟨rfl, -⟩ | ⟨n, outcome, hn, hrealize, rfl⟩
  · exact .refl f'
  · have hkind := kind_of_bare (bare_of_realize hrealize)
    refine retains_put hn ⟨⟨rfl, rfl, rfl, hkind⟩, fun hb => ?_⟩
    rw [realize_of_backed hb] at hrealize
    obtain ⟨rfl, -⟩ := Prod.mk.inj (Except.ok.inj hrealize)
    rfl

theorem mountNodes_retains {is : List Nat} {r : Except DeviceError Unit}
    (h : f.mountNodes d is = .ok (r, f', d')) : f.Retains f' := by
  induction is generalizing f d with
  | nil =>
    cases h
    exact .refl _
  | cons i is ih =>
    obtain ⟨⟨r', g, e⟩, hg, h⟩ := Except.bind_eq_ok_iff.1 h
    cases r' with
    | ok u => exact (mountNode_retains hg).trans (ih h)
    | error e' =>
      cases h
      exact mountNode_retains hg

/-- **A mount keeps every object that is there**, also one that the device ends early. -/
theorem mount_retains {name : String} {r : Except DeviceError Unit}
    (h : (f.mount name d).result = .ok (r, f', d')) : f.Retains f' := by
  obtain ⟨p, g, -, hg, h⟩ := mount_ok h
  have hclock : f.Retains { f with life := f.life + 1 } := .refl f
  exact hclock.trans ((expandSwapchain_retains hg).trans (mountNodes_retains h))

end Forest

/-! ## The steps of a plan, once more -/

/-- Whether two steps are those of one pass with the same objects. Barriers and accesses go with
the states of the resources. -/
structure PlanStep.SameObjects (s s' : PlanStep) : Prop where
  index : s'.index = s.index
  name : s'.name = s.name
  kind : s'.kind = s.kind
  renderPass : s'.renderPass = s.renderPass
  framebuffer : s'.framebuffer = s.framebuffer
  extent : s'.extent = s.extent
  owner : s'.owner = s.owner
  pipeline : s'.pipeline = s.pipeline

namespace Plan

open PlanM (Replays)

variable {a b : Analysis} {before before' : List PlanStep}

theorem bareStep_sameObjects (a b : Analysis) (i : Nat) (pass : Pass) :
    (bareStep a i pass).SameObjects (bareStep b i pass) :=
  ⟨rfl, rfl, rfl, rfl, rfl, rfl, rfl, rfl⟩

theorem targetObjects_replays (t : RenderTarget Attachment) :
    Replays (δ := δ) Eq (targetObjects t) (targetObjects t) := by
  refine (Replays.object _).bind ?_
  rintro renderPass _ rfl
  refine (Replays.object _).bind ?_
  rintro framebuffer _ rfl
  exact .pure rfl

theorem drawObjects_replays (shaders : Registry) (phase : String)
    (renderPass : Handle .renderPass) (t : RenderTarget Attachment) :
    Replays (δ := δ) Eq (drawObjects shaders phase renderPass t)
      (drawObjects shaders phase renderPass t) := by
  refine (Replays.traced _).bind ?_
  rintro shader _ rfl
  split
  · exact .pure rfl
  · refine (Replays.object _).bind ?_
    rintro setLayout _ rfl
    refine (Replays.object _).bind ?_
    rintro layout _ rfl
    refine (Replays.object _).bind ?_
    rintro pipeline _ rfl
    exact .pure rfl

theorem renderStep_replays {step step' : PlanStep} (h : step.SameObjects step')
    (t : RenderTarget Attachment) :
    Replays (δ := δ) PlanStep.SameObjects (renderStep step t) (renderStep step' t) := by
  refine (targetObjects_replays t).bind ?_
  rintro ⟨renderPass, framebuffer⟩ _ rfl
  exact .pure { h with renderPass := rfl, framebuffer := rfl, extent := rfl }

theorem drawStep_replays {step step' : PlanStep} (h : step.SameObjects step') (shaders : Registry)
    (phase : String) (owner : Option Nat)
    (drawn : Option (Handle .renderPass × RenderTarget Attachment)) :
    Replays (δ := δ) PlanStep.SameObjects (drawStep shaders phase step owner drawn)
      (drawStep shaders phase step' owner drawn) := by
  cases drawn with
  | none =>
    unfold drawStep
    rw [h.name]
    refine (Replays.traced _).bind fun _ _ _ => ?_
    exact .pure { h with name := rfl, owner := rfl }
  | some drawn =>
    refine (drawObjects_replays shaders phase drawn.1 drawn.2).bind ?_
    rintro pipeline _ rfl
    exact .pure { h with owner := rfl, pipeline := rfl }

theorem target?_congr (htargets : b.targets = a.targets) (i : Nat) : b.target? i = a.target? i := by
  unfold Analysis.target?
  rw [htargets]

theorem drawnInto_congr (htargets : b.targets = a.targets)
    (hbefore : List.Forall₂ PlanStep.SameObjects before before') (owner : Option Nat) :
    drawnInto b before' owner = drawnInto a before owner := by
  cases owner with
  | none => rfl
  | some i =>
    cases hs : before[i]? with
    | none =>
      have hs' : before'[i]? = none := by
        rw [List.getElem?_eq_none_iff] at hs ⊢
        rw [← hbefore.length_eq]
        exact hs
      simp [drawnInto, hs, hs']
    | some s =>
      obtain ⟨s', hs', hsame⟩ := forall₂_getElem? hbefore hs
      simp [drawnInto, hs, hs', hsame.renderPass, target?_congr htargets]

/-- A step is repeated with the same objects, if the attachments are the same and so are the objects
of the steps before it. -/
theorem compileStep_replays (htargets : b.targets = a.targets)
    (hbefore : List.Forall₂ PlanStep.SameObjects before before') (shaders : Registry)
    (passes : List Pass) (i : Nat) (pass : Pass) :
    Replays (δ := δ) PlanStep.SameObjects (compileStep shaders a passes before i pass)
      (compileStep shaders b passes before' i pass) := by
  have hbare := bareStep_sameObjects a b i pass
  cases hkind : pass.kind with
  | render =>
    have hattached : attachedTarget? b i = attachedTarget? a i := by
      unfold attachedTarget?
      rw [target?_congr htargets]
    rw [compileStep_of_render hkind, compileStep_of_render hkind, hattached]
    split
    · exact .pure hbare
    · exact renderStep_replays hbare _
  | draw phase =>
    rw [compileStep_of_draw hkind, compileStep_of_draw hkind, drawnInto_congr htargets hbefore]
    exact drawStep_replays hbare shaders phase _ _
  | compute phase =>
    rw [compileStep_of_other (by simp [hkind]) (by simp [hkind]),
      compileStep_of_other (by simp [hkind]) (by simp [hkind])]
    exact .pure hbare
  | copy =>
    rw [compileStep_of_other (by simp [hkind]) (by simp [hkind]),
      compileStep_of_other (by simp [hkind]) (by simp [hkind])]
    exact .pure hbare

theorem compileSteps_replays (htargets : b.targets = a.targets) (shaders : Registry)
    (passes : List Pass) :
    Replays (δ := δ) (List.Forall₂ PlanStep.SameObjects) (compileSteps shaders a passes)
      (compileSteps shaders b passes) := by
  refine Replays.foldlM (fun before before' x hbefore => ?_) _ .nil
  refine (compileStep_replays htargets hbefore shaders passes x.2 x.1).bind fun s s' hs => ?_
  exact .pure (List.rel_append hbefore (.cons hs .nil))

end Plan

/-! ## The same frame again -/

/-- Clearing a pass graph and declaring its passes again gives the graph of the next
generation. -/
theorem PassGraph.foldl_push (passes : List Pass) (g : PassGraph) :
    passes.foldl PassGraph.push g = ⟨g.passes ++ passes, g.generation⟩ := by
  induction passes generalizing g with
  | nil => simp
  | cons pass passes ih =>
    rw [List.foldl_cons, ih]
    simp [push]

/-- A mount that is carried out. One that the device ends early is, too. -/
def Mounts (s s' : Forest × δ) : Prop := ∃ name, (Operation.mount name).run s.1 s.2 = .ok s'

theorem Mounts.retains {s s' : Forest × δ} (h : Mounts s s') : s.1.Retains s'.1 := by
  obtain ⟨name, h⟩ := h
  obtain ⟨⟨r, s''⟩, hmount, h⟩ := Except.bind_eq_ok_iff.1 h
  cases h
  exact Forest.mount_retains hmount

theorem retains_of_mounts {s s' : Forest × δ} (h : ReflTransGen Mounts s s') :
    s.1.Retains s'.1 :=
  kept_by_all (P := fun t => s.1.Retains t.1) (fun _ _ hstep ht => ht.trans hstep.retains) h
    (.refl s.1)

/-- A frame has the same attachments when it is analysed again on retained resources. -/
theorem analyze_of_retains {passes : List Pass} {f f₁ g : Forest} {shaders : Registry}
    {a : Analysis} (hf : f.WellFormed) (h : (analyze passes f shaders).result = .ok (a, f₁))
    (hg : f₁.Retains g) : ∃ b g', (analyze passes g shaders).result = .ok (b, g') ∧
      b.targets = a.targets := by
  obtain ⟨uses, huses, rfl, rfl⟩ := analyze_ok_iff.1 h
  have hretains : f.Retains g := (f.retains_carry _).trans hg
  exact ⟨_, _, analyze_ok_iff.2 ⟨uses, frameUses_of_retains hretains hf huses, rfl, rfl⟩,
    targets_of_retains hretains huses⟩

/-- A compiled frame is compiled again on retained resources with objects from the cache alone. -/
theorem compileFrame_again {graph : PassGraph} {f f₁ g : Forest} {shaders : Registry}
    {cache cache₁ : ObjectCache} {d d₁ : δ} {plan : Plan} (hf : f.WellFormed)
    (h : (compileFrame graph f shaders cache d).result = .ok (.ok plan, f₁, cache₁, d₁))
    (hg : f₁.Retains g) (generation : Nat) (e : δ) : ∃ plan' g' n,
      (compileFrame ⟨graph.passes, generation⟩ g shaders cache₁ e).result =
        .ok (.ok plan', g', cache₁.found n, e) ∧
      plan'.generation = generation ∧
      List.Forall₂ PlanStep.SameObjects plan.steps plan'.steps := by
  obtain ⟨a, r, ha, hr, hplan⟩ := compileFrame_ok_iff.1 h
  obtain ⟨b, g', hb, htargets⟩ := analyze_of_retains hf ha hg
  cases r with
  | error e => cases hplan
  | ok steps =>
    obtain rfl := Except.ok.inj hplan
    obtain ⟨-, hreplay⟩ :=
      Plan.compileSteps_replays htargets shaders graph.passes cache d steps cache₁ d₁ hr
    obtain ⟨steps', n, hsteps, hrun⟩ := hreplay cache₁ e (.refl cache₁)
    exact ⟨_, g', n, compileFrame_ok_iff.2 ⟨b, .ok steps', hb, hrun, rfl⟩, rfl, hsteps⟩

/-! ## What the headless device counts -/

/-- How many objects were made for plans. -/
def Created.planned (c : Created) : List Nat :=
  [c.renderPasses, c.framebuffers, c.pipelines, c.setLayouts, c.pipelineLayouts]

section
variable {d d' : Headless}

/-- Mounting makes buffers, images and views. -/
theorem planned_of_realize {name : String} {origin : Option Payload} {p : Payload}
    {outcome : Except DeviceError Payload}
    (h : Payload.realize name origin p d = .ok (outcome, d')) :
    d'.created.planned = d.created.planned := by
  unfold Payload.realize at h
  split at h
  · obtain ⟨rfl, -⟩ := Payload.attach_cases (Except.ok.inj h)
    simp only [Device.createBuffer, Headless.createBuffer]
    split
    · rfl
    · rfl
  · obtain ⟨rfl, -⟩ := Payload.attach_cases (Except.ok.inj h)
    rfl
  · cases h
  · obtain ⟨rfl, -⟩ := Payload.attach_cases (Except.ok.inj h)
    simp only [Device.createImage, Headless.createImage]
    split
    · rfl
    · rfl
  · obtain ⟨rfl, -⟩ := Payload.attach_cases (Except.ok.inj h)
    rfl
  · cases h
  · cases h
    rfl

theorem planned_of_grows {s s' : Forest × Headless} (h : Grows s s') :
    s'.2.created.planned = s.2.created.planned := by
  cases h with
  | clock f d => rfl
  | register d h => rfl
  | unfold d h => rfl
  | acquire d index hn hp => rfl
  | mountNode h =>
    rcases mountNode_ok h with ⟨-, rfl⟩ | ⟨n, outcome, -, hrealize, -⟩
    · rfl
    · exact planned_of_realize hrealize

theorem planned_of_mounts {s s' : Forest × Headless} (h : ReflTransGen Mounts s s') :
    s'.2.created.planned = s.2.created.planned := by
  refine kept_by_all (P := fun t => t.2.created.planned = s.2.created.planned)
    (fun t t' hstep ht => ?_) h rfl
  obtain ⟨name, hrun⟩ := hstep
  obtain ⟨⟨r, t''⟩, hmount, hrun⟩ := Except.bind_eq_ok_iff.1 hrun
  cases hrun
  exact kept_by_all (P := fun t => t.2.created.planned = s.2.created.planned)
    (fun _ _ hgrows ht => (planned_of_grows hgrows).trans ht) (mount_grows hmount) ht

/-- **Compiling a frame again creates nothing.** After any mounts, the passes declared anew have a
plan of the same objects, all found in the cache: the device stays as it is, and the cache only
counts more hits. -/
theorem recompile_found {graph : PassGraph} {f f₁ g : Forest} {shaders : Registry}
    {cache cache₁ : ObjectCache} {d₁ e : Headless} {plan : Plan} (hf : f.WellFormed)
    (h : (compileFrame graph f shaders cache d).result = .ok (.ok plan, f₁, cache₁, d₁))
    (hmounts : ReflTransGen Mounts (f₁, d₁) (g, e)) : ∃ plan' g' n,
      (compileFrame (graph.passes.foldl PassGraph.push graph.clear) g shaders cache₁ e).result =
        .ok (.ok plan', g', { cache₁ with hits := cache₁.hits + n }, e) ∧
      plan'.generation = plan.generation + 1 ∧
      List.Forall₂ PlanStep.SameObjects plan.steps plan'.steps ∧
      e.created.planned = d₁.created.planned := by
  have hgeneration : plan.generation = graph.generation := by
    obtain ⟨a, r, -, -, hplan⟩ := compileFrame_ok_iff.1 h
    cases r with
    | error e => cases hplan
    | ok steps =>
      obtain rfl := Except.ok.inj hplan
      rfl
  obtain ⟨plan', g', n, hrun, hplan', hsteps⟩ :=
    compileFrame_again hf h (retains_of_mounts hmounts) (graph.generation + 1) e
  refine ⟨plan', g', n, ?_, by rw [hplan', hgeneration], hsteps, planned_of_mounts hmounts⟩
  rw [PassGraph.foldl_push]
  exact hrun

end

/-- A frame of two passes is compiled pass by pass. -/
theorem compileFrame_of_two {p q : Pass} {generation : Nat} {f f' : Forest} {shaders : Registry}
    {a : Analysis} {cache cache₁ cache₂ : ObjectCache} {d d₁ d₂ : Headless}
    {first second : PlanStep} (ha : (analyze [p, q] f shaders).result = .ok (a, f'))
    (hfirst : ((Plan.compileStep shaders a [p, q] [] 0 p).run (cache, d)).result =
      .ok (.ok first, cache₁, d₁))
    (hsecond : ((Plan.compileStep shaders a [p, q] [first] 1 q).run (cache₁, d₁)).result =
      .ok (.ok second, cache₂, d₂)) :
    (compileFrame ⟨[p, q], generation⟩ f shaders cache d).result =
      .ok (.ok ⟨generation, [first, second], a.endOfFrame⟩, f', cache₂, d₂) := by
  refine compileFrame_ok_iff.2 ⟨a, .ok [first, second], ha, ?_, rfl⟩
  refine PlanM.bind_ok_iff.2 ⟨[first], _, PlanM.bind_ok_iff.2 ⟨first, _, hfirst, rfl⟩, ?_⟩
  refine PlanM.bind_ok_iff.2 ⟨[first, second], _, ?_, rfl⟩
  exact PlanM.bind_ok_iff.2 ⟨second, _, hsecond, rfl⟩

/-! ### A canvas that is drawn on twice -/

namespace Easel

def canvas : ImageDesc := .twoD 4 4 .b8g8r8a8Unorm .colorAttachment

def forest (life : Nat) (left : AccessState) : Forest where
  nodes := [
    { name := "canvas"
      residency := .transient
      payload := .image canvas (some ⟨1⟩) false
      life
      current := left },
    { name := "canvas/canvas"
      residency := .transient
      payload := .imageView canvas.defaultView "canvas" (some ⟨2⟩)
      parent := some 0
      life }]
  life

def device : Headless where
  lastHandle := 3
  created := { images := 1, imageViews := 1, shaderModules := 1 }
  images := [(⟨1⟩, "canvas")]
  imageViews := [(⟨2⟩, ⟨1⟩)]

def shaders : Registry where
  nodes := [⟨"flat", none, some {
    name := "flat"
    bindings := []
    sources := [(.vertex, ⟨"flat.vert", ""⟩)]
    modules := [(.vertex, ⟨3⟩)] }⟩]

def graph : PassGraph where
  passes := [⟨"paint", .render, [.colorOutput "canvas"]⟩, ⟨"strokes", .draw "flat", []⟩]
  generation := 4

/-- The attachment that the canvas is. -/
def attachment : AttachmentUse where
  resource := "canvas"
  view := ⟨2⟩
  role := .output
  kind := .color
  format := .b8g8r8a8Unorm
  samples := .one
  tracked := 0

def uses : List PassUses := [
  ⟨[⟨0, .colorAttachmentOutput, .colorAttachmentWrite⟩],
    some { pass := 0, attachments := [attachment], color := [0], extent := ⟨4, 4⟩ }⟩,
  ⟨[], none⟩]

def analysis : Analysis := .ofUses (forest 1 .undefined) uses

/-- What the first frame leaves of the canvas. -/
def painted : AccessState :=
  ⟨.colorAttachmentOutput, .colorAttachmentWrite, .colorAttachment⟩

theorem analyze_eq : (analyze graph.passes (forest 1 .undefined) shaders).result =
    .ok (analysis, forest 1 painted) := rfl

def paint : PlanStep := { Plan.bareStep analysis 0 ⟨"paint", .render, []⟩ with
  renderPass := some ⟨4⟩
  framebuffer := some ⟨5⟩
  extent := some ⟨4, 4⟩ }

def strokes : PlanStep := { Plan.bareStep analysis 1 ⟨"strokes", .draw "flat", []⟩ with
  owner := some 0
  pipeline := some ⟨⟨6⟩, ⟨7⟩, ⟨8⟩⟩ }

def plan : Plan := ⟨4, [paint, strokes], analysis.endOfFrame⟩

/-- The device with the objects of the first step. -/
def primed : Headless := { device with
  lastHandle := 5
  created := { device.created with renderPasses := 1, framebuffers := 1 } }

/-- The device with the objects of both steps. -/
def drawn : Headless := { device with
  lastHandle := 8
  created := { device.created with
    renderPasses := 1, framebuffers := 1, setLayouts := 1, pipelineLayouts := 1, pipelines := 1 } }

theorem compileStep_eq : ∃ cache cache',
    ((Plan.compileStep shaders analysis graph.passes [] 0
      ⟨"paint", .render, [.colorOutput "canvas"]⟩).run (({} : ObjectCache), device)).result =
        .ok (.ok paint, cache, primed) ∧
    ((Plan.compileStep shaders analysis graph.passes [paint] 1
      ⟨"strokes", .draw "flat", []⟩).run (cache, primed)).result =
        .ok (.ok strokes, cache', drawn) := ⟨_, _, rfl, rfl⟩

theorem compile_eq : ∃ cache,
    (compileFrame graph (forest 1 .undefined) shaders {} device).result =
      .ok (.ok plan, forest 1 painted, cache, drawn) := by
  obtain ⟨cache, cache', hpaint, hstrokes⟩ := compileStep_eq
  exact ⟨cache', compileFrame_of_two analyze_eq hpaint hstrokes⟩

theorem mounts : ReflTransGen Mounts (forest 1 painted, drawn) (forest 2 painted, drawn) :=
  .single ⟨"canvas", rfl⟩

end Easel

theorem recompile_found_easel : ∃ cache plan' g' n,
    (compileFrame Easel.graph (Easel.forest 1 .undefined) Easel.shaders {} Easel.device).result =
      .ok (.ok Easel.plan, Easel.forest 1 Easel.painted, cache, Easel.drawn) ∧
    (compileFrame (Easel.graph.passes.foldl PassGraph.push Easel.graph.clear)
      (Easel.forest 2 Easel.painted) Easel.shaders cache Easel.drawn).result =
        .ok (.ok plan', g', { cache with hits := cache.hits + n }, Easel.drawn) ∧
    plan'.generation = 5 ∧
    List.Forall₂ PlanStep.SameObjects [Easel.paint, Easel.strokes] plan'.steps := by
  obtain ⟨cache, h⟩ := Easel.compile_eq
  obtain ⟨plan', g', n, hrun, hgeneration, hsteps, -⟩ :=
    recompile_found (by decide) h Easel.mounts
  exact ⟨cache, plan', g', n, h, hrun, hgeneration, hsteps⟩

end FrameGraph
