import FrameGraph.Proofs.Attachments
import FrameGraph.Proofs.Caching
import FrameGraph.Proofs.HeldViews
import FrameGraph.Proofs.Plans
import FrameGraph.Proofs.Recording
import FrameGraph.Proofs.Retained
import FrameGraph.Proofs.Sessions

/-!
# The framebuffers of a plan

The object cache is never invalidated: it keeps framebuffers of views that are long destroyed. No
plan gets such a framebuffer, because a framebuffer is looked up under the views that it was made
from (`Recorder.Filed`), the views that a frame looks up are alive (`Forest.HoldsViews`), and a view
that is mounted again has a new handle. So over any session every render pass of a plan gets the
framebuffer that was made from the views its attachments stand for, and for the render pass that the
plan records with it (`framebuffers_current`).
-/

set_option autoImplicit false

namespace FrameGraph

open Relation (ReflTransGen)

/-! ## The record and the cache -/

/-- Whether every framebuffer was made from one description, and those of the cache from the
description that they are found under. -/
structure Recorder.Filed (c : ObjectCache) (r : Recorder) : Prop where
  known : ∀ x ∈ r.framebuffers, x.2.id ≤ r.device.lastHandle
  unique : ∀ desc desc' h, (desc, h) ∈ r.framebuffers → (desc', h) ∈ r.framebuffers → desc' = desc
  filed : ∀ desc h, c.find? (.framebuffer desc) = some h → (desc, h) ∈ r.framebuffers

/-- Making a framebuffer fails without a trace, or the framebuffer has the next handle and is
recorded. -/
theorem Recorder.createFramebuffer_cases (desc : FramebufferDesc) (r : Recorder) :
    (∃ e, createFramebuffer desc r = (.error e, r)) ∨
    ∃ d : Headless, d.lastHandle = r.device.lastHandle + 1 ∧
      createFramebuffer desc r =
        (.ok ⟨d.lastHandle⟩, ⟨d, r.framebuffers ++ [(desc, ⟨d.lastHandle⟩)]⟩) := by
  by_cases hnull : desc.renderPass.isNull = true
  · refine .inl ⟨.initializationFailed, ?_⟩
    simp [createFramebuffer, Headless.createFramebuffer, hnull, Except.toOption]
  · refine .inr ⟨(Headless.createFramebuffer desc r.device).2, ?_, ?_⟩
    · simp [Headless.createFramebuffer, hnull, Headless.mint]
    · simp [createFramebuffer, Headless.createFramebuffer, hnull, Headless.mint, Except.toOption]

namespace Recorder.Filed

variable {c : ObjectCache} {r : Recorder}

theorem empty : Filed {} {} where
  known x hx := by simp at hx
  unique desc desc' h hdesc := by simp at hdesc
  filed desc h hfind := by simp [ObjectCache.find?] at hfind

/-- The device may go on. -/
theorem device (h : Filed c r) {r' : Recorder} (hmade : r'.framebuffers = r.framebuffers)
    (hd : r.device.lastHandle ≤ r'.device.lastHandle) : Filed c r' where
  known x hx := Nat.le_trans (h.known x (hmade ▸ hx)) hd
  unique := hmade ▸ h.unique
  filed := hmade ▸ h.filed

/-- Another object may be kept. -/
theorem add_other (h : Filed c r) (desc : ObjectDesc) (hdesc : ∀ desc', desc ≠ .framebuffer desc')
    (x : Handle desc.kind) : Filed (c.add desc x) r := by
  refine ⟨h.known, h.unique, fun desc' y hy => ?_⟩
  rcases ObjectCache.find?_add_cases hy with hy | ⟨hdesc', -⟩
  · exact h.filed desc' y hy
  · exact absurd hdesc'.symm (hdesc desc')

/-- A new framebuffer may be recorded and kept. -/
theorem add_framebuffer (h : Filed c r) (desc : FramebufferDesc) {d : Headless}
    (hd : d.lastHandle = r.device.lastHandle + 1) :
    Filed (c.add (.framebuffer desc) ⟨d.lastHandle⟩)
      ⟨d, r.framebuffers ++ [(desc, ⟨d.lastHandle⟩)]⟩ := by
  have hnew {desc' : FramebufferDesc} : (desc', ⟨d.lastHandle⟩) ∉ r.framebuffers := by
    intro hmem
    have hle : d.lastHandle ≤ r.device.lastHandle := h.known _ hmem
    omega
  have hcases {desc' : FramebufferDesc} {x : Handle .framebuffer}
      (hx : (desc', x) ∈ r.framebuffers ++ [(desc, ⟨d.lastHandle⟩)]) :
      (desc', x) ∈ r.framebuffers ∨ desc' = desc ∧ x = ⟨d.lastHandle⟩ := by
    simpa using hx
  refine ⟨fun x hx => ?_, fun desc₁ desc₂ x hx₁ hx₂ => ?_, fun desc' x hx => ?_⟩
  · rcases hcases hx with hx | ⟨-, hx⟩
    · have hle := h.known x hx
      show x.2.id ≤ d.lastHandle
      omega
    · exact Nat.le_of_eq (congrArg Handle.id hx)
  · rcases hcases hx₁ with hx₁ | ⟨rfl, rfl⟩
    · rcases hcases hx₂ with hx₂ | ⟨-, rfl⟩
      · exact h.unique desc₁ desc₂ x hx₁ hx₂
      · exact absurd hx₁ hnew
    · rcases hcases hx₂ with hx₂ | ⟨rfl, -⟩
      · exact absurd hx₂ hnew
      · rfl
  · rcases ObjectCache.find?_add_cases hx with hx | ⟨hdesc, hid⟩
    · exact List.mem_append_left _ (h.filed desc' x hx)
    · obtain rfl := ObjectDesc.framebuffer.inj hdesc
      obtain rfl : x = ⟨d.lastHandle⟩ := congrArg Handle.mk hid
      exact List.mem_append_right _ List.mem_cons_self

/-- **What compiling gets from the cache is recorded.** -/
theorem gets {s s' : ObjectCache × Recorder} (h : Filed s.1 s.2) (hg : Gets s s') :
    Filed s'.1 s'.2 := by
  obtain ⟨desc, c, r⟩ := hg
  have hnext (d : Headless) (hd : d.lastHandle = r.device.lastHandle + 1) :
      Filed c ⟨d, r.framebuffers⟩ := h.device rfl (hd ▸ Nat.le_succ _)
  unfold ObjectCache.getOrCreate
  cases c.find? desc with
  | some x => exact ⟨h.known, h.unique, h.filed⟩
  | none =>
    cases desc with
    | framebuffer desc =>
      rcases createFramebuffer_cases desc r with ⟨e, he⟩ | ⟨d, hd, hok⟩
      · simp only [ObjectDesc.create, Device.createFramebuffer, he]
        exact h
      · simp only [ObjectDesc.create, Device.createFramebuffer, hok]
        exact h.add_framebuffer desc hd
    | renderPass desc => exact (hnext _ rfl).add_other (.renderPass desc) (fun _ h => by cases h) _
    | pipeline desc => exact (hnext _ rfl).add_other (.pipeline desc) (fun _ h => by cases h) _
    | setLayout desc => exact (hnext _ rfl).add_other (.setLayout desc) (fun _ h => by cases h) _
    | pipelineLayout desc => exact (hnext _ rfl).add_other (.pipelineLayout desc) (fun _ h => by cases h) _

end Recorder.Filed

/-! ## The steps of a plan and the cache -/

section
variable {δ : Type} [Device δ] {s s' : ObjectCache × δ}

theorem Gets.extends (h : Gets s s') : s.1.Extends s'.1 := by
  obtain ⟨desc, c, d⟩ := h
  cases hget : c.getOrCreate desc d with
  | mk result t =>
    cases result with
    | ok x => exact (ObjectCache.getOrCreate_ok hget).1
    | error e =>
      unfold ObjectCache.getOrCreate at hget
      split at hget
      · cases hget
      · split at hget
        · cases hget
          exact .refl c
        · cases hget

theorem ObjectCache.extends_of_gets (h : ReflTransGen Gets s s') : s.1.Extends s'.1 :=
  kept_by_all (P := fun t => s.1.Extends t.1) (fun _ _ hstep ht => ht.trans hstep.extends) h
    (.refl s.1)

theorem PlanM.OnlyGets.extends {α : Type} {x : PlanM δ α} (hx : OnlyGets x)
    {r : Except DeviceError α} (h : (x.run s).result = .ok (r, s')) : s.1.Extends s'.1 :=
  ObjectCache.extends_of_gets (hx s r s' h)

end

/-- Whether a step that draws into `t` has a render pass and a framebuffer of which `P` holds; where
there is nothing to draw into, it has no framebuffer. -/
structure PlanStep.WithFramebuffer (P : Handle .renderPass → Handle .framebuffer → Prop)
    (t : RenderTarget Attachment) (s : PlanStep) : Prop where
  bare : t.attachments = [] → s.framebuffer = none
  attached : t.attachments ≠ [] → ∃ renderPass framebuffer,
    s.renderPass = some renderPass ∧ s.framebuffer = some framebuffer ∧ P renderPass framebuffer

theorem PlanStep.WithFramebuffer.imp {P Q : Handle .renderPass → Handle .framebuffer → Prop}
    {t : RenderTarget Attachment} {s : PlanStep} (h : s.WithFramebuffer P t)
    (hPQ : ∀ renderPass framebuffer, P renderPass framebuffer → Q renderPass framebuffer) :
    s.WithFramebuffer Q t where
  bare := h.bare
  attached hne := by
    obtain ⟨renderPass, framebuffer, hrenderPass, hframebuffer, hP⟩ := h.attached hne
    exact ⟨renderPass, framebuffer, hrenderPass, hframebuffer, hPQ _ _ hP⟩

/-- Whether a step is that of a pass, and the framebuffer of a render pass is the one that the cache
has for its attachments and its render pass. -/
structure PlanStep.Found (passes : List Pass) (a : Analysis) (c : ObjectCache) (s : PlanStep) :
    Prop where
  pass : ∃ pass, passes[s.index]? = some pass ∧ s.kind = pass.kind
  framebuffer : s.kind = .render → ∀ t, a.target? s.index = some t → s.WithFramebuffer
    (fun renderPass framebuffer =>
      c.find? (.framebuffer (t.framebufferDesc renderPass)) = some framebuffer) t

theorem PlanStep.Found.mono {passes : List Pass} {a : Analysis} {c c' : ObjectCache}
    {s : PlanStep} (h : s.Found passes a c) (hc : c.Extends c') : s.Found passes a c' where
  pass := h.pass
  framebuffer hkind t ht := (h.framebuffer hkind t ht).imp fun _ _ hfind => hc _ _ hfind

namespace Plan

variable {δ : Type} [Device δ] {shaders : Registry} {a : Analysis} {passes : List Pass}
  {before : List PlanStep} {index : Nat} {pass : Pass} {s s' : ObjectCache × δ}

theorem targetObjects_ok {t : RenderTarget Attachment} {renderPass : Handle .renderPass}
    {framebuffer : Handle .framebuffer}
    (h : ((targetObjects t).run s).result = .ok (.ok (renderPass, framebuffer), s')) :
    s'.1.find? (.renderPass t.renderPassDesc) = some renderPass ∧
      s'.1.find? (.framebuffer (t.framebufferDesc renderPass)) = some framebuffer := by
  obtain ⟨rp, ⟨c₁, d₁⟩, hrenderPass, h⟩ := PlanM.bind_ok_iff.1 h
  obtain ⟨fb, ⟨c₂, d₂⟩, hframebuffer, h⟩ := PlanM.bind_ok_iff.1 h
  cases h
  obtain ⟨-, hrenderPass⟩ := ObjectCache.getOrCreate_ok (Except.ok.inj hrenderPass)
  obtain ⟨hextends, hframebuffer⟩ := ObjectCache.getOrCreate_ok (Except.ok.inj hframebuffer)
  exact ⟨hextends _ _ hrenderPass, hframebuffer⟩

/-- **The step of a pass gets its framebuffer from the cache.** -/
theorem compileStep_found {r : PlanStep} (hpass : passes[index]? = some pass)
    (h : ((compileStep shaders a passes before index pass).run s).result = .ok (.ok r, s')) :
    r.Found passes a s'.1 := by
  cases compiles_of_ok h with
  | bare _ hattached =>
    refine ⟨⟨pass, hpass, rfl⟩, fun hkind t ht => ?_⟩
    have hnil := Option.filter_eq_none_iff.1 (hattached hkind) t ht
    exact ⟨fun _ => rfl, fun hne => absurd (by simpa using hne) hnil⟩
  | @attached _ t renderPass framebuffer _ hattached hobjects =>
    obtain ⟨htarget, hne⟩ := Option.filter_eq_some_iff.1 hattached
    refine ⟨⟨pass, hpass, rfl⟩, fun _ t' ht => ?_⟩
    obtain rfl := Option.some.inj (htarget.symm.trans ht)
    have hne : t.attachments ≠ [] := by simpa using hne
    refine ⟨fun hnil => absurd hnil hne, fun _ => ?_⟩
    exact ⟨renderPass, framebuffer, rfl, rfl, (targetObjects_ok hobjects).2⟩
  | idle hkind => exact ⟨⟨pass, hpass, rfl⟩, fun hrender => by cases hkind.symm.trans hrender⟩
  | drawn hkind => exact ⟨⟨pass, hpass, rfl⟩, fun hrender => by cases hkind.symm.trans hrender⟩

/-- **All render passes of a plan have the framebuffers that the cache keeps for them.** -/
theorem compileSteps_found {steps : List PlanStep}
    (h : ((compileSteps shaders a passes).run s).result = .ok (.ok steps, s')) :
    ∀ r ∈ steps, r.Found passes a s'.1 := by
  intro r hr
  obtain ⟨i, hi⟩ := List.mem_iff_getElem?.1 hr
  obtain ⟨-, hall⟩ := compileSteps_ok h
  obtain ⟨pass, t, t', hpass, -, hafter, hstep⟩ := hall i r hi
  exact (compileStep_found hpass hstep).mono (ObjectCache.extends_of_gets hafter)

end Plan

/-! ## Sessions on a device that records -/

/-- What goes on aside: images are made elsewhere, and shaders are compiled. -/
inductive Headless.Aside : ObjectCache × Headless → ObjectCache × Headless → Prop
  | image (c : ObjectCache) (d : Headless) : Aside (c, d) (c, d.externalImage.2)
  | shader {c : ObjectCache} {d d' : Headless} {words : List Nat} {name : String}
      {result : Except DeviceError (Handle .shaderModule)}
      (h : (createShaderModule words name d).result = .ok (result, d')) : Aside (c, d) (c, d')

theorem Headless.Aside.same {s s' : ObjectCache × Headless} (h : Aside s s') :
    s'.1 = s.1 ∧ s.2.SameObjects s'.2 := by
  cases h with
  | image c d => exact ⟨rfl, d.externalImage_same⟩
  | shader h => exact ⟨rfl, createShaderModule_same h⟩

/-- The same on a device that records; no framebuffer is made. -/
def Recorder.Aside (s s' : ObjectCache × Recorder) : Prop :=
  Headless.Aside (s.1, s.2.device) (s'.1, s'.2.device) ∧ s'.2.framebuffers = s.2.framebuffers

namespace Session

/-- The session without the record. -/
def erase (s : Session Recorder) : Session Headless := ⟨s.forest, s.cache, s.device.device⟩

/-- What holds all along: the record agrees with the cache, and the views that nodes hold are
alive. -/
structure Recorded (s : Session Recorder) : Prop where
  filed : s.device.Filed s.cache
  holds : s.forest.HoldsViews s.device.device

variable {s s' : Session Recorder} {u : Session Headless}

theorem Recorded.empty : Recorded { device := {} } := ⟨.empty, .empty⟩

/-- A compiled frame records the framebuffers that it makes, and changes no views. -/
theorem Recorded.compile (hs : s.Recorded) {graph : PassGraph} {shaders : Registry}
    {result : Except DeviceError Plan} {f : Forest} {cache : ObjectCache} {r : Recorder}
    (h : (compileFrame graph s.forest shaders s.cache s.device).result =
      .ok (result, f, cache, r)) : Recorded ⟨f, cache, r⟩ where
  filed := kept_by_all (P := fun t : ObjectCache × Recorder => t.2.Filed t.1)
    (fun _ _ hstep ht => Recorder.Filed.gets ht hstep) (compileFrame_gets h).2 hs.filed
  holds := by
    obtain ⟨⟨a, ha⟩, hd⟩ := compileFrame_ok (compileFrame_recorder_ok h)
    exact hs.holds.frame ha hd

/-- **Every step keeps the record right and the views alive.** -/
theorem Recorded.step (hs : s.Recorded) (h : Step Recorder.Aside s s') : s'.Recorded := by
  cases h with
  | @aside cache r h =>
    obtain ⟨haside, hmade⟩ := h
    obtain ⟨rfl, hd⟩ := haside.same
    exact ⟨hs.filed.device hmade hd.lastHandle, hs.holds.mono (fun _ _ hv _ => hv) hd⟩
  | @operate o f r h =>
    obtain ⟨hrun, hmade⟩ := Operation.run_recorder_ok h
    have hlast := Headless.lastHandle_le (Operation.changes hrun)
    exact ⟨hs.filed.device hmade hlast, hs.holds.operate hrun⟩
  | frame ha => exact ⟨hs.filed, hs.holds.frame ha (.refl _)⟩
  | compile h => exact hs.compile h

/-- **A step on the headless device is one on a device that records**, without the record. -/
theorem exists_step (h : Step Headless.Aside s.erase u) :
    ∃ s', Step Recorder.Aside s s' ∧ s'.erase = u := by
  cases h with
  | @aside cache d h =>
    exact ⟨⟨s.forest, cache, ⟨d, s.device.framebuffers⟩⟩, .aside ⟨h, rfl⟩, rfl⟩
  | @operate o f d h =>
    have h : o.run s.forest s.device.device = .ok (f, d) := h
    refine ⟨⟨f, s.cache, ⟨d, s.device.framebuffers⟩⟩, .operate (o := o) ?_, rfl⟩
    exact (o.run_recorder s.forest s.device.device s.device.framebuffers).trans (by rw [h]; rfl)
  | frame ha => exact ⟨_, .frame ha, rfl⟩
  | compile h =>
    obtain ⟨r, hr, rfl⟩ := exists_compileFrame_recorder h
    exact ⟨_, .compile hr, rfl⟩

/-- **Every session on the headless device can be recorded.** -/
theorem exists_recorded (h : ReflTransGen (Step Headless.Aside) { device := {} } u) :
    ∃ s : Session Recorder, ReflTransGen (Step Recorder.Aside) { device := {} } s ∧
      s.erase = u ∧ s.Recorded := by
  refine kept_by_all (P := fun u => ∃ s : Session Recorder,
    ReflTransGen (Step Recorder.Aside) { device := {} } s ∧ s.erase = u ∧ s.Recorded)
    (fun u u' hstep hu => ?_) h ⟨_, .refl, rfl, .empty⟩
  obtain ⟨s, hs, rfl, hrecorded⟩ := hu
  obtain ⟨s', hstep', rfl⟩ := exists_step hstep
  exact ⟨s', hs.tail hstep', rfl, hrecorded.step hstep'⟩

end Session

/-! ## The framebuffers of a plan -/

/-- Whether the framebuffer of a step that draws into `t` is that of `t` now: it was made once, for
the render pass of the step and from the views that the attachments of `t` stand for, in their
order, and all these views are alive. -/
def PlanStep.IsCurrent (f : Forest) (r : Recorder) (t : RenderTarget Attachment) (s : PlanStep) :
    Prop :=
  s.WithFramebuffer (fun renderPass framebuffer => ∃ desc : FramebufferDesc,
    (∀ desc', (desc', framebuffer) ∈ r.framebuffers ↔ desc' = desc) ∧
    desc.renderPass = renderPass ∧
    List.Forall₂ (fun x v => f.imageViewHandle x.resource = .ok v ∧
      ∃ image, (v, image) ∈ r.device.imageViews) t.attachments desc.attachments) t

/-- **No plan gets a stale framebuffer.** In any session on the headless device, which goes alike on
a device that records, every render pass of a plan gets the framebuffer that was made for its render
pass and from the views that its attachments stand for now, all of them alive; however often images
were released and mounted before. -/
theorem framebuffers_current {s : Session Headless}
    (h : ReflTransGen (Session.Step Headless.Aside) { device := {} } s) :
    ∃ r : Session Recorder, ReflTransGen (Session.Step Recorder.Aside) { device := {} } r ∧
      r.erase = s ∧ ∀ (graph : PassGraph) (shaders : Registry) (plan : Plan) (f : Forest)
        (cache : ObjectCache) (d : Headless),
        (compileFrame graph s.forest shaders s.cache s.device).result =
          .ok (.ok plan, f, cache, d) →
        ∃ a r', (analyze graph.passes s.forest shaders).result = .ok (a, f) ∧
          (compileFrame graph r.forest shaders r.cache r.device).result =
            .ok (.ok plan, f, cache, r') ∧ r'.device = d ∧
          ∀ step ∈ plan.steps, step.kind = .render →
            ∃ t, a.target? step.index = some t ∧ step.IsCurrent f r' t := by
  obtain ⟨r, hr, rfl, hrecorded⟩ := Session.exists_recorded h
  refine ⟨r, hr, rfl, fun graph shaders plan f cache d hcompile => ?_⟩
  obtain ⟨r', hcompile', rfl⟩ := exists_compileFrame_recorder hcompile
  obtain ⟨a, result, ha, hsteps, hplan⟩ := compileFrame_ok_iff.1 hcompile'
  refine ⟨a, r', ha, hcompile', rfl, fun step hstep hkind => ?_⟩
  cases result with
  | error e => cases hplan
  | ok steps =>
    obtain rfl := Except.ok.inj hplan
    have hafter := hrecorded.compile hcompile'
    have hfound := Plan.compileSteps_found hsteps step hstep
    obtain ⟨pass, hpass, hsame⟩ := hfound.pass
    obtain ⟨t, ht, -, hviews⟩ := exists_target_of_render ha hpass (hsame.symm.trans hkind)
    refine ⟨t, ht, (hfound.framebuffer hkind t ht).imp fun renderPass framebuffer hfind => ?_⟩
    have hmade := hafter.filed.filed _ framebuffer hfind
    refine ⟨t.framebufferDesc renderPass, fun desc' => ⟨fun h => ?_, fun h => h ▸ hmade⟩, rfl, ?_⟩
    · exact hafter.filed.unique _ desc' framebuffer hmade h
    · refine List.forall₂_map_right_iff.2 (List.forall₂_same.2 fun x hx => ?_)
      -- a frame changes the states that nodes carry, and neither their names nor their views
      have hview : f.imageViewHandle x.resource = .ok x.view := by
        obtain ⟨uses, -, -, rfl⟩ := analyze_ok_iff.1 ha
        exact (Forest.retains_carry _ _).imageViewHandle (hviews x hx)
      exact ⟨hview, hafter.holds.exists_image hview⟩

/-! ### A wall that is painted, taken down, put up again and painted again -/

namespace Fresco

def wall : ImageDesc := .twoD 4 4 .b8g8r8a8Unorm .colorAttachment

def graph : PassGraph := ⟨[⟨"paint", .render, [.colorOutput "wall"]⟩], 0⟩

/-- The wall and its view, with the handles from `first?` on. -/
def forest (life : Nat) (first? : Option Nat) (left : AccessState) : Forest where
  nodes := [
    { name := "wall"
      residency := .transient
      payload := .image wall (first?.map fun n => ⟨n⟩) false
      life
      current := left },
    { name := "wall/wall"
      residency := .transient
      payload := .imageView wall.defaultView "wall" (first?.map fun n => ⟨n + 1⟩)
      parent := some 0
      life }]
  life

/-- The wall as the paint leaves it. -/
def painted : AccessState :=
  ⟨.colorAttachmentOutput, .colorAttachmentWrite, .colorAttachment⟩

def mounted : Headless where
  lastHandle := 2
  created := { images := 1, imageViews := 1 }
  images := [(⟨1⟩, "wall")]
  imageViews := [(⟨2⟩, ⟨1⟩)]

/-- The device with the render pass and the framebuffer of the first frame. -/
def used : Headless := { mounted with
  lastHandle := 4
  created := { mounted.created with renderPasses := 1, framebuffers := 1 } }

def remounted : Headless where
  lastHandle := 6
  created := { used.created with images := 2, imageViews := 2 }
  images := [(⟨5⟩, "wall")]
  imageViews := [(⟨6⟩, ⟨5⟩)]
  destroyed := [.imageView ⟨2⟩, .image ⟨1⟩]

/-- The second frame finds the render pass of the first, and not its framebuffer. -/
def reused : Headless := { remounted with
  lastHandle := 7
  created := { remounted.created with framebuffers := 2 } }

theorem compile_eq : ∃ plan cache plan' cache',
    (compileFrame graph (forest 1 (some 1) .undefined) {} {} mounted).result =
      .ok (.ok plan, forest 1 (some 1) painted, cache, used) ∧
    plan.steps.map (fun s => (s.kind, s.framebuffer)) = [(.render, some ⟨4⟩)] ∧
    (compileFrame graph (forest 2 (some 5) .undefined) {} cache remounted).result =
      .ok (.ok plan', forest 2 (some 5) painted, cache', reused) ∧
    plan'.steps.map (fun s => (s.kind, s.framebuffer)) = [(.render, some ⟨7⟩)] :=
  ⟨_, _, _, _, rfl, rfl, rfl, rfl⟩

theorem steps {plan : Plan} {cache : ObjectCache}
    (h : (compileFrame graph (forest 1 (some 1) .undefined) {} {} mounted).result =
      .ok (.ok plan, forest 1 (some 1) painted, cache, used)) :
    ReflTransGen (Session.Step Headless.Aside) { device := {} }
      ⟨forest 2 (some 5) .undefined, cache, remounted⟩ :=
  .tail (.tail (.tail (.tail (.tail .refl
    (.operate (o := .addImage "wall" wall .transient) rfl))
    (.operate (o := .mount "wall") rfl))
    (.compile h))
    (.operate (o := .unmount "wall" 2) rfl))
    (.operate (o := .mount "wall") rfl)

end Fresco

theorem framebuffers_current_fresco : ∃ (plan : Plan) (a : Analysis) (r : Recorder)
    (cache cache' : ObjectCache),
    ReflTransGen (Session.Step Headless.Aside) { device := {} }
      ⟨Fresco.forest 2 (some 5) .undefined, cache, Fresco.remounted⟩ ∧
    (compileFrame Fresco.graph (Fresco.forest 2 (some 5) .undefined) {} cache
      Fresco.remounted).result =
        .ok (.ok plan, Fresco.forest 2 (some 5) Fresco.painted, cache', Fresco.reused) ∧
    plan.steps.map (fun s => (s.kind, s.framebuffer)) = [(.render, some ⟨7⟩)] ∧
    r.device = Fresco.reused ∧
    ∀ step ∈ plan.steps, step.kind = .render → ∃ t, a.target? step.index = some t ∧
      step.IsCurrent (Fresco.forest 2 (some 5) Fresco.painted) r t := by
  obtain ⟨_, cache, plan, cache', hfirst, -, hsecond, hframebuffers⟩ := Fresco.compile_eq
  have hsteps := Fresco.steps hfirst
  obtain ⟨s, -, -, hcurrent⟩ := framebuffers_current hsteps
  obtain ⟨a, r, -, -, hdevice, h⟩ := hcurrent Fresco.graph {} plan _ cache' _ hsecond
  exact ⟨plan, a, r, cache, cache', hsteps, hsecond, hframebuffers, hdevice, h⟩

end FrameGraph
