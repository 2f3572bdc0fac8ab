import FrameGraph.Plan.Basic
import FrameGraph.Proofs.Objects
import Mathlib.Order.Bounds.Basic

/-!
# What compiling takes from the device

To compile a frame takes render passes, framebuffers, pipelines and their layouts from the device,
one after the other and through the cache: every part of it comes to such steps
(`PlanM.OnlyGets`). None of them touches a buffer, an image or a view, so a compiled frame does to
the resources what its analysis does (`compileFrame_ok`).
-/

set_option autoImplicit false

namespace FrameGraph

variable {α β : Type}

/-- The objects that the cache keeps are not among those that the device keeps book of. -/
theorem ObjectDesc.create_same (desc : ObjectDesc) (d : Headless) :
    d.SameObjects (desc.create d).2 := by
  have hlast : d.lastHandle ≤ d.lastHandle + 1 := Nat.le_succ _
  cases desc with
  | renderPass desc => exact ⟨hlast, rfl, rfl, rfl, fun k => by cases k <;> rfl⟩
  | framebuffer desc =>
    simp only [create, Device.createFramebuffer, Headless.createFramebuffer]
    split
    · exact .refl d
    · exact ⟨hlast, rfl, rfl, rfl, fun k => by cases k <;> rfl⟩
  | pipeline desc => exact ⟨hlast, rfl, rfl, rfl, fun k => by cases k <;> rfl⟩
  | setLayout desc => exact ⟨hlast, rfl, rfl, rfl, fun k => by cases k <;> rfl⟩
  | pipelineLayout desc => exact ⟨hlast, rfl, rfl, rfl, fun k => by cases k <;> rfl⟩

/-- How many objects of a kind were made, where the cache keeps objects of that kind. -/
def Created.cached (c : Created) : ObjectKind → Nat
  | .renderPass => c.renderPasses
  | .framebuffer => c.framebuffers
  | .pipeline => c.pipelines
  | .setLayout => c.setLayouts
  | .pipelineLayout => c.pipelineLayouts
  | _ => 0

/-- Whether an object cannot be made: a framebuffer on no render pass. -/
def ObjectDesc.Refused : ObjectDesc → Prop
  | .framebuffer desc => desc.renderPass.isNull = true
  | _ => False

theorem ObjectDesc.create_of_refused {desc : ObjectDesc} (h : desc.Refused) (d : Headless) :
    desc.create d = (.error .initializationFailed, d) := by
  cases desc with
  | framebuffer desc =>
    have hnull : desc.renderPass.isNull = true := h
    simp only [create, Device.createFramebuffer, Headless.createFramebuffer, hnull]
    rfl
  | _ => cases h

/-- **The headless device makes every other object**, under the next handle, and counts it. -/
theorem ObjectDesc.exists_create {desc : ObjectDesc} (h : ¬ desc.Refused) (d : Headless) :
    ∃ d', desc.create d = (.ok ⟨d.lastHandle + 1⟩, d') ∧ d'.lastHandle = d.lastHandle + 1 ∧
      ∀ k, d'.created.cached k = d.created.cached k + if desc.kind = k then 1 else 0 := by
  cases desc with
  | framebuffer desc =>
    have hnull : desc.renderPass.isNull = false := Bool.eq_false_iff.2 h
    simp only [create, Device.createFramebuffer, Headless.createFramebuffer, hnull]
    exact ⟨_, rfl, rfl, fun k => by cases k <;> rfl⟩
  | renderPass desc => exact ⟨_, rfl, rfl, fun k => by cases k <;> rfl⟩
  | pipeline desc => exact ⟨_, rfl, rfl, fun k => by cases k <;> rfl⟩
  | setLayout desc => exact ⟨_, rfl, rfl, fun k => by cases k <;> rfl⟩
  | pipelineLayout desc => exact ⟨_, rfl, rfl, fun k => by cases k <;> rfl⟩

theorem ObjectCache.getOrCreate_same (c : ObjectCache) (desc : ObjectDesc) (d : Headless) :
    d.SameObjects (c.getOrCreate desc d).2.2 := by
  have hcreate := desc.create_same d
  unfold getOrCreate
  split
  · exact .refl d
  · split
    · next h =>
      rw [h] at hcreate
      exact hcreate
    · next h =>
      rw [h] at hcreate
      exact hcreate

open Relation (ReflTransGen)

/-- One object got from the cache, which asks the device for what it lacks. -/
inductive Gets {δ : Type} [Device δ] : ObjectCache × δ → ObjectCache × δ → Prop
  | object (desc : ObjectDesc) (c : ObjectCache) (d : δ) : Gets (c, d) (c.getOrCreate desc d).2

theorem Gets.same {s s' : ObjectCache × Headless} (h : Gets s s') : s.2.SameObjects s'.2 := by
  obtain ⟨desc, c, d⟩ := h
  exact c.getOrCreate_same desc d

namespace PlanM

variable {δ : Type} [Device δ]

/-- Whether a computation does nothing to cache and device but to get objects, also where it ends
early. -/
def OnlyGets (x : PlanM δ α) : Prop :=
  ∀ s r s', (x.run s).result = .ok (r, s') → ReflTransGen Gets s s'

theorem OnlyGets.pure (a : α) : OnlyGets (Pure.pure a : PlanM δ α) := by
  intro s r s' h
  cases h
  exact .refl

theorem OnlyGets.bind {x : PlanM δ α} {k : α → PlanM δ β} (hx : OnlyGets x)
    (hk : ∀ a, OnlyGets (k a)) : OnlyGets (x >>= k) := by
  intro s r s' h
  have h : (x.run s >>= fun p => ExceptT.bindCont k p.1 p.2).result = .ok (r, s') := h
  rw [Traced.result_bind, Except.bind_eq_ok_iff] at h
  obtain ⟨⟨r', t⟩, ht, h⟩ := h
  have hfirst := hx s r' t ht
  cases r' with
  | ok a => exact hfirst.trans (hk a t r s' h)
  | error e =>
    cases h
    exact hfirst

theorem OnlyGets.foldlM {step : β → α → PlanM δ β} (hstep : ∀ b a, OnlyGets (step b a))
    (l : List α) (b : β) : OnlyGets (l.foldlM step b) := by
  induction l generalizing b with
  | nil => exact .pure b
  | cons a l ih =>
    rw [List.foldlM_cons]
    exact (hstep b a).bind ih

theorem OnlyGets.traced (x : Traced α) : OnlyGets (PlanM.traced x : PlanM δ α) := by
  intro s r s' h
  have h : (x >>= fun a => Pure.pure (.ok a, s)).result = .ok (r, s') := h
  rw [Traced.result_bind, Except.bind_eq_ok_iff] at h
  obtain ⟨a, -, h⟩ := h
  cases h
  exact .refl

theorem OnlyGets.object (desc : ObjectDesc) : OnlyGets (δ := δ) (PlanM.object desc) := by
  rintro ⟨c, d⟩ r s' h
  obtain rfl : (c.getOrCreate desc d).2 = s' := congrArg Prod.snd (Except.ok.inj h)
  exact .single (.object desc c d)

end PlanM

/-- **A draw belongs to the last render pass before it.** -/
theorem PassGraph.renderPassBefore_eq_some_iff {passes : List Pass} {i o : Nat} :
    renderPassBefore passes i = some o ↔
      IsGreatest {j | j < i ∧ ∃ pass, passes[j]? = some pass ∧ pass.kind = .render} o := by
  induction i with
  | zero => exact iff_of_false nofun fun h => Nat.not_lt_zero o h.1.1
  | succ i ih =>
    unfold renderPassBefore
    split
    · next hany =>
      obtain ⟨pass, hpass, hkind⟩ := (Option.any_eq_true _ _).1 hany
      have hi : IsGreatest {j | j < i + 1 ∧ ∃ pass, passes[j]? = some pass ∧ pass.kind = .render}
          i := ⟨⟨Nat.lt_succ_self i, pass, hpass, beq_iff_eq.1 hkind⟩,
        fun j hj => Nat.le_of_lt_succ hj.1⟩
      rw [Option.some.injEq]
      exact ⟨fun h => h ▸ hi, hi.unique⟩
    · next hnone =>
      rw [ih]
      refine iff_of_eq (congrArg (IsGreatest · o) (Set.ext fun j => and_congr_left fun hj => ?_))
      rw [Nat.lt_succ_iff_lt_or_eq, or_iff_left]
      rintro rfl
      obtain ⟨pass, hpass, hkind⟩ := hj
      exact hnone ((Option.any_eq_true _ _).2 ⟨pass, hpass, beq_iff_eq.2 hkind⟩)

namespace Plan

/-! ## The step of a pass, by its kind -/

section
variable {δ : Type} [Device δ] {shaders : Registry} {a : Analysis} {passes : List Pass}
  {before : List PlanStep} {index : Nat} {pass : Pass}

/-- The step of a render pass that draws into `t`. -/
def renderStep (step : PlanStep) (t : RenderTarget Attachment) : PlanM δ PlanStep := do
  let (renderPass, framebuffer) ← targetObjects t
  return { step with
    renderPass := some renderPass
    framebuffer := some framebuffer
    extent := some t.extent }

/-- The step of a draw within the render pass at `owner`, and what it draws into. -/
def drawStep (shaders : Registry) (phase : String) (step : PlanStep) (owner : Option Nat)
    (drawn : Option (Handle .renderPass × RenderTarget Attachment)) : PlanM δ PlanStep :=
  match drawn with
  | some (renderPass, t) => do
    return { step with owner, pipeline := ← drawObjects shaders phase renderPass t }
  | none => do
    PlanM.traced (Traced.report
      (.warn s!"draw batch {step.name} has no render pass with attachments"))
    return { step with owner }

/-- The render pass and the attachments of the pass at `owner`, where it has any. -/
def drawnInto (a : Analysis) (before : List PlanStep) (owner : Option Nat) :
    Option (Handle .renderPass × RenderTarget Attachment) := do
  let i ← owner
  return (← (← before[i]?).renderPass, ← a.target? i)

theorem compileStep_of_render (h : pass.kind = .render) :
    compileStep (δ := δ) shaders a passes before index pass =
      match attachedTarget? a index with
      | none => pure (bareStep a index pass)
      | some t => renderStep (bareStep a index pass) t := by
  unfold compileStep
  rw [h]
  rfl

/-- A render pass without attachments takes no objects. -/
theorem compileStep_of_unattached (h : pass.kind = .render)
    (ht : ∀ t, a.target? index = some t → t.attachments = []) :
    compileStep (δ := δ) shaders a passes before index pass = pure (bareStep a index pass) := by
  have hnone : attachedTarget? a index = none := by
    refine Option.filter_eq_none_iff.2 fun t htarget => ?_
    simp [ht t htarget]
  rw [compileStep_of_render h, hnone]

theorem compileStep_of_attached {t : RenderTarget Attachment} (h : pass.kind = .render)
    (ht : a.target? index = some t) (hne : t.attachments ≠ []) :
    compileStep (δ := δ) shaders a passes before index pass =
      renderStep (bareStep a index pass) t := by
  have hsome : attachedTarget? a index = some t := by
    unfold attachedTarget?
    rw [ht, Option.filter_some, if_pos (by simpa using hne)]
  rw [compileStep_of_render h, hsome]

theorem compileStep_of_draw {phase : String} (h : pass.kind = .draw phase) :
    compileStep (δ := δ) shaders a passes before index pass =
      drawStep shaders phase (bareStep a index pass) (PassGraph.renderPassBefore passes index)
        (drawnInto a before (PassGraph.renderPassBefore passes index)) := by
  unfold compileStep
  rw [h]
  rfl

/-- The other passes take no objects. -/
theorem compileStep_of_other (hrender : pass.kind ≠ .render)
    (hdraw : ∀ phase, pass.kind ≠ .draw phase) :
    compileStep (δ := δ) shaders a passes before index pass = pure (bareStep a index pass) := by
  unfold compileStep
  cases h : pass.kind with
  | render => exact absurd h hrender
  | draw phase => exact absurd h (hdraw phase)
  | compute phase => rfl
  | copy => rfl

open PlanM (OnlyGets)

theorem targetObjects_onlyGets (t : RenderTarget Attachment) :
    OnlyGets (δ := δ) (targetObjects t) :=
  (OnlyGets.object _).bind fun _ => (OnlyGets.object _).bind fun _ => .pure _

theorem drawObjects_onlyGets (shaders : Registry) (phase : String)
    (renderPass : Handle .renderPass) (t : RenderTarget Attachment) :
    OnlyGets (δ := δ) (drawObjects shaders phase renderPass t) := by
  refine (OnlyGets.traced _).bind fun shader => ?_
  split
  · exact .pure none
  · exact (OnlyGets.object _).bind fun _ => (OnlyGets.object _).bind fun _ =>
      (OnlyGets.object _).bind fun _ => .pure _

theorem drawStep_onlyGets (shaders : Registry) (phase : String) (step : PlanStep)
    (owner : Option Nat) (drawn : Option (Handle .renderPass × RenderTarget Attachment)) :
    OnlyGets (δ := δ) (drawStep shaders phase step owner drawn) := by
  cases drawn with
  | none => exact (OnlyGets.traced _).bind fun _ => .pure _
  | some drawn => exact (drawObjects_onlyGets shaders _ _ _).bind fun _ => .pure _

/-- What relates the steps of each kind on two devices relates those of any pass. -/
theorem compileStep_rel {ε : Type} [Device ε] {M : PlanM δ PlanStep → PlanM ε PlanStep → Prop}
    (hbare : M (pure (bareStep a index pass)) (pure (bareStep a index pass)))
    (hrender : ∀ t, M (renderStep (bareStep a index pass) t) (renderStep (bareStep a index pass) t))
    (hdraw : ∀ phase owner drawn, M (drawStep shaders phase (bareStep a index pass) owner drawn)
      (drawStep shaders phase (bareStep a index pass) owner drawn)) :
    M (compileStep shaders a passes before index pass)
      (compileStep shaders a passes before index pass) := by
  cases hkind : pass.kind with
  | render =>
    rw [compileStep_of_render hkind, compileStep_of_render hkind]
    split
    · exact hbare
    · exact hrender _
  | draw phase =>
    rw [compileStep_of_draw hkind, compileStep_of_draw hkind]
    exact hdraw phase _ _
  | compute phase =>
    rw [compileStep_of_other (by simp [hkind]) (by simp [hkind]),
      compileStep_of_other (by simp [hkind]) (by simp [hkind])]
    exact hbare
  | copy =>
    rw [compileStep_of_other (by simp [hkind]) (by simp [hkind]),
      compileStep_of_other (by simp [hkind]) (by simp [hkind])]
    exact hbare

theorem compileStep_onlyGets (shaders : Registry) (a : Analysis) (passes : List Pass)
    (before : List PlanStep) (index : Nat) (pass : Pass) :
    OnlyGets (δ := δ) (compileStep shaders a passes before index pass) :=
  compileStep_rel (M := fun x (_ : PlanM δ PlanStep) => OnlyGets x) (.pure _)
    (fun t => (targetObjects_onlyGets t).bind fun _ => .pure _) (drawStep_onlyGets shaders · _)

theorem compileSteps_onlyGets (shaders : Registry) (a : Analysis) (passes : List Pass) :
    OnlyGets (δ := δ) (compileSteps shaders a passes) := by
  refine .foldlM (fun before x => ?_) _ _
  exact (compileStep_onlyGets shaders a passes before x.2 x.1).bind fun _ => .pure _

end

end Plan

/-- To compile a frame is to analyse it and then to get the objects that its steps take. -/
theorem compileFrame_ok_iff {δ : Type} [Device δ] {graph : PassGraph} {f f' : Forest}
    {shaders : Registry} {cache cache' : ObjectCache} {d d' : δ} {r : Except DeviceError Plan} :
    (compileFrame graph f shaders cache d).result = .ok (r, f', cache', d') ↔ ∃ a steps,
      (analyze graph.passes f shaders).result = .ok (a, f') ∧
      ((Plan.compileSteps shaders a graph.passes).run (cache, d)).result =
        .ok (steps, cache', d') ∧
      r = steps.map fun steps => ⟨graph.generation, steps, a.endOfFrame⟩ := by
  simp only [compileFrame, Traced.result_bind, Except.bind_eq_ok_iff]
  constructor
  · rintro ⟨⟨a, g⟩, ha, ⟨steps, c, e⟩, hsteps, h⟩
    cases h
    exact ⟨a, steps, ha, hsteps, rfl⟩
  · rintro ⟨a, steps, ha, hsteps, rfl⟩
    exact ⟨(a, f'), ha, (steps, cache', d'), hsteps, rfl⟩

/-- **A compiled frame leaves the resources as its analysis does**, and only gets objects from the
cache. -/
theorem compileFrame_gets {δ : Type} [Device δ] {graph : PassGraph} {f f' : Forest}
    {shaders : Registry} {cache cache' : ObjectCache} {d d' : δ} {r : Except DeviceError Plan}
    (h : (compileFrame graph f shaders cache d).result = .ok (r, f', cache', d')) :
    (∃ a, (analyze graph.passes f shaders).result = .ok (a, f')) ∧
      ReflTransGen Gets (cache, d) (cache', d') := by
  obtain ⟨a, steps, ha, hsteps, -⟩ := compileFrame_ok_iff.1 h
  exact ⟨⟨a, ha⟩, Plan.compileSteps_onlyGets shaders a graph.passes _ _ _ hsteps⟩

/-- A compiled frame leaves the buffers, images and views of the headless device as they are. -/
theorem compileFrame_ok {graph : PassGraph} {f f' : Forest} {shaders : Registry}
    {cache cache' : ObjectCache} {d d' : Headless} {r : Except DeviceError Plan}
    (h : (compileFrame graph f shaders cache d).result = .ok (r, f', cache', d')) :
    (∃ a, (analyze graph.passes f shaders).result = .ok (a, f')) ∧ d.SameObjects d' := by
  obtain ⟨ha, hgets⟩ := compileFrame_gets h
  refine ⟨ha, kept_by_all (P := fun s => d.SameObjects s.2) ?_ hgets (.refl d)⟩
  exact fun _ _ hstep hs => hs.trans hstep.same

end FrameGraph
