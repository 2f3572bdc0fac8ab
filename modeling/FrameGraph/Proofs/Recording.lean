import FrameGraph.Proofs.Compiling

/-!
# Recording framebuffers

`Recorder` is the headless device together with a record of the framebuffers that it made and what
each was made from. The record is only written: operations (`Operation.run_recorder`) and compiled
frames (`compileFrame_recorder`) do on the recorder what they do on the headless device.
-/

set_option autoImplicit false

namespace FrameGraph

structure Recorder where
  device : Headless := {}
  /-- What each framebuffer was made from, in order of creation. -/
  framebuffers : List (FramebufferDesc × Handle .framebuffer) := []

namespace Recorder

variable {α : Type}

/-- A call that makes no framebuffer. -/
def call (c : DeviceCall Headless α) : DeviceCall Recorder α := fun r =>
  ((c r.device).1, { r with device := (c r.device).2 })

def destroy (c : Headless → Except Fault Headless) (r : Recorder) : Except Fault Recorder :=
  (c r.device).map fun d => { r with device := d }

/-- A framebuffer that is made is recorded. -/
def createFramebuffer (desc : FramebufferDesc) : DeviceCall Recorder (Handle .framebuffer) :=
  fun r =>
    let (result, device) := Headless.createFramebuffer desc r.device
    (result, { device, framebuffers := r.framebuffers ++ result.toOption.toList.map (desc, ·) })

instance : Device Recorder where
  createBuffer desc name := call (Device.createBuffer desc name)
  createBufferView h desc name := call (Device.createBufferView h desc name)
  createImage desc name := call (Device.createImage desc name)
  createImageView h desc name := call (Device.createImageView h desc name)
  destroyBuffer h := destroy (Device.destroyBuffer h)
  destroyBufferView h := destroy (Device.destroyBufferView h)
  destroyImage h := destroy (Device.destroyImage h)
  destroyImageView h := destroy (Device.destroyImageView h)
  createRenderPass desc := call (Device.createRenderPass desc)
  createFramebuffer := createFramebuffer
  createPipeline desc := call (Device.createPipeline desc)
  createSetLayout desc := call (Device.createSetLayout desc)
  createPipelineLayout desc := call (Device.createPipelineLayout desc)
  createShaderModule words name r := do
    let (result, device) ← Device.createShaderModule words name r.device
    pure (result, { r with device })

end Recorder

/-! ## Operations -/

section
variable (f : Forest) (d : Headless) (made : List (FramebufferDesc × Handle .framebuffer))

namespace Payload

theorem attach_recorder {κ : ObjectKind} (put : Handle κ → Payload)
    (c : DeviceCall Headless (Handle κ)) :
    attach put (Recorder.call c) ⟨d, made⟩ =
      ((attach put c d).1, ⟨(attach put c d).2, made⟩) := by
  unfold attach Recorder.call
  cases hc : c d with
  | mk result d' => cases result <;> rfl

theorem realize_recorder (name : String) (origin : Option Payload) (p : Payload) :
    p.realize name origin (⟨d, made⟩ : Recorder) =
      (p.realize name origin d).map fun s => (s.1, ⟨s.2, made⟩) := by
  unfold realize
  split
  · exact congrArg Except.ok (attach_recorder d made _ _)
  · exact congrArg Except.ok (attach_recorder d made _ _)
  · rfl
  · exact congrArg Except.ok (attach_recorder d made _ _)
  · exact congrArg Except.ok (attach_recorder d made _ _)
  · rfl
  · rfl

theorem destroy_recorder (p : Payload) (c : Headless → Except Fault Headless) :
    (do return (p, ← Recorder.destroy c ⟨d, made⟩) : Except Fault (Payload × Recorder)) =
      (do return (p, ← c d) : Except Fault (Payload × Headless)).map
        fun s => (s.1, ⟨s.2, made⟩) := by
  unfold Recorder.destroy
  cases c d <;> rfl

theorem release_recorder (p : Payload) :
    p.release (⟨d, made⟩ : Recorder) = (p.release d).map fun s => (s.1, ⟨s.2, made⟩) := by
  unfold release
  split
  · exact destroy_recorder d made _ _
  · exact destroy_recorder d made _ _
  · exact destroy_recorder d made _ _
  · exact destroy_recorder d made _ _
  · rfl

end Payload

namespace Forest

theorem mountNode_recorder (i : Nat) : f.mountNode (⟨d, made⟩ : Recorder) i =
    (f.mountNode d i).map fun s => (s.1, s.2.1, ⟨s.2.2, made⟩) := by
  unfold mountNode
  split
  · rfl
  · next n hn =>
    simp only [Payload.realize_recorder]
    cases n.payload.realize n.name ((n.parent.bind (f.nodes[·]?)).map (·.payload)) d with
    | error e => rfl
    | ok s =>
      obtain ⟨outcome, d'⟩ := s
      cases outcome <;> rfl

theorem mountNodes_recorder (is : List Nat) : f.mountNodes (⟨d, made⟩ : Recorder) is =
    (f.mountNodes d is).map fun s => (s.1, s.2.1, ⟨s.2.2, made⟩) := by
  induction is generalizing f d with
  | nil => rfl
  | cons i is ih =>
    unfold mountNodes
    rw [mountNode_recorder]
    cases f.mountNode d i with
    | error e => rfl
    | ok s =>
      obtain ⟨outcome, g, d'⟩ := s
      cases outcome with
      | error e => rfl
      | ok u => exact ih g d'

theorem mount_recorder (name : String) : (f.mount name (⟨d, made⟩ : Recorder)).result =
    (f.mount name d).result.map fun s => (s.1, s.2.1, ⟨s.2.2, made⟩) := by
  simp only [mount, Traced.result_bind, Traced.result_ofExcept, mountNodes_recorder]
  cases f.find name with
  | error e => rfl
  | ok p =>
    show (({ f with life := f.life + 1 }.expandSwapchain (f.root p.index)).result >>= _) =
      (({ f with life := f.life + 1 }.expandSwapchain (f.root p.index)).result >>= _).map _
    cases ({ f with life := f.life + 1 }.expandSwapchain (f.root p.index)).result <;> rfl

theorem releaseNode_recorder (i : Nat) : f.releaseNode (⟨d, made⟩ : Recorder) i =
    (f.releaseNode d i).map fun s => (s.1, ⟨s.2, made⟩) := by
  unfold releaseNode
  split
  · rfl
  · next n hn =>
    rw [Payload.release_recorder]
    cases n.payload.release d <;> rfl

theorem releaseSubtree_recorder (i : Nat) : f.releaseSubtree (⟨d, made⟩ : Recorder) i =
    (f.releaseSubtree d i).map fun s => (s.1, ⟨s.2, made⟩) :=
  foldlM_map (f := fun (s : Forest × Headless) j => s.1.releaseNode s.2 j)
    (g := fun (s : Forest × Recorder) j => s.1.releaseNode s.2 j)
    (φ := fun s : Forest × Headless => (s.1, (⟨s.2, made⟩ : Recorder)))
    (fun s j => releaseNode_recorder s.1 s.2 made j) _ (f, d)

theorem unmount_recorder (name : String) (life : Nat) :
    f.unmount name life (⟨d, made⟩ : Recorder) =
      (f.unmount name life d).map fun s => (s.1, s.2.1, ⟨s.2.2, made⟩) := by
  unfold unmount
  simp only [releaseSubtree_recorder]
  cases f.find name with
  | error e => rfl
  | ok p =>
    show ite _ _ _ = Except.map _ (ite _ _ _)
    split
    · rfl
    · cases f.releaseSubtree d p.index <;> rfl

theorem unmountExpired_recorder (life : Nat) :
    f.unmountExpired life (⟨d, made⟩ : Recorder) =
      (f.unmountExpired life d).map fun s => (s.1, s.2.1, ⟨s.2.2, made⟩) := by
  have hfold := foldlM_map (f := fun (s : Forest × Headless) i => s.1.releaseSubtree s.2 i)
    (g := fun (s : Forest × Recorder) i => s.1.releaseSubtree s.2 i)
    (φ := fun s : Forest × Headless => (s.1, (⟨s.2, made⟩ : Recorder)))
    (fun s i => releaseSubtree_recorder s.1 s.2 made i) (f.expired life) (f, d)
  show ((f.expired life).foldlM (fun (s : Forest × Recorder) i => s.1.releaseSubtree s.2 i)
      (f, ⟨d, made⟩) >>= _) =
    Except.map _ ((f.expired life).foldlM (fun (s : Forest × Headless) i =>
      s.1.releaseSubtree s.2 i) (f, d) >>= _)
  rw [hfold]
  cases (f.expired life).foldlM (fun (s : Forest × Headless) i => s.1.releaseSubtree s.2 i)
    (f, d) <;> rfl

end Forest

/-- Registering asks nothing of the device. -/
theorem registered_recorder (x : Except Fault Forest) :
    (do return (← x, ⟨d, made⟩) : Except Fault (Forest × Recorder)) =
      (do return (← x, d) : Except Fault (Forest × Headless)).map fun s => (s.1, ⟨s.2, made⟩) := by
  cases x <;> rfl

/-- **An operation does on the recorder what it does on the headless device**, and makes no
framebuffer. -/
theorem Operation.run_recorder (o : Operation) : o.run f (⟨d, made⟩ : Recorder) =
    (o.run f d).map fun s => (s.1, ⟨s.2, made⟩) := by
  cases o with
  | addBuffer name desc residency => exact registered_recorder d made _
  | addBufferView name origin desc => exact registered_recorder d made _
  | addImage name desc residency => exact registered_recorder d made _
  | addImageView name origin desc => exact registered_recorder d made _
  | addSwapchain name source => exact registered_recorder d made _
  | acquire name index => exact registered_recorder d made _
  | mount name =>
    simp only [run, Forest.mount_recorder]
    cases (f.mount name d).result <;> rfl
  | unmount name life =>
    simp only [run, Forest.unmount_recorder]
    cases f.unmount name life d <;> rfl
  | unmountExpired life =>
    simp only [run, Forest.unmountExpired_recorder]
    cases f.unmountExpired life d <;> rfl

end

theorem Operation.run_recorder_ok {o : Operation} {f f' : Forest} {r r' : Recorder}
    (h : o.run f r = .ok (f', r')) :
    o.run f r.device = .ok (f', r'.device) ∧ r'.framebuffers = r.framebuffers := by
  have hrun := o.run_recorder f r.device r.framebuffers
  rw [h] at hrun
  cases hdevice : o.run f r.device with
  | error e =>
    rw [hdevice] at hrun
    cases hrun
  | ok s =>
    rw [hdevice] at hrun
    cases hrun
    exact ⟨rfl, rfl⟩

/-! ## Compiled frames -/

theorem ObjectDesc.create_recorder (desc : ObjectDesc) (r : Recorder) :
    desc.create r.device = ((desc.create r).1, (desc.create r).2.device) := by
  cases desc <;> rfl

theorem ObjectCache.getOrCreate_recorder (c : ObjectCache) (desc : ObjectDesc) (r : Recorder) :
    c.getOrCreate desc r.device =
      ((c.getOrCreate desc r).1, (c.getOrCreate desc r).2.1,
        (c.getOrCreate desc r).2.2.device) := by
  unfold getOrCreate
  rw [desc.create_recorder r]
  split
  · rfl
  · cases desc.create r with
    | mk result r' => cases result <;> rfl

namespace PlanM

variable {α β : Type}

/-- Whether a computation does on the recorder what another does on the headless device. -/
def Erases (x : PlanM Recorder α) (y : PlanM Headless α) : Prop :=
  ∀ c r, (y.run (c, r.device)).result =
    (x.run (c, r)).result.map fun s => (s.1, s.2.1, s.2.2.device)

theorem Erases.pure (a : α) : Erases (Pure.pure a) (Pure.pure a) := fun _ _ => rfl

theorem Erases.bind {x : PlanM Recorder α} {y : PlanM Headless α} {k : α → PlanM Recorder β}
    {l : α → PlanM Headless β} (hx : Erases x y) (hk : ∀ a, Erases (k a) (l a)) :
    Erases (x >>= k) (y >>= l) := by
  intro c r
  show (y.run (c, r.device) >>= fun p => ExceptT.bindCont l p.1 p.2).result =
    (x.run (c, r) >>= fun p => ExceptT.bindCont k p.1 p.2).result.map _
  rw [Traced.result_bind, Traced.result_bind, hx c r]
  cases (x.run (c, r)).result with
  | error e => rfl
  | ok s =>
    obtain ⟨result, c', r'⟩ := s
    cases result with
    | error e => rfl
    | ok a => exact hk a c' r'

theorem Erases.foldlM {step : β → α → PlanM Recorder β} {step' : β → α → PlanM Headless β}
    (hstep : ∀ b a, Erases (step b a) (step' b a)) (l : List α) (b : β) :
    Erases (l.foldlM step b) (l.foldlM step' b) := by
  induction l generalizing b with
  | nil => exact .pure b
  | cons a l ih =>
    rw [List.foldlM_cons, List.foldlM_cons]
    exact (hstep b a).bind ih

theorem Erases.traced (x : Traced α) : Erases (PlanM.traced x) (PlanM.traced x) := by
  intro c r
  show (x >>= fun a => Pure.pure (Except.ok a, c, r.device)).result =
    (x >>= fun a => Pure.pure (Except.ok a, c, r)).result.map _
  rw [Traced.result_bind, Traced.result_bind]
  cases x.result <;> rfl

theorem Erases.object (desc : ObjectDesc) : Erases (PlanM.object desc) (PlanM.object desc) :=
  fun c r => congrArg Except.ok (c.getOrCreate_recorder desc r)

end PlanM

namespace Plan

open PlanM (Erases)

theorem targetObjects_erases (t : RenderTarget Attachment) :
    Erases (targetObjects t) (targetObjects t) :=
  (Erases.object _).bind fun _ => (Erases.object _).bind fun _ => .pure _

theorem drawObjects_erases (shaders : Registry) (phase : String) (renderPass : Handle .renderPass)
    (t : RenderTarget Attachment) :
    Erases (drawObjects shaders phase renderPass t) (drawObjects shaders phase renderPass t) := by
  refine (Erases.traced _).bind fun shader => ?_
  split
  · exact .pure none
  · exact (Erases.object _).bind fun _ => (Erases.object _).bind fun _ =>
      (Erases.object _).bind fun _ => .pure _

theorem drawStep_erases (shaders : Registry) (phase : String) (step : PlanStep)
    (owner : Option Nat) (drawn : Option (Handle .renderPass × RenderTarget Attachment)) :
    Erases (drawStep shaders phase step owner drawn) (drawStep shaders phase step owner drawn) := by
  cases drawn with
  | none => exact (Erases.traced _).bind fun _ => .pure _
  | some drawn => exact (drawObjects_erases shaders _ _ _).bind fun _ => .pure _

theorem compileStep_erases (shaders : Registry) (a : Analysis) (passes : List Pass)
    (before : List PlanStep) (index : Nat) (pass : Pass) :
    Erases (compileStep shaders a passes before index pass)
      (compileStep shaders a passes before index pass) :=
  compileStep_rel (M := Erases) (.pure _)
    (fun t => (targetObjects_erases t).bind fun _ => .pure _) (drawStep_erases shaders · _)

theorem compileSteps_erases (shaders : Registry) (a : Analysis) (passes : List Pass) :
    Erases (compileSteps shaders a passes) (compileSteps shaders a passes) := by
  refine .foldlM (fun before x => ?_) _ _
  exact (compileStep_erases shaders a passes before x.2 x.1).bind fun _ => .pure _

end Plan

/-- **A frame is compiled on the recorder as on the headless device.** -/
theorem compileFrame_recorder (graph : PassGraph) (f : Forest) (shaders : Registry)
    (cache : ObjectCache) (r : Recorder) :
    (compileFrame graph f shaders cache r.device).result =
      (compileFrame graph f shaders cache r).result.map
        fun s => (s.1, s.2.1, s.2.2.1, s.2.2.2.device) := by
  simp only [compileFrame, Traced.result_bind]
  cases (analyze graph.passes f shaders).result with
  | error e => rfl
  | ok s =>
    show ((Plan.compileSteps shaders s.1 graph.passes).run (cache, r.device)).result >>= _ =
      Except.map _ (((Plan.compileSteps shaders s.1 graph.passes).run (cache, r)).result >>= _)
    rw [Plan.compileSteps_erases shaders s.1 graph.passes cache r]
    cases ((Plan.compileSteps shaders s.1 graph.passes).run (cache, r)).result <;> rfl

theorem compileFrame_recorder_ok {graph : PassGraph} {f f' : Forest} {shaders : Registry}
    {cache cache' : ObjectCache} {r r' : Recorder} {result : Except DeviceError Plan}
    (h : (compileFrame graph f shaders cache r).result = .ok (result, f', cache', r')) :
    (compileFrame graph f shaders cache r.device).result = .ok (result, f', cache', r'.device) := by
  rw [compileFrame_recorder, h]
  rfl

/-- What the headless device compiles, a device that records compiles. -/
theorem exists_compileFrame_recorder {graph : PassGraph} {f f' : Forest} {shaders : Registry}
    {cache cache' : ObjectCache} {r : Recorder} {d : Headless} {result : Except DeviceError Plan}
    (h : (compileFrame graph f shaders cache r.device).result = .ok (result, f', cache', d)) :
    ∃ r', (compileFrame graph f shaders cache r).result = .ok (result, f', cache', r') ∧
      r'.device = d := by
  rw [compileFrame_recorder] at h
  cases hr : (compileFrame graph f shaders cache r).result with
  | error e =>
    rw [hr] at h
    cases h
  | ok s =>
    rw [hr] at h
    cases h
    exact ⟨_, rfl, rfl⟩

end FrameGraph
