import FrameGraph.Proofs.Attachments
import FrameGraph.Proofs.Recompiling

/-!
# Frames whose shaders are loaded

The analysis looks up the shader of a draw for each resource that the draw declares; compiling looks
it up for each draw into attachments. So an accepted frame is compiled, unless a draw that declares
nothing names a shader that is not loaded (`compiles_of_loaded`). Such a draw stops the frame after
objects were made for the passes before it (`fault_after_objects`).

`PlanM.Ends` says how a computation ends on the headless device: with a result or with a fault, but
not because the device fails.
-/

set_option autoImplicit false

namespace FrameGraph

/-- Whether no object of the cache has the null handle. -/
def ObjectCache.Minted (c : ObjectCache) : Prop := ∀ e ∈ c.entries, e.2 ≠ 0

theorem ObjectCache.Minted.isNull_of_find {c : ObjectCache} (h : c.Minted) {desc : ObjectDesc}
    {x : Handle desc.kind} (hx : c.find? desc = some x) : x.isNull = false :=
  beq_eq_false_iff_ne.2 (h _ (mem_of_find? hx))

theorem ObjectCache.Minted.add {c : ObjectCache} (h : c.Minted) {desc : ObjectDesc}
    {x : Handle desc.kind} (hx : x.id ≠ 0) : (c.add desc x).Minted := by
  intro e he
  rcases List.mem_append.1 he with he | he
  · exact h e he
  · obtain rfl := List.mem_singleton.1 he
    exact hx

/-! ## How a computation ends -/

namespace PlanM

variable {α β : Type} {Q : α → Prop} {R : β → Prop} {E : Fault → Prop}

/-- Whether a computation, from a cache without null handles, ends with a result of which `Q` holds
or stops with a fault of which `E` holds. The headless device makes every object that it asks
for. -/
def Ends (Q : α → Prop) (E : Fault → Prop) (x : PlanM Headless α) : Prop :=
  ∀ c d, c.Minted →
    (∃ a c' d', (x.run (c, d)).result = .ok (.ok a, c', d') ∧ c'.Minted ∧ Q a) ∨
      ∃ e, (x.run (c, d)).result = .error e ∧ E e

theorem Ends.pure {a : α} (h : Q a) : Ends Q E (Pure.pure a) :=
  fun c d hc => .inl ⟨a, c, d, rfl, hc, h⟩

theorem Ends.bind {x : PlanM Headless α} {k : α → PlanM Headless β} (hx : Ends Q E x)
    (hk : ∀ a, Q a → Ends R E (k a)) : Ends R E (x >>= k) := by
  intro c d hc
  have hbind : ((x >>= k).run (c, d)).result =
      (x.run (c, d)).result >>= fun p => (ExceptT.bindCont k p.1 p.2).result :=
    Traced.result_bind _ _
  rcases hx c d hc with ⟨a, c', d', ha, hc', hQ⟩ | ⟨e, he, hE⟩
  · rcases hk a hQ c' d' hc' with ⟨b, c'', d'', hb, hc'', hR⟩ | ⟨e, he, hE⟩
    · exact .inl ⟨b, c'', d'', bind_ok_iff.2 ⟨a, _, ha, hb⟩, hc'', hR⟩
    · refine .inr ⟨e, ?_, hE⟩
      rw [hbind, ha]
      exact he
  · refine .inr ⟨e, ?_, hE⟩
    rw [hbind, he]
    rfl

theorem Ends.mono {E' : Fault → Prop} {x : PlanM Headless α} (hx : Ends Q E x)
    (hE : ∀ e, E e → E' e) : Ends Q E' x :=
  fun c d hc => (hx c d hc).imp id fun ⟨e, he, h⟩ => ⟨e, he, hE e h⟩

/-- A fold ends as `I` tells of each number of items done. -/
theorem Ends.foldlM {γ : Type} {I : Nat → β → Prop} {step : β → γ → PlanM Headless β} {l : List γ}
    (hstep : ∀ i x b, l[i]? = some x → I i b → Ends (I (i + 1)) E (step b x)) {b : β}
    (hb : I 0 b) : Ends (I l.length) E (l.foldlM step b) := by
  induction l generalizing I b with
  | nil => exact .pure hb
  | cons x l ih =>
    rw [List.foldlM_cons]
    refine (hstep 0 x b rfl hb).bind fun b' hb' => ?_
    exact ih (I := fun i => I (i + 1)) (fun i y b hy hi => hstep (i + 1) y b hy hi) hb'

theorem Ends.traced {x : Traced α} (hok : ∀ a, x.result = .ok a → Q a)
    (herror : ∀ e, x.result = .error e → E e) : Ends Q E (PlanM.traced x) := by
  intro c d hc
  cases hx : x.result with
  | ok a => exact .inl ⟨a, c, d, traced_ok_iff.2 ⟨hx, rfl⟩, hc, hok a hx⟩
  | error e =>
    refine .inr ⟨e, ?_, herror e hx⟩
    show (x >>= fun a => Pure.pure (Except.ok a, c, d)).result = .error e
    rw [Traced.result_bind, hx]
    rfl

/-- An object is found or made, and has a handle. -/
theorem Ends.object (desc : ObjectDesc) (h : ¬ desc.Refused) :
    Ends (fun x => x.isNull = false) E (PlanM.object desc) := by
  intro c d hc
  show (∃ a c' d', Except.ok (c.getOrCreate desc d) = Except.ok (Except.ok a, c', d') ∧ _) ∨ _
  unfold ObjectCache.getOrCreate
  split
  · next x hx => exact .inl ⟨x, _, d, rfl, hc, hc.isNull_of_find hx⟩
  · obtain ⟨d', hd', -, -⟩ := ObjectDesc.exists_create h d
    rw [hd']
    exact .inl ⟨_, _, d', rfl, hc.add (Nat.succ_ne_zero _), rfl⟩

end PlanM

/-! ## Draws whose shader is not loaded -/

/-- Whether the pass at a position draws, with a shader that is not loaded, into a render pass that
uses something. -/
def PassGraph.DrawsUnloaded (g : PassGraph) (shaders : Registry) (i : Nat) (phase : String) :
    Prop :=
  (∃ pass, g.passes[i]? = some pass ∧ pass.kind = .draw phase) ∧
  (∃ o owner, g.owner? i = some o ∧ g.passes[o]? = some owner ∧ owner.uses ≠ []) ∧
  shaders.shader? phase = none

theorem Registry.shader_eq_error_iff {shaders : Registry} {phase : String} {e : Fault} :
    shaders.shader phase = .error e ↔
      shaders.shader? phase = none ∧ e = .shaderNotLoaded phase := by
  unfold shader
  cases shaders.shader? phase with
  | none => simp [eq_comm]
  | some s => simp

namespace Plan

open PlanM (Ends)

variable {graph : PassGraph} {shaders : Registry} {a : Analysis} {before : List PlanStep}
  {pass : Pass} {f f' : Forest}

/-- What is known of the steps that were made: a render pass has a handle where it has attachments,
and no draw took a shader that is not loaded. -/
structure Made (graph : PassGraph) (shaders : Registry) (steps : List PlanStep) : Prop where
  attached : ∀ (i : Nat) (s : PlanStep) (pass : Pass), steps[i]? = some s →
    graph.passes[i]? = some pass → pass.kind = .render →
    (s.renderPass.isSome = true ↔ pass.uses ≠ [])
  loaded : ∀ i phase, graph.DrawsUnloaded shaders i phase → steps.length ≤ i

theorem Made.nil : Made graph shaders [] where
  attached _ _ _ hs := by simp at hs
  loaded i _ _ := Nat.zero_le i

theorem Made.snoc {s : PlanStep} (h : Made graph shaders before)
    (hpass : graph.passes[before.length]? = some pass)
    (hattached : pass.kind = .render → (s.renderPass.isSome = true ↔ pass.uses ≠ []))
    (hloaded : ∀ phase, ¬ graph.DrawsUnloaded shaders before.length phase) :
    Made graph shaders (before ++ [s]) where
  attached i t pass' ht hpass' hkind := by
    rcases getElem?_concat_cases ht with ht | ⟨rfl, rfl⟩
    · exact h.attached i t pass' ht hpass' hkind
    · rw [hpass] at hpass'
      obtain rfl := Option.some.inj hpass'
      exact hattached hkind
  loaded i phase hi := by
    have hle := h.loaded i phase hi
    have hne : i ≠ before.length := fun heq => hloaded phase (heq ▸ hi)
    simp only [List.length_append, List.length_singleton]
    omega

/-- The fault of the first draw whose shader is not loaded. -/
def IsUnloaded (graph : PassGraph) (shaders : Registry) (e : Fault) : Prop :=
  ∃ i phase, graph.DrawsUnloaded shaders i phase ∧
    (∀ j phase', graph.DrawsUnloaded shaders j phase' → i ≤ j) ∧ e = .shaderNotLoaded phase

theorem targetObjects_ends {E : Fault → Prop} (t : RenderTarget Attachment) :
    Ends (fun _ => True) E (targetObjects t) := by
  refine Ends.bind (Ends.object (.renderPass _) id) fun renderPass hrenderPass => ?_
  exact Ends.bind (Ends.object (.framebuffer _) (Bool.eq_false_iff.1 hrenderPass)) fun _ _ => .pure trivial

theorem drawObjects_ends (shaders : Registry) (phase : String) (renderPass : Handle .renderPass)
    (t : RenderTarget Attachment) :
    Ends (fun _ => shaders.shader? phase ≠ none)
      (fun e => shaders.shader? phase = none ∧ e = .shaderNotLoaded phase)
      (drawObjects shaders phase renderPass t) := by
  refine Ends.bind (Ends.traced (Q := fun _ => shaders.shader? phase ≠ none) (fun s hs hnone => ?_)
    fun e he => Registry.shader_eq_error_iff.1 he) fun shader hshader => ?_
  · rw [Traced.result_ofExcept, Registry.shader_eq_error_iff.2 ⟨hnone, rfl⟩] at hs
    cases hs
  · split
    · exact .pure hshader
    · refine Ends.bind (Ends.object (.setLayout _) id) fun setLayout _ => ?_
      refine Ends.bind (Ends.object (.pipelineLayout _) id) fun layout _ => ?_
      exact Ends.bind (Ends.object (.pipeline _) id) fun pipeline _ => .pure hshader

/-- Where a render pass is drawn into, it has attachments. -/
theorem isSome_drawnInto_iff (ha : (analyze graph.passes f shaders).result = .ok (a, f'))
    (hmade : Made graph shaders before) :
    (drawnInto a before (graph.owner? before.length)).isSome = true ↔
      ∃ o owner, graph.owner? before.length = some o ∧ graph.passes[o]? = some owner ∧
        owner.uses ≠ [] := by
  cases hown : graph.owner? before.length with
  | none => simp [drawnInto]
  | some o =>
    obtain ⟨hlt, owner, howner, hrender⟩ := (PassGraph.renderPassBefore_eq_some_iff.1 hown).1
    obtain ⟨t, ht, -⟩ := exists_target_of_render ha howner hrender
    have hs := List.getElem?_eq_getElem hlt
    have hattached := hmade.attached o _ owner hs howner hrender
    simp only [drawnInto, hs, ht, Option.bind_eq_bind, Option.bind_some]
    cases hrenderPass : before[o].renderPass with
    | none => simp_all
    | some renderPass => simp_all

/-- A step whose pass is no draw is made where a render pass with attachments gets its handle. -/
theorem Made.snoc_of_not_draw {s : PlanStep} (h : Made graph shaders before)
    (hpass : graph.passes[before.length]? = some pass) (hdraw : ∀ phase, pass.kind ≠ .draw phase)
    (hattached : pass.kind = .render → (s.renderPass.isSome = true ↔ pass.uses ≠ [])) :
    Made graph shaders (before ++ [s]) := by
  refine h.snoc hpass hattached fun phase hunloaded => ?_
  obtain ⟨⟨pass', hpass', hkind⟩, -⟩ := hunloaded
  rw [hpass] at hpass'
  obtain rfl := Option.some.inj hpass'
  exact hdraw phase hkind

/-- A draw is made where its shader is loaded or it has nothing to draw into. -/
theorem Made.snoc_of_draw {s : PlanStep} {phase : String} (h : Made graph shaders before)
    (hpass : graph.passes[before.length]? = some pass) (hkind : pass.kind = .draw phase)
    (hloaded : ¬ graph.DrawsUnloaded shaders before.length phase) :
    Made graph shaders (before ++ [s]) := by
  refine h.snoc hpass (fun hrender => ?_) fun phase' hunloaded => ?_
  · rw [hkind] at hrender
    cases hrender
  · obtain ⟨⟨pass', hpass', hkind'⟩, -⟩ := id hunloaded
    rw [hpass] at hpass'
    obtain rfl := Option.some.inj hpass'
    rw [hkind] at hkind'
    obtain rfl := PassKind.draw.inj hkind'
    exact hloaded hunloaded

/-- **One step** is made, or it is a draw whose shader is not loaded. -/
theorem compileStep_ends (ha : (analyze graph.passes f shaders).result = .ok (a, f'))
    (hmade : Made graph shaders before) (hpass : graph.passes[before.length]? = some pass) :
    Ends (fun s => Made graph shaders (before ++ [s])) (IsUnloaded graph shaders)
      (compileStep shaders a graph.passes before before.length pass) := by
  have hother (hrender : pass.kind ≠ .render) (hdraw : ∀ phase, pass.kind ≠ .draw phase) :
      Ends (fun s => Made graph shaders (before ++ [s])) (IsUnloaded graph shaders)
        (compileStep shaders a graph.passes before before.length pass) := by
    rw [compileStep_of_other hrender hdraw]
    exact .pure (hmade.snoc_of_not_draw hpass hdraw fun h => absurd h hrender)
  cases hkind : pass.kind with
  | render =>
    have hdraw (phase : String) : pass.kind ≠ .draw phase := by simp [hkind]
    obtain ⟨t, ht, hnil, -⟩ := exists_target_of_render ha hpass hkind
    by_cases hattachments : t.attachments = []
    · rw [compileStep_of_unattached hkind fun t' ht' =>
        Option.some.inj (ht.symm.trans ht') ▸ hattachments]
      refine .pure (hmade.snoc_of_not_draw hpass hdraw fun _ => ?_)
      exact iff_of_false Bool.noConfusion (not_not_intro (hnil.1 hattachments))
    · rw [compileStep_of_attached hkind ht hattachments]
      refine (targetObjects_ends t).bind fun objects _ => .pure ?_
      refine hmade.snoc_of_not_draw hpass hdraw fun _ => ?_
      exact iff_of_true rfl fun huses => hattachments (hnil.2 huses)
  | draw phase =>
    have howner := isSome_drawnInto_iff ha hmade
    rw [compileStep_of_draw hkind]
    show Ends _ _ (drawStep shaders phase _ (graph.owner? before.length)
      (drawnInto a before (graph.owner? before.length)))
    cases hdrawn : drawnInto a before (graph.owner? before.length) with
    | none =>
      rw [hdrawn] at howner
      refine Ends.bind (Ends.traced (Q := fun _ => True) (fun _ _ => trivial) nofun) fun _ _ =>
        .pure (hmade.snoc_of_draw hpass hkind fun h => ?_)
      exact Bool.noConfusion (howner.2 h.2.1)
    | some drawn =>
      rw [hdrawn] at howner
      have hends := drawObjects_ends shaders phase drawn.1 drawn.2
      refine Ends.bind (hends.mono fun e he => ?_) fun pipeline hloaded =>
        .pure (hmade.snoc_of_draw hpass hkind fun h => hloaded h.2.2)
      obtain ⟨hnone, rfl⟩ := he
      exact ⟨before.length, phase, ⟨⟨pass, hpass, hkind⟩, howner.1 rfl, hnone⟩,
        hmade.loaded, rfl⟩
  | compute phase => exact hother (by simp [hkind]) (by simp [hkind])
  | copy => exact hother (by simp [hkind]) (by simp [hkind])

theorem compileSteps_ends (ha : (analyze graph.passes f shaders).result = .ok (a, f')) :
    Ends (fun steps => Made graph shaders steps ∧ steps.length = graph.passes.length)
      (IsUnloaded graph shaders) (compileSteps shaders a graph.passes) := by
  unfold compileSteps
  rw [← List.length_zipIdx (l := graph.passes)]
  refine Ends.foldlM (I := fun i steps => Made graph shaders steps ∧ steps.length = i)
    (fun i x before hx hbefore => ?_) ⟨.nil, rfl⟩
  obtain ⟨hmade, rfl⟩ := hbefore
  rw [List.getElem?_zipIdx, Option.map_eq_some_iff] at hx
  obtain ⟨pass, hpass, rfl⟩ := hx
  rw [Nat.zero_add]
  refine (compileStep_ends ha hmade hpass).bind fun s hs => .pure ⟨hs, ?_⟩
  rw [List.length_append, List.length_singleton]

end Plan

/-! ## Frames -/

section
variable {graph : PassGraph} {f f' : Forest} {shaders : Registry} {a : Analysis}

/-- A draw of an accepted frame whose shader is not loaded declares nothing: for what it declares,
the analysis looks up the shader. -/
theorem uses_of_drawsUnloaded (ha : (analyze graph.passes f shaders).result = .ok (a, f'))
    {i : Nat} {phase : String} (h : graph.DrawsUnloaded shaders i phase) {pass : Pass}
    (hpass : graph.passes[i]? = some pass) : pass.uses = [] := by
  obtain ⟨⟨pass', hpass', hkind⟩, -, hnone⟩ := h
  rw [hpass] at hpass'
  obtain rfl := Option.some.inj hpass'
  obtain ⟨uses, huses, -⟩ := analyze_ok_iff.1 ha
  obtain ⟨r, -, hok⟩ := (frameUses_ok huses).2 i pass hpass
  refine List.eq_nil_iff_forall_not_mem.2 fun use huse => ?_
  obtain ⟨u, -, p, -, -, hclassify, -⟩ := exists_right_of_mem (passUses_ok hok).1 huse
  unfold Usage.classify at hclassify
  rw [hkind] at hclassify
  simp only [Traced.result_bind, Traced.result_ofExcept,
    Registry.shader_eq_error_iff.2 ⟨hnone, rfl⟩] at hclassify
  cases hclassify

/-- An accepted frame is compiled, or it stops at the first draw whose shader is not loaded. -/
theorem compileFrame_ends {cache : ObjectCache} (hcache : cache.Minted) (d : Headless)
    (ha : (analyze graph.passes f shaders).result = .ok (a, f')) :
    ((∀ i phase, ¬ graph.DrawsUnloaded shaders i phase) ∧ ∃ plan cache' d', cache'.Minted ∧
      (compileFrame graph f shaders cache d).result = .ok (.ok plan, f', cache', d')) ∨
    ∃ e, Plan.IsUnloaded graph shaders e ∧
      (compileFrame graph f shaders cache d).result = .error e := by
  rcases Plan.compileSteps_ends ha cache d hcache with
    ⟨steps, cache', d', hsteps, hcache', hmade, hlen⟩ | ⟨e, he, hunloaded⟩
  · refine .inl ⟨fun i phase h => ?_, _, cache', d', hcache',
      compileFrame_ok_iff.2 ⟨a, _, ha, hsteps, rfl⟩⟩
    obtain ⟨⟨pass, hpass, -⟩, -⟩ := id h
    have hlt := (List.getElem?_eq_some_iff.1 hpass).1
    have hle := hmade.loaded i phase h
    omega
  · refine .inr ⟨e, hunloaded, ?_⟩
    simp only [compileFrame, Traced.result_bind, ha]
    show ((Plan.compileSteps shaders a graph.passes).run (cache, d)).result >>= _ = _
    rw [he]
    rfl

/-- **An accepted frame is compiled if the shaders of its draws are loaded.** Otherwise it stops at
the first draw into attachments whose shader is not loaded, which is one that declares nothing. -/
theorem compiles_of_loaded {cache : ObjectCache} (hcache : cache.Minted) (d : Headless)
    (ha : (analyze graph.passes f shaders).result = .ok (a, f')) :
    ((∀ i phase, ¬ graph.DrawsUnloaded shaders i phase) → ∃ plan cache' d', cache'.Minted ∧
      (compileFrame graph f shaders cache d).result = .ok (.ok plan, f', cache', d')) ∧
    ∀ i phase, graph.DrawsUnloaded shaders i phase → ∃ j pass phase', j ≤ i ∧
      graph.DrawsUnloaded shaders j phase' ∧ graph.passes[j]? = some pass ∧ pass.uses = [] ∧
      (compileFrame graph f shaders cache d).result = .error (.shaderNotLoaded phase') := by
  rcases compileFrame_ends hcache d ha with ⟨hloaded, h⟩ | ⟨e, ⟨j, phase', hj, hfirst, rfl⟩, h⟩
  · exact ⟨fun _ => h, fun i phase hi => absurd hi (hloaded i phase)⟩
  · refine ⟨fun hloaded => absurd hj (hloaded j phase'), fun i phase hi => ?_⟩
    obtain ⟨⟨pass, hpass, -⟩, -⟩ := id hj
    exact ⟨j, pass, phase', hfirst i phase hi, hj, hpass, uses_of_drawsUnloaded ha hj hpass, h⟩

end

/-! ### The canvas, with the shader of its strokes and without -/

namespace Easel

theorem phase_of_draw {i : Nat} {pass : Pass} {phase : String}
    (hpass : graph.passes[i]? = some pass) (hkind : pass.kind = .draw phase) : phase = "flat" := by
  match i with
  | 0 =>
    cases hpass
    cases hkind
  | 1 =>
    cases hpass
    cases hkind
    rfl
  | i + 2 => cases hpass

theorem loaded (i : Nat) (phase : String) : ¬ graph.DrawsUnloaded shaders i phase := by
  rintro ⟨⟨pass, hpass, hkind⟩, -, hnone⟩
  obtain rfl := phase_of_draw hpass hkind
  cases hnone

theorem unloaded : graph.DrawsUnloaded {} 1 "flat" :=
  ⟨⟨⟨"strokes", .draw "flat", []⟩, rfl, rfl⟩,
    ⟨0, ⟨"paint", .render, [.colorOutput "canvas"]⟩, rfl, rfl, List.cons_ne_nil _ _⟩, rfl⟩

theorem eq_of_isUnloaded {e : Fault} (h : Plan.IsUnloaded graph {} e) :
    e = .shaderNotLoaded "flat" := by
  obtain ⟨i, phase, ⟨⟨pass, hpass, hkind⟩, -⟩, -, rfl⟩ := h
  rw [phase_of_draw hpass hkind]

theorem analyze_unloaded :
    (analyze graph.passes (forest 1 .undefined) {}).result = .ok (analysis, forest 1 painted) := rfl

theorem minted_empty : ({} : ObjectCache).Minted := by simp [ObjectCache.Minted]

end Easel

theorem compiles_of_loaded_easel :
    (∃ plan cache d, cache.Minted ∧
      (compileFrame Easel.graph (Easel.forest 1 .undefined) Easel.shaders {} Easel.device).result =
        .ok (.ok plan, Easel.forest 1 Easel.painted, cache, d)) ∧
    ∃ phase, (compileFrame Easel.graph (Easel.forest 1 .undefined) {} {} Easel.device).result =
      .error (.shaderNotLoaded phase) := by
  refine ⟨(compiles_of_loaded Easel.minted_empty Easel.device Easel.analyze_eq).1 Easel.loaded, ?_⟩
  obtain ⟨j, pass, phase, -, -, -, -, h⟩ :=
    (compiles_of_loaded Easel.minted_empty Easel.device Easel.analyze_unloaded).2 1 "flat"
      Easel.unloaded
  exact ⟨phase, h⟩

/-- An accepted frame may stop when states were changed and objects were made: here a render pass
and a framebuffer were made for the pass before the draw whose shader is not loaded. -/
theorem fault_after_objects :
    (analyze Easel.graph.passes (Easel.forest 1 .undefined) {}).result =
      .ok (Easel.analysis, Easel.forest 1 Easel.painted) ∧
    (∃ cache, ((Plan.compileStep {} Easel.analysis Easel.graph.passes [] 0
      ⟨"paint", .render, [.colorOutput "canvas"]⟩).run (({} : ObjectCache), Easel.device)).result =
        .ok (.ok Easel.paint, cache, Easel.primed)) ∧
    Easel.primed.created.renderPasses = 1 ∧ Easel.primed.created.framebuffers = 1 ∧
    (compileFrame Easel.graph (Easel.forest 1 .undefined) {} {} Easel.device).result =
      .error (.shaderNotLoaded "flat") := by
  refine ⟨Easel.analyze_unloaded, ⟨_, rfl⟩, rfl, rfl, ?_⟩
  rcases compileFrame_ends Easel.minted_empty Easel.device Easel.analyze_unloaded with
    ⟨hloaded, -⟩ | ⟨e, he, h⟩
  · exact absurd Easel.unloaded (hloaded 1 "flat")
  · rw [h, Easel.eq_of_isUnloaded he]

end FrameGraph
