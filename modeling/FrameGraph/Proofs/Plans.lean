import FrameGraph.Plan.Dump
import FrameGraph.Proofs.Caching
import FrameGraph.Proofs.CarriedStates
import FrameGraph.Proofs.Compiling
import Mathlib.Data.List.Induction

/-!
# What a plan takes over

The steps of a plan carry the barriers of the analysis, and a draw names an earlier step as its
owner (`compileSteps_bare`). So a plan can always be dumped (`dump_of_compiled`), and it has one
barrier for each move of a timeline and one for each image that is shown
(`barrierCount_of_compiled`).
-/

set_option autoImplicit false

namespace FrameGraph

/-! ## Counting barriers -/

section
variable {ts : List Timeline} {t : Timeline} {p : Nat}

/-- A move of a node with an object is carried out by one barrier. -/
theorem transition_cases (hkind : t.node.IsTracked) (hbacked : t.node.isBacked = true) :
    (∃ desc h external, t.node.payload = .image desc (some h) external) ∨
      ∃ desc h, t.node.payload = .buffer desc (some h) := by
  unfold Node.isBacked at hbacked
  unfold Node.IsTracked Node.kind at hkind
  cases hp : t.node.payload with
  | buffer desc handle =>
    rw [hp] at hbacked
    obtain ⟨h, rfl⟩ := Option.isSome_iff_exists.1 hbacked
    exact .inr ⟨desc, h, rfl⟩
  | image desc handle external =>
    rw [hp] at hbacked
    obtain ⟨h, rfl⟩ := Option.isSome_iff_exists.1 hbacked
    exact .inl ⟨desc, h, external, rfl⟩
  | _ =>
    rw [hp] at hkind
    simp [Payload.kind] at hkind

theorem size_before_cons (hkind : t.node.IsTracked) (hbacked : t.node.isBacked = true) :
    (TransitionBatch.before p (t :: ts)).size =
      (t.movesAt p).length + (TransitionBatch.before p ts).size := by
  simp only [TransitionBatch.size, TransitionBatch.before, List.flatMap_cons, List.length_append]
  rcases transition_cases hkind hbacked with ⟨desc, h, external, hp⟩ | ⟨desc, h, hp⟩
  · simp only [Timeline.imageTransition?, Timeline.bufferTransition?, hp]
    simp
    omega
  · simp only [Timeline.imageTransition?, Timeline.bufferTransition?, hp]
    simp
    omega

theorem size_before (hts : ∀ t ∈ ts, t.node.IsTracked ∧ t.node.isBacked = true) (p : Nat) :
    (TransitionBatch.before p ts).size = ((ts.flatMap (·.moves)).filter (·.pass == p)).length := by
  induction ts with
  | nil => rfl
  | cons t ts ih =>
    obtain ⟨hkind, hbacked⟩ := hts t List.mem_cons_self
    rw [size_before_cons hkind hbacked, ih fun u hu => hts u (List.mem_cons_of_mem t hu),
      List.flatMap_cons, List.filter_append, List.length_append]
    rfl

theorem size_atEnd (hts : ∀ t ∈ ts, t.node.isBacked = true) :
    (TransitionBatch.atEnd ts).size = (ts.filter (·.isShown)).length := by
  show (TransitionBatch.atEnd ts).images.length + 0 = _
  rw [images_atEnd, Nat.add_zero]
  induction ts with
  | nil => rfl
  | cons t ts ih =>
    have ih := ih fun u hu => hts u (List.mem_cons_of_mem t hu)
    have hbacked := hts t List.mem_cons_self
    rw [List.flatMap_cons, List.length_append, ih, List.filter_cons]
    by_cases hshown : t.isShown = true
    · obtain ⟨himage, -⟩ := Bool.and_eq_true_iff.1 hshown
      unfold Node.imageDesc? at himage
      unfold Node.isBacked at hbacked
      cases hp : t.node.payload with
      | image desc handle external =>
        rw [hp] at hbacked
        obtain ⟨h, rfl⟩ := Option.isSome_iff_exists.1 hbacked
        simp [hshown, Timeline.imageTransition?, hp]
        omega
      | _ =>
        rw [hp] at himage
        cases himage
    · simp [hshown]

theorem length_filter_lt_succ (ms : List Move) (n : Nat) : (ms.filter (·.pass < n + 1)).length =
    (ms.filter (·.pass < n)).length + (ms.filter (·.pass == n)).length := by
  induction ms with
  | nil => rfl
  | cons m ms ih =>
    simp only [← List.countP_eq_length_filter, List.countP_cons, decide_eq_true_eq,
      beq_iff_eq] at ih ⊢
    rw [ih]
    rcases Nat.lt_trichotomy m.pass n with h | h | h
    · rw [if_pos (Nat.lt_succ_of_lt h), if_pos h, if_neg (Nat.ne_of_lt h)]
      omega
    · rw [if_pos (h ▸ Nat.lt_succ_self _), if_neg (h ▸ Nat.lt_irrefl _), if_pos h]
      omega
    · rw [if_neg (Nat.not_lt_of_ge (Nat.succ_le_of_lt h)), if_neg (Nat.not_lt_of_gt h),
        if_neg (Nat.ne_of_gt h)]
      omega

/-- Counting by passes comes to counting all. -/
theorem foldl_passes {ms : List Move} {n : Nat} (hms : ∀ m ∈ ms, m.pass < n) (start : Nat) :
    (List.range n).foldl (fun total p => total + (ms.filter (·.pass == p)).length) start =
      start + ms.length := by
  have hall (n : Nat) :
      (List.range n).foldl (fun total p => total + (ms.filter (·.pass == p)).length) start =
        start + (ms.filter (·.pass < n)).length := by
    induction n with
    | zero => simp
    | succ n ih =>
      rw [List.range_succ, List.foldl_append, ih, List.foldl_cons, List.foldl_nil,
        length_filter_lt_succ]
      omega
  rw [hall, List.filter_eq_self.2 fun m hm => decide_eq_true (hms m hm)]

end

/-! ## Steps -/

namespace Plan

variable {δ : Type} [Device δ] {shaders : Registry} {a : Analysis} {passes : List Pass}

/-- What a step takes over from the analysis, whatever objects it has. -/
structure TakesOver (a : Analysis) (index : Nat) (s : PlanStep) : Prop where
  barriers : s.barriers = (a.barriers[index]?).getD .empty
  owner : ∀ i, s.owner = some i → i < index

/-- What the step of a pass is, given the steps before it, and what getting its objects does to
cache and device. -/
inductive Compiles (shaders : Registry) (a : Analysis) (passes : List Pass)
    (before : List PlanStep) (index : Nat) (pass : Pass) :
    ObjectCache × δ → PlanStep → ObjectCache × δ → Prop
  | bare {s : ObjectCache × δ} (hdraw : ∀ phase, pass.kind ≠ .draw phase)
      (hattached : pass.kind = .render → attachedTarget? a index = none) :
      Compiles shaders a passes before index pass s (bareStep a index pass) s
  | attached {s s' : ObjectCache × δ} {t : RenderTarget Attachment}
      {renderPass : Handle .renderPass} {framebuffer : Handle .framebuffer}
      (hkind : pass.kind = .render) (ht : attachedTarget? a index = some t)
      (hobjects : ((targetObjects t).run s).result = .ok (.ok (renderPass, framebuffer), s')) :
      Compiles shaders a passes before index pass s { bareStep a index pass with
        renderPass := some renderPass
        framebuffer := some framebuffer
        extent := some t.extent } s'
  /-- A draw that has nothing to draw into. -/
  | idle {s : ObjectCache × δ} {phase : String} (hkind : pass.kind = .draw phase)
      (hdrawn : drawnInto a before (PassGraph.renderPassBefore passes index) = none) :
      Compiles shaders a passes before index pass s { bareStep a index pass with
        owner := PassGraph.renderPassBefore passes index } s
  | drawn {s s' : ObjectCache × δ} {phase : String} {renderPass : Handle .renderPass}
      {t : RenderTarget Attachment} {objects : Option PipelineObjects}
      (hkind : pass.kind = .draw phase)
      (hdrawn : drawnInto a before (PassGraph.renderPassBefore passes index) = some (renderPass, t))
      (hobjects : ((drawObjects shaders phase renderPass t).run s).result = .ok (.ok objects, s')) :
      Compiles shaders a passes before index pass s { bareStep a index pass with
        owner := PassGraph.renderPassBefore passes index
        pipeline := objects } s'

theorem compiles_of_ok {before : List PlanStep} {index : Nat} {pass : Pass}
    {s s' : ObjectCache × δ} {r : PlanStep}
    (h : ((compileStep shaders a passes before index pass).run s).result = .ok (.ok r, s')) :
    Compiles shaders a passes before index pass s r s' := by
  cases hkind : pass.kind with
  | render =>
    rw [compileStep_of_render hkind] at h
    cases ht : attachedTarget? a index with
    | none =>
      rw [ht] at h
      cases h
      exact .bare (by simp [hkind]) fun _ => ht
    | some t =>
      rw [ht] at h
      obtain ⟨⟨renderPass, framebuffer⟩, u, hobjects, h⟩ := PlanM.bind_ok_iff.1 h
      cases h
      exact .attached hkind ht hobjects
  | draw phase =>
    rw [compileStep_of_draw hkind] at h
    cases hdrawn : drawnInto a before (PassGraph.renderPassBefore passes index) with
    | none =>
      rw [hdrawn] at h
      obtain ⟨_, u, hwarn, h⟩ := PlanM.bind_ok_iff.1 h
      obtain ⟨-, rfl⟩ := PlanM.traced_ok_iff.1 hwarn
      cases h
      exact .idle hkind hdrawn
    | some drawn =>
      rw [hdrawn] at h
      obtain ⟨objects, u, hobjects, h⟩ := PlanM.bind_ok_iff.1 h
      cases h
      exact .drawn hkind hdrawn hobjects
  | compute phase =>
    rw [compileStep_of_other (by simp [hkind]) (by simp [hkind])] at h
    cases h
    exact .bare (by simp [hkind]) (by simp [hkind])
  | copy =>
    rw [compileStep_of_other (by simp [hkind]) (by simp [hkind])] at h
    cases h
    exact .bare (by simp [hkind]) (by simp [hkind])

theorem compileStep_takesOver {before : List PlanStep} {index : Nat} {pass : Pass}
    {s s' : ObjectCache × δ} {r : PlanStep}
    (h : ((compileStep shaders a passes before index pass).run s).result = .ok (.ok r, s')) :
    TakesOver a index r := by
  have howner (i : Nat) (hi : PassGraph.renderPassBefore passes index = some i) : i < index :=
    (PassGraph.renderPassBefore_eq_some_iff.1 hi).1.1
  cases compiles_of_ok h with
  | bare => exact ⟨rfl, nofun⟩
  | attached => exact ⟨rfl, nofun⟩
  | idle => exact ⟨rfl, howner⟩
  | drawn => exact ⟨rfl, howner⟩

open PlanM (OnlyGets)
open Relation (ReflTransGen)

/-- The steps of a plan are made one after the other, each of its pass and the steps before it. -/
theorem compileSteps_ok {steps : List PlanStep} {s s' : ObjectCache × δ}
    (h : ((compileSteps shaders a passes).run s).result = .ok (.ok steps, s')) :
    steps.length = passes.length ∧ ∀ (i : Nat) r, steps[i]? = some r → ∃ pass t t',
      passes[i]? = some pass ∧ ReflTransGen Gets s t ∧ ReflTransGen Gets t' s' ∧
      ((compileStep shaders a passes (steps.take i) i pass).run t).result = .ok (.ok r, t') := by
  -- the passes done so far are those of a plan for them alone
  have hdone (l : List Pass) : ∀ (steps : List PlanStep) (s' : ObjectCache × δ),
      ((l.zipIdx.foldlM (fun before (pass, i) => do
        return before ++ [← compileStep shaders a passes before i pass]) []).run s).result =
          .ok (.ok steps, s') →
      steps.length = l.length ∧ ∀ (i : Nat) r, steps[i]? = some r → ∃ pass t t',
        l[i]? = some pass ∧ ReflTransGen Gets s t ∧ ReflTransGen Gets t' s' ∧
        ((compileStep shaders a passes (steps.take i) i pass).run t).result =
          .ok (.ok r, t') := by
    induction l using List.reverseRecOn with
    | nil =>
      intro steps s' h
      cases h
      exact ⟨rfl, fun i r hr => by cases hr⟩
    | append_singleton l pass ih =>
      intro steps s' h
      rw [List.zipIdx_append, List.foldlM_append] at h
      obtain ⟨before, t, hbefore, h⟩ := PlanM.bind_ok_iff.1 h
      obtain ⟨_, _, hafter, h⟩ := PlanM.bind_ok_iff.1 h
      cases h
      obtain ⟨last, t', hlast, h⟩ := PlanM.bind_ok_iff.1 hafter
      cases h
      obtain ⟨hlength, hall⟩ := ih before t hbefore
      rw [Nat.zero_add, ← hlength] at hlast
      refine ⟨by simp [hlength], fun i r hr => ?_⟩
      rcases getElem?_concat_cases hr with hr | ⟨rfl, rfl⟩
      · obtain ⟨hi, -⟩ := List.getElem?_eq_some_iff.1 hr
        obtain ⟨pass', u, u', hpass', hu, hu', hstep⟩ := hall i r hr
        have hgets := compileStep_onlyGets shaders a passes _ _ _ _ _ _ hlast
        refine ⟨pass', u, u', ?_, hu, hu'.trans hgets, ?_⟩
        · rw [List.getElem?_append_left (hlength ▸ hi), hpass']
        · rwa [List.take_append_of_le_length (Nat.le_of_lt hi)]
      · have hgets := OnlyGets.foldlM (fun _ _ =>
          (compileStep_onlyGets shaders a passes _ _ _).bind fun _ => .pure _) _ _ _ _ _ hbefore
        refine ⟨pass, t, _, ?_, hgets, .refl, ?_⟩
        · rw [hlength, List.getElem?_concat_length]
        · rwa [List.take_left]
  exact hdone passes steps s' h

/-- **Each step takes over what the analysis says of its pass.** -/
theorem compileSteps_takesOver {steps : List PlanStep} {s s' : ObjectCache × δ}
    (h : ((compileSteps shaders a passes).run s).result = .ok (.ok steps, s')) :
    steps.length = passes.length ∧
      ∀ (i : Nat) r, steps[i]? = some r → TakesOver a i r := by
  obtain ⟨hlength, hall⟩ := compileSteps_ok h
  refine ⟨hlength, fun i r hr => ?_⟩
  obtain ⟨pass, t, t', -, -, -, hstep⟩ := hall i r hr
  exact compileStep_takesOver hstep

end Plan

variable {graph : PassGraph} {f f' : Forest} {shaders : Registry} {cache cache' : ObjectCache}
  {d d' : Headless} {plan : Plan}

theorem exists_of_compiled {δ : Type} [Device δ] {d d' : δ}
    (h : (compileFrame graph f shaders cache d).result = .ok (.ok plan, f', cache', d')) :
    ∃ a, (analyze graph.passes f shaders).result = .ok (a, f') ∧
      ((Plan.compileSteps shaders a graph.passes).run (cache, d)).result =
        .ok (.ok plan.steps, cache', d') ∧ plan.endOfFrame = a.endOfFrame := by
  obtain ⟨a, steps, ha, hsteps, hplan⟩ := compileFrame_ok_iff.1 h
  cases steps with
  | ok steps =>
    cases hplan
    exact ⟨a, ha, hsteps, rfl⟩
  | error e => cases hplan

/-- **A plan has a barrier for each move of a timeline and for each image that is shown.** -/
theorem barrierCount_of_compiled (hf : f.Seated)
    (h : (compileFrame graph f shaders cache d).result = .ok (.ok plan, f', cache', d')) :
    ∃ a, (analyze graph.passes f shaders).result = .ok (a, f') ∧
      plan.barrierCount =
        (a.timelines.flatMap (·.moves)).length + (a.timelines.filter (·.isShown)).length := by
  obtain ⟨a, ha, hsteps, hend⟩ := exists_of_compiled h
  refine ⟨a, ha, ?_⟩
  obtain ⟨hlength, htakes⟩ := Plan.compileSteps_takesOver hsteps
  obtain ⟨hbarriers, hatEnd⟩ := barriers_eq ha
  have htracked : ∀ t ∈ a.timelines, t.node.IsTracked ∧ t.node.isBacked = true := by
    intro t ht
    obtain ⟨uses, huses, rfl, -⟩ := analyze_ok_iff.1 ha
    obtain ⟨htouched, hn, -⟩ := Timeline.mem_ofFrame_iff.1 ht
    exact ⟨isTracked_of_touched hf huses hn htouched, (node_of_mem_timelines ha ht).2⟩
  have hmap : plan.steps.map (fun s => s.barriers.size) =
      (List.range graph.passes.length).map fun p =>
        ((a.timelines.flatMap (·.moves)).filter (·.pass == p)).length := by
    refine List.ext_getElem (by simp [hlength]) fun i hi hi' => ?_
    have hp : i < graph.passes.length := by simpa using hi'
    have hstep := (htakes i _ (List.getElem?_eq_getElem (by simpa using hi))).barriers
    rw [hbarriers, List.getElem?_map, List.getElem?_range hp] at hstep
    simp only [List.getElem_map, List.getElem_range, hstep]
    exact size_before htracked i
  have hpasses : ∀ m ∈ a.timelines.flatMap (·.moves), m.pass < graph.passes.length := by
    intro m hm
    obtain ⟨t, ht, hm⟩ := List.mem_flatMap.1 hm
    obtain ⟨e, he, hpass, -⟩ := Timeline.exists_entry_of_mem_moves hm
    rw [hpass]
    exact pass_lt_of_mem_timelines ha ht he
  calc plan.barrierCount
      = (plan.steps.map fun s => s.barriers.size).foldl (· + ·) plan.endOfFrame.size := by
        rw [Plan.barrierCount, List.foldl_map]
    _ = plan.endOfFrame.size + (a.timelines.flatMap (·.moves)).length := by
        rw [hmap, List.foldl_map, foldl_passes hpasses]
    _ = _ := by
        rw [hend, hatEnd, size_atEnd fun t ht => (htracked t ht).2, Nat.add_comm]

theorem dumpStep_ok {s : PlanStep} (h : ∀ i, s.owner = some i → i < plan.steps.length) :
    (plan.dumpStep s).result = .ok () := by
  unfold Plan.dumpStep
  cases howner : s.owner with
  | none => rfl
  | some owner =>
    obtain ⟨name, hname⟩ : ∃ name, plan.ownerName owner = .ok name := by
      unfold Plan.ownerName
      rw [List.getElem?_eq_getElem (h owner howner)]
      exact ⟨_, rfl⟩
    simp only [Traced.result_bind, Traced.result_ofExcept, hname]
    rfl

theorem Traced.forM_ok {α : Type} {k : α → Traced Unit} {l : List α}
    (h : ∀ x ∈ l, (k x).result = .ok ()) : (l.forM k).result = .ok () := by
  induction l with
  | nil => rfl
  | cons x l ih =>
    show (k x >>= fun _ => l.forM k).result = .ok ()
    rw [Traced.result_bind, h x List.mem_cons_self]
    exact ih fun y hy => h y (List.mem_cons_of_mem x hy)

/-- **A plan can be dumped**: every owner is a step of it. -/
theorem dump_of_compiled
    (h : (compileFrame graph f shaders cache d).result = .ok (.ok plan, f', cache', d')) :
    plan.dump.result = .ok () := by
  obtain ⟨a, -, hsteps, -⟩ := exists_of_compiled h
  obtain ⟨-, htakes⟩ := Plan.compileSteps_takesOver hsteps
  have hall : (plan.steps.forM plan.dumpStep).result = .ok () := by
    refine Traced.forM_ok fun s hs => dumpStep_ok fun owner howner => ?_
    obtain ⟨i, hi⟩ := List.mem_iff_getElem?.1 hs
    exact Nat.lt_trans ((htakes i s hi).owner owner howner) (List.getElem?_eq_some_iff.1 hi).1
  unfold Plan.dump
  simp only [Traced.result_bind, hall]
  rfl

end FrameGraph
