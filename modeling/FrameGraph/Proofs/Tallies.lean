import FrameGraph.Proofs.Compiling
import FrameGraph.Proofs.Sharing

/-!
# What a plan asks the cache for

While no shader is compiled, a plan asks for a render pass and a framebuffer for each render target
with attachments, and always gets them (`compileSteps_asks`). The cache notes what it had not been
asked for before (`ObjectCache.note`), and the headless device has made just what the cache holds
(`Tallied`).
-/

set_option autoImplicit false

namespace FrameGraph

/-! ## Tallies -/

namespace ObjectCache

/-- The descriptions of the objects made, in order of creation. -/
def keys (c : ObjectCache) : List ObjectDesc := c.entries.map Prod.fst

/-- Adds a description to those that are known, unless it is one of them. -/
def note (known : List ObjectDesc) (desc : ObjectDesc) : List ObjectDesc :=
  if desc ∈ known then known else known ++ [desc]

theorem count_eq (c : ObjectCache) (k : ObjectKind) : c.count k = c.keys.countP (·.kind == k) := by
  rw [count, keys, List.countP_map]
  rfl

/-- What a cache is after it was asked for objects of these descriptions, and had them all. -/
structure Asked (c c' : ObjectCache) (descs : List ObjectDesc) : Prop where
  keys : c'.keys = descs.foldl note c.keys
  calls : c'.hits + c'.misses = c.hits + c.misses + descs.length
  kept : c.Extends c'

variable {c c' c'' : ObjectCache} {descs more : List ObjectDesc} {desc : ObjectDesc}
  {h : Handle desc.kind}

theorem Asked.nil (c : ObjectCache) : c.Asked c [] := ⟨rfl, rfl, .refl c⟩

theorem Asked.append (h : c.Asked c' descs) (h' : c'.Asked c'' more) :
    c.Asked c'' (descs ++ more) where
  keys := by rw [h'.keys, h.keys, List.foldl_append]
  calls := by rw [h'.calls, h.calls, List.length_append, Nat.add_assoc]
  kept := h.kept.trans h'.kept

theorem Asked.found (hfind : c.find? desc = some h) : c.Asked (c.found 1) [desc] where
  keys := by
    have hmem : desc ∈ c.keys := isSome_find?_iff.1 (by rw [hfind]; rfl)
    simp only [List.foldl_cons, List.foldl_nil, note, if_pos hmem]
    rfl
  calls := by
    simp only [ObjectCache.found, List.length_singleton]
    omega
  kept := .refl c

theorem Asked.add (hfind : c.find? desc = none) : c.Asked (c.add desc h) [desc] where
  keys := by
    have hnot : desc ∉ c.keys := find?_eq_none_iff.1 hfind
    simp only [List.foldl_cons, List.foldl_nil, note, if_neg hnot]
    simp [ObjectCache.add, ObjectCache.keys]
  calls := by
    simp only [ObjectCache.add, List.length_singleton]
    omega
  kept := extends_add c h

end ObjectCache

/-- Whether the device has made the objects that the cache holds, and no others of their kinds. -/
structure Tallied (c : ObjectCache) (d : Headless) : Prop where
  misses : c.misses = c.keys.length
  made : ∀ k, d.created.cached k = c.count k
  handles : ∀ e ∈ c.entries, e.2 ≠ 0

section
variable {c c' : ObjectCache} {d d' : Headless} {desc : ObjectDesc} {h : Handle desc.kind}

theorem Tallied.handle_ne_zero (ht : Tallied c d) (hfind : c.find? desc = some h) : h.id ≠ 0 :=
  ht.handles _ (ObjectCache.mem_of_find? hfind)

theorem Tallied.add (ht : Tallied c d) (hx : h.id ≠ 0)
    (hcreated : ∀ k, d'.created.cached k = d.created.cached k + if desc.kind = k then 1 else 0) :
    Tallied (c.add desc h) d' where
  misses := by
    simp only [ObjectCache.add, ObjectCache.keys, List.map_append, List.length_append, ht.misses]
    rfl
  made k := by rw [hcreated, ht.made, ObjectCache.count_add]
  handles e he := by
    rcases List.mem_append.1 he with he | he
    · exact ht.handles e he
    · obtain rfl := List.mem_singleton.1 he
      exact hx

end

/-! ## Asking for objects -/

namespace Plan

open ObjectCache (Asked)

variable {c : ObjectCache} {d : Headless} {desc : ObjectDesc}

/-- **An object is had**, whether it has to be made or not, unless the device refuses it. -/
theorem object_asks (ht : Tallied c d) (hdesc : ¬ desc.Refused) : ∃ x c' d',
    ((PlanM.object desc).run (c, d)).result = .ok (.ok x, c', d') ∧ Tallied c' d' ∧
      c.Asked c' [desc] ∧ c'.find? desc = some x := by
  have hrun : ((PlanM.object desc).run (c, d)).result = .ok (c.getOrCreate desc d) := rfl
  rw [hrun]
  rcases c.getOrCreate_cases desc d with
    ⟨x, hfind, hget⟩ | ⟨-, hrefused, -⟩ | ⟨hfind, -, d', hget, -, hcreated⟩
  · exact ⟨x, _, _, congrArg _ hget, ⟨ht.misses, ht.made, ht.handles⟩, .found hfind, hfind⟩
  · exact absurd hrefused hdesc
  · exact ⟨_, _, _, congrArg _ hget, ht.add (Nat.succ_ne_zero _) hcreated, .add hfind,
      ObjectCache.find?_add_self hfind⟩

/-- The descriptions of the objects of a render target, the framebuffer's with the render pass that
the cache holds. -/
def called (c : ObjectCache) (t : RenderTarget Attachment) : List ObjectDesc := [
  .renderPass t.renderPassDesc,
  .framebuffer (t.framebufferDesc ((c.find? (.renderPass t.renderPassDesc)).getD .null))]

/-- Whether the cache holds the render passes of all these render targets. -/
def HoldsPasses (c : ObjectCache) (ts : List (RenderTarget Attachment)) : Prop :=
  ∀ t ∈ ts, (c.find? (.renderPass t.renderPassDesc)).isSome = true

theorem called_of_extends {c c' : ObjectCache} {t : RenderTarget Attachment} (hc : c.Extends c')
    (h : (c.find? (.renderPass t.renderPassDesc)).isSome = true) : called c' t = called c t := by
  obtain ⟨x, hx⟩ := Option.isSome_iff_exists.1 h
  rw [called, called, hx, hc _ x hx]

theorem targetObjects_asks (ht : Tallied c d) (t : RenderTarget Attachment) : ∃ r c' d',
    ((targetObjects t).run (c, d)).result = .ok (.ok r, c', d') ∧ Tallied c' d' ∧
      c.Asked c' (called c' t) ∧ HoldsPasses c' [t] := by
  have haccepted : ¬ (ObjectDesc.renderPass t.renderPassDesc).Refused := fun h => h
  obtain ⟨x, c₁, d₁, hx, ht₁, hasked, hfind⟩ := object_asks ht haccepted
  have hnull : ¬ (ObjectDesc.framebuffer (t.framebufferDesc x)).Refused := fun h =>
    ht₁.handle_ne_zero hfind (beq_iff_eq.1 h)
  obtain ⟨y, c₂, d₂, hy, ht₂, hasked', -⟩ := object_asks ht₁ hnull
  have hfind' := hasked'.kept _ _ hfind
  refine ⟨(x, y), c₂, d₂, ?_, ht₂, ?_, ?_⟩
  · exact PlanM.bind_ok_iff.2 ⟨x, _, hx, PlanM.bind_ok_iff.2 ⟨y, _, hy, rfl⟩⟩
  · rw [called, hfind']
    exact hasked.append hasked'
  · intro u hu
    obtain rfl := List.mem_singleton.1 hu
    rw [hfind']
    rfl

variable {shaders : Registry} {a : Analysis} {passes : List Pass}

/-- A draw whose shader is not compiled asks for nothing. -/
theorem drawStep_of_uncompiled {phase : String} {shader : Shader}
    (hshader : shaders.shader phase = .ok shader) (hcompiled : shader.isCompiled = false)
    (step : PlanStep) (owner : Option Nat)
    (drawn : Option (Handle .renderPass × RenderTarget Attachment)) (s : ObjectCache × Headless) :
    ∃ r, ((drawStep shaders phase step owner drawn).run s).result = .ok (.ok r, s) := by
  cases drawn with
  | none => exact ⟨_, rfl⟩
  | some drawn =>
    have hobjects : ((drawObjects shaders phase drawn.1 drawn.2).run s).result =
        .ok (.ok none, s) := by
      refine PlanM.bind_ok_iff.2 ⟨shader, s, PlanM.traced_ok_iff.2 ⟨hshader, rfl⟩, ?_⟩
      rw [hcompiled]
      rfl
    exact ⟨_, PlanM.bind_ok_iff.2 ⟨none, s, hobjects, rfl⟩⟩

/-- The render targets with attachments, in the order of their passes. -/
def attachedTargets (a : Analysis) (l : List (Pass × Nat)) : List (RenderTarget Attachment) :=
  l.filterMap fun (pass, i) => if pass.kind = .render then attachedTarget? a i else none

/-- Whether none of the draws has a compiled shader. -/
def Uncompiled (shaders : Registry) (passes : List Pass) : Prop :=
  ∀ pass ∈ passes, ∀ phase, pass.kind = .draw phase →
    ∃ shader, shaders.shader phase = .ok shader ∧ shader.isCompiled = false

theorem compileStep_asks (ht : Tallied c d) {pass : Pass} (hpass : Uncompiled shaders [pass])
    (before : List PlanStep) (i : Nat) : ∃ r c' d',
      ((compileStep shaders a passes before i pass).run (c, d)).result = .ok (.ok r, c', d') ∧
        Tallied c' d' ∧ c.Asked c' ((attachedTargets a [(pass, i)]).flatMap (called c')) ∧
        HoldsPasses c' (attachedTargets a [(pass, i)]) := by
  have hnone : attachedTargets a [(pass, i)] = [] →
      c.Asked c ((attachedTargets a [(pass, i)]).flatMap (called c)) ∧
        HoldsPasses c (attachedTargets a [(pass, i)]) := by
    intro hnil
    rw [hnil]
    exact ⟨.nil c, fun t h => by cases h⟩
  cases hkind : pass.kind with
  | render =>
    rw [compileStep_of_render hkind]
    cases htarget : attachedTarget? a i with
    | none => exact ⟨_, c, d, rfl, ht, hnone (by simp [attachedTargets, hkind, htarget])⟩
    | some t =>
      have htargets : attachedTargets a [(pass, i)] = [t] := by
        simp [attachedTargets, hkind, htarget]
      obtain ⟨r, c', d', hrun, ht', hasked, hholds⟩ := targetObjects_asks ht t
      refine ⟨_, c', d', PlanM.bind_ok_iff.2 ⟨r, _, hrun, rfl⟩, ht', ?_, htargets ▸ hholds⟩
      rw [htargets, List.flatMap_singleton]
      exact hasked
  | draw phase =>
    obtain ⟨shader, hshader, hcompiled⟩ := hpass pass List.mem_cons_self phase hkind
    rw [compileStep_of_draw hkind]
    obtain ⟨r, hr⟩ := drawStep_of_uncompiled hshader hcompiled (bareStep a i pass)
      (PassGraph.renderPassBefore passes i)
      (drawnInto a before (PassGraph.renderPassBefore passes i)) (c, d)
    exact ⟨r, c, d, hr, ht, hnone (by simp [attachedTargets, hkind])⟩
  | compute phase =>
    rw [compileStep_of_other (by simp [hkind]) (by simp [hkind])]
    exact ⟨_, c, d, rfl, ht, hnone (by simp [attachedTargets, hkind])⟩
  | copy =>
    rw [compileStep_of_other (by simp [hkind]) (by simp [hkind])]
    exact ⟨_, c, d, rfl, ht, hnone (by simp [attachedTargets, hkind])⟩

/-- **A plan without compiled shaders asks for the objects of its render targets**, and gets
them. -/
theorem compileSteps_asks (ht : Tallied c d) (hpasses : Uncompiled shaders passes) :
    ∃ steps c' d', ((compileSteps shaders a passes).run (c, d)).result = .ok (.ok steps, c', d') ∧
      Tallied c' d' ∧ c.Asked c' ((attachedTargets a passes.zipIdx).flatMap (called c')) ∧
      HoldsPasses c' (attachedTargets a passes.zipIdx) := by
  have hfrom (l : List (Pass × Nat)) : ∀ (before : List PlanStep) (c : ObjectCache) (d : Headless),
      Tallied c d → (∀ x ∈ l, Uncompiled shaders [x.1]) → ∃ steps c' d',
      ((l.foldlM (fun before (pass, i) => do
        return before ++ [← compileStep shaders a passes before i pass]) before).run (c, d)).result =
          .ok (.ok steps, c', d') ∧
      Tallied c' d' ∧ c.Asked c' ((attachedTargets a l).flatMap (called c')) ∧
      HoldsPasses c' (attachedTargets a l) := by
    induction l with
    | nil => exact fun before c d ht _ => ⟨before, c, d, rfl, ht, .nil c, fun t h => by cases h⟩
    | cons x l ih =>
      intro before c d ht hl
      obtain ⟨hx, hl⟩ := List.forall_mem_cons.1 hl
      obtain ⟨r, c₁, d₁, hr, ht₁, hasked₁, hholds₁⟩ := compileStep_asks ht hx before x.2
      obtain ⟨steps, c₂, d₂, hsteps, ht₂, hasked₂, hholds₂⟩ := ih (before ++ [r]) c₁ d₁ ht₁ hl
      have htargets : attachedTargets a (x :: l) =
          attachedTargets a [x] ++ attachedTargets a l := by
        rw [attachedTargets, attachedTargets, attachedTargets, ← List.filterMap_append]
        rfl
      -- what was asked for first is described in the same way to the end
      have hfirst : (attachedTargets a [x]).flatMap (called c₂) =
          (attachedTargets a [x]).flatMap (called c₁) :=
        List.flatMap_congr fun t h => called_of_extends hasked₂.kept (hholds₁ t h)
      refine ⟨steps, c₂, d₂, ?_, ht₂, ?_, ?_⟩
      · rw [List.foldlM_cons]
        exact PlanM.bind_ok_iff.2
          ⟨_, _, PlanM.bind_ok_iff.2 ⟨r, _, hr, rfl⟩, hsteps⟩
      · rw [htargets, List.flatMap_append, hfirst]
        exact hasked₁.append hasked₂
      · rw [htargets]
        intro t h
        rcases List.mem_append.1 h with h | h
        · obtain ⟨y, hy⟩ := Option.isSome_iff_exists.1 (hholds₁ t h)
          rw [hasked₂.kept _ y hy]
          rfl
        · exact hholds₂ t h
  refine hfrom passes.zipIdx [] c d ht fun x hx pass hpass => ?_
  obtain rfl := List.mem_singleton.1 hpass
  exact hpasses x.1 (List.fst_mem_of_mem_zipIdx hx)

end Plan

end FrameGraph
