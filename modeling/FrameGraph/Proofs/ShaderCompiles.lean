import FrameGraph.Proofs.Outcomes
import FrameGraph.Proofs.ShaderPaths

/-!
# Compiles of the shader registry

A compile tries the stages that have no module yet, in the order of its visits, up to the first that
fails. `Registry.Tries` are these calls of the compiler and the device with what comes of them, and
`compile_ok_iff` says that a compile makes no others. Each stage that is made gets its module, which
is all that changes (`shader?_addModules`); what is still missing afterwards is what was missing
before without the stages made (`pendingOf_addModules`). `Tries.compiled` puts this together.
-/

set_option autoImplicit false

namespace FrameGraph

/-- The shader with more modules. -/
def Shader.withModules (s : Shader) (ms : List (ShaderStage × Handle .shaderModule)) : Shader :=
  { s with modules := s.modules ++ ms }

/-- Whether every source has its module. -/
def Shader.IsComplete (s : Shader) : Prop := ∀ e ∈ s.sources, (s.module? e.1).isSome = true

/-- Whether a stage has one source and at most one module, and a module only where it has a
source. -/
structure Shader.OnePerStage (s : Shader) : Prop where
  sources : (s.sources.map (·.1)).Nodup
  modules : (s.modules.map (·.1)).Nodup
  made : ∀ e ∈ s.modules, e.1 ∈ s.sources.map (·.1)

namespace Shader

variable {s : Shader} {stage : ShaderStage}

theorem withModules_nil (s : Shader) : s.withModules [] = s := by simp [withModules]

theorem withModules_withModules (s : Shader) (ms ns : List (ShaderStage × Handle .shaderModule)) :
    (s.withModules ms).withModules ns = s.withModules (ms ++ ns) := by
  simp [withModules, List.append_assoc]

theorem module?_withModules (s : Shader) (ms : List (ShaderStage × Handle .shaderModule))
    (stage : ShaderStage) :
    (s.withModules ms).module? stage = (s.module? stage).or (ms.lookup stage) :=
  List.lookup_append

theorem module?_eq_none_iff : s.module? stage = none ↔ stage ∉ s.modules.map (·.1) := by
  rw [module?, List.lookup_eq_none_iff]
  simp only [List.mem_map, not_exists, not_and]
  exact forall₂_congr fun e _ => bne_iff_ne.trans ne_comm

end Shader

namespace Registry

variable {r r' : Registry} {s : Shader} {name path : String} {stage : ShaderStage} {i : Nat}

/-! ## Stages without a module -/

/-- The stage meant, by the path of its shader. -/
def Pending.key (p : Pending) : String × ShaderStage := (p.path, p.stage)

/-- The stages of the shader at a path that have no module yet. -/
def pendingOf (r : Registry) (path : String) : List Pending :=
  match r.indexOf? path with
  | some i => r.pendingAt i
  | none => []

/-- All stages of a registry that have no module yet. -/
def pending (r : Registry) : List Pending := r.keys.flatMap r.pendingOf

/-- The stages without a module that a compile at a path comes to, in order. -/
def missing (r : Registry) (name : String) : List Pending := (r.visited name).flatMap r.pendingOf

/-- The module of a stage. -/
def moduleOf? (r : Registry) (path : String) (stage : ShaderStage) :
    Option (Handle .shaderModule) :=
  (r.shader? path).bind (·.module? stage)

theorem shader?_eq (r : Registry) (path : String) :
    r.shader? path = ((r.indexOf? path).bind fun i => r.nodes[i]?).bind (·.shader) := by
  rw [shader?, node?_eq]

theorem pendingOf_of_none (h : r.shader? path = none) : r.pendingOf path = [] := by
  unfold pendingOf
  cases hi : r.indexOf? path with
  | none => rfl
  | some i =>
    rw [shader?_eq, hi, Option.bind_some] at h
    cases hn : r.nodes[i]? with
    | none => simp only [pendingAt, hn]
    | some n =>
      rw [hn, Option.bind_some] at h
      obtain ⟨path, parent, shader⟩ := n
      obtain rfl : shader = none := h
      simp only [pendingAt, hn]

theorem pendingOf_of_shader (hi : r.indexOf? path = some i) (h : r.shader? path = some s) :
    r.pendingOf path =
      (s.sources.filter fun e => (s.module? e.1).isNone).map fun e => ⟨i, path, e.1, e.2⟩ := by
  obtain ⟨n, hn, hs⟩ := Option.bind_eq_some_iff.1 h
  have hpath : n.path = path := by simpa using List.find?_some hn
  rw [node?_eq, hi, Option.bind_some] at hn
  obtain ⟨path', parent, shader⟩ := n
  obtain rfl : path' = path := hpath
  obtain rfl : shader = some s := hs
  simp only [pendingOf, hi, pendingAt, hn]

theorem exists_index_of_shader (h : r.shader? path = some s) : ∃ i, r.indexOf? path = some i := by
  cases hi : r.indexOf? path with
  | some i => exact ⟨i, rfl⟩
  | none => exact absurd (mem_keys_of_shader? h) (indexOf?_eq_none_iff.1 hi)

/-- What is pending: a stage that has a source and no module. -/
theorem mem_pendingOf_iff {p : Pending} :
    p ∈ r.pendingOf path ↔ p.path = path ∧ r.indexOf? path = some p.index ∧
      ∃ s, r.shader? path = some s ∧ (p.stage, p.source) ∈ s.sources ∧
        s.module? p.stage = none := by
  cases h : r.shader? path with
  | none => simp [pendingOf_of_none h]
  | some s =>
    obtain ⟨i, hi⟩ := exists_index_of_shader h
    rw [pendingOf_of_shader hi h, hi]
    obtain ⟨index, path', stage, source⟩ := p
    constructor
    · intro hp
      obtain ⟨⟨stage, source⟩, he, heq⟩ := List.mem_map.1 hp
      obtain ⟨rfl, rfl, rfl, rfl⟩ := Pending.mk.inj heq
      obtain ⟨hsource, hnone⟩ := List.mem_filter.1 he
      exact ⟨rfl, rfl, s, rfl, hsource, Option.isNone_iff_eq_none.1 hnone⟩
    · rintro ⟨rfl, hindex, s', hs', hsource, hnone⟩
      obtain rfl := Option.some.inj hs'
      obtain rfl := Option.some.inj hindex
      exact List.mem_map.2 ⟨(stage, source),
        List.mem_filter.2 ⟨hsource, Option.isNone_iff_eq_none.2 hnone⟩, rfl⟩

theorem path_of_mem_pendingOf {p : Pending} (hp : p ∈ r.pendingOf path) : p.path = path :=
  (mem_pendingOf_iff.1 hp).1

theorem mem_pending_iff {p : Pending} : p ∈ r.pending ↔ p ∈ r.pendingOf p.path := by
  rw [pending, List.mem_flatMap]
  constructor
  · rintro ⟨path, -, hp⟩
    rwa [path_of_mem_pendingOf hp]
  · intro hp
    obtain ⟨-, -, s, hs, -⟩ := mem_pendingOf_iff.1 hp
    exact ⟨p.path, mem_keys_of_shader? hs, hp⟩

theorem mem_missing_iff {p : Pending} :
    p ∈ r.missing name ↔ p ∈ r.pending ∧ p.path ∈ r.visited name := by
  rw [missing, List.mem_flatMap, mem_pending_iff]
  constructor
  · rintro ⟨path, hpath, hp⟩
    obtain rfl := path_of_mem_pendingOf hp
    exact ⟨hp, hpath⟩
  · rintro ⟨hp, hpath⟩
    exact ⟨p.path, hpath, hp⟩

/-- Whether the paths of a registry are in order, and its shaders have one module a stage at
most. -/
structure Sound (r : Registry) : Prop extends WellFormed r where
  shaders : ∀ path s, r.shader? path = some s → s.OnePerStage

namespace Sound

variable (hr : r.Sound)
include hr

theorem nodup_pendingOf (path : String) : ((r.pendingOf path).map Pending.key).Nodup := by
  cases h : r.shader? path with
  | none => simp [pendingOf_of_none h]
  | some s =>
    obtain ⟨i, hi⟩ := exists_index_of_shader h
    have hstages : ((s.sources.filter fun e => (s.module? e.1).isNone).map (·.1)).Nodup :=
      (hr.shaders path s h).sources.sublist (List.filter_sublist.map _)
    rw [pendingOf_of_shader hi h, List.map_map]
    exact List.Nodup.of_map Prod.snd (by rwa [List.map_map])

/-- Different paths have different pending stages. -/
theorem nodup_flatMap_pendingOf {ps : List String} (hps : ps.Nodup) :
    ((ps.flatMap r.pendingOf).map Pending.key).Nodup := by
  rw [List.map_flatMap, List.nodup_flatMap]
  refine ⟨fun path _ => hr.nodup_pendingOf path, hps.imp fun {a b} hne k ha hb => hne ?_⟩
  obtain ⟨p, hp, rfl⟩ := List.mem_map.1 ha
  obtain ⟨q, hq, heq⟩ := List.mem_map.1 hb
  rw [← path_of_mem_pendingOf hp, ← path_of_mem_pendingOf hq]
  exact (congrArg Prod.fst heq).symm

theorem nodup_missing (name : String) : ((r.missing name).map Pending.key).Nodup :=
  hr.nodup_flatMap_pendingOf (hr.nodup_visited name)

theorem nodup_pending : (r.pending.map Pending.key).Nodup :=
  hr.nodup_flatMap_pendingOf hr.nodup

theorem mem_missing_iff_within (hname : name ∈ r.keys) {p : Pending} :
    p ∈ r.missing name ↔ p ∈ r.pending ∧ Within name p.path := by
  rw [mem_missing_iff, hr.mem_visited_iff hname]
  refine ⟨fun ⟨hp, _, hwithin⟩ => ⟨hp, hwithin⟩, fun ⟨hp, hwithin⟩ => ⟨hp, ?_, hwithin⟩⟩
  obtain ⟨-, -, s, hs, -⟩ := mem_pendingOf_iff.1 (mem_pending_iff.1 hp)
  exact mem_keys_of_shader? hs

/-- **A compile comes to all that is missing at its path and below**, in some order. -/
theorem missing_perm (hname : name ∈ r.keys) :
    (r.missing name).Perm (r.pending.filter fun p => Within name p.path) := by
  refine (List.perm_ext_iff_of_nodup ?_ ?_).2 fun p => ?_
  · exact (hr.nodup_missing name).of_map
  · exact hr.nodup_pending.of_map.filter _
  · rw [hr.mem_missing_iff_within hname, List.mem_filter, decide_eq_true_eq]

end Sound

/-! ## Attempts -/

/-- A stage that was given to the compiler, and the module if one was made. -/
structure Attempt where
  pending : Pending
  module? : Option (Handle .shaderModule)

namespace Attempt

/-- The attempt to make a stage's module that made `h`. -/
def made (p : Pending) (h : Handle .shaderModule) : Attempt := ⟨p, some h⟩

def failed (p : Pending) : Attempt := ⟨p, none⟩

/-- The stage and the module made for it, at that path. -/
def filed? (path : String) (a : Attempt) : Option (ShaderStage × Handle .shaderModule) :=
  if a.pending.path = path then a.module?.map fun h => (a.pending.stage, h) else none

/-- The stage, if its module was made. -/
def madeKey? (a : Attempt) : Option (String × ShaderStage) := a.module?.map fun _ => a.pending.key

end Attempt

/-- The registry with the modules that were made. -/
def addModules (r : Registry) (tried : List Attempt) : Registry :=
  tried.foldl (fun r a =>
    match a.module? with
    | some h => r.addModule a.pending.index a.pending.stage h
    | none => r) r

section
variable {κ δ : Type} [ShaderCompiler κ] [Device δ]

/-- The calls of the compiler and the device for stages in order, up to the first that fails, and
why it does. -/
inductive Tries : κ → δ → List Pending → List Attempt → Option ShaderError → κ → δ → Prop
  | done {c : κ} {d : δ} : Tries c d [] [] none c d
  | notCompiled {c c' : κ} {d : δ} {p : Pending} {rest : List Pending} {e : CompilerError}
      (hcompile : (ShaderCompiler.compile p.stage p.source.path p.source.text c).result =
        .ok (.error e, c')) :
      Tries c d (p :: rest) [.failed p] (some (.notCompiled p.module e)) c' d
  | refused {c c' : κ} {d d' : δ} {p : Pending} {rest : List Pending} {words : List Nat}
      {e : DeviceError}
      (hcompile : (ShaderCompiler.compile p.stage p.source.path p.source.text c).result =
        .ok (.ok words, c'))
      (hmodule : (Device.createShaderModule words p.module d).result = .ok (.error e, d')) :
      Tries c d (p :: rest) [.failed p] (some (.moduleRefused p.module e)) c' d'
  | made {c c' c'' : κ} {d d' d'' : δ} {p : Pending} {rest : List Pending} {words : List Nat}
      {h : Handle .shaderModule} {tried : List Attempt} {fail : Option ShaderError}
      (hcompile : (ShaderCompiler.compile p.stage p.source.path p.source.text c).result =
        .ok (.ok words, c'))
      (hmodule : (Device.createShaderModule words p.module d).result = .ok (.ok h, d'))
      (hrest : Tries c' d' rest tried fail c'' d'') :
      Tries c d (p :: rest) (.made p h :: tried) fail c'' d''

/-- What a compile tells: how many modules it made, or why it stopped. -/
def outcome (count : Nat) (tried : List Attempt) : Option ShaderError → Except ShaderError Nat
  | none => .ok (count + tried.length)
  | some e => .error e

/-- **A run over stages makes these calls and no others**, and adds the modules that it gets. -/
theorem compileAll_ok_iff {count : Nat} {ps : List Pending} {c c' : κ} {d d' : δ}
    {res : Except ShaderError Nat} :
    (r.compileAll c d count ps).result = .ok (res, r', c', d') ↔
      ∃ tried fail, Tries c d ps tried fail c' d' ∧ r' = r.addModules tried ∧
        res = outcome count tried fail := by
  induction ps generalizing r c d count with
  | nil =>
    constructor
    · intro h
      cases h
      exact ⟨[], none, .done, rfl, rfl⟩
    · rintro ⟨tried, fail, htries, rfl, rfl⟩
      cases htries
      rfl
  | cons p ps ih =>
    unfold compileAll
    simp only [Traced.result_bind, Except.bind_eq_ok_iff]
    constructor
    · rintro ⟨⟨compiled, c₁⟩, hcompile, h⟩
      cases compiled with
      | error e =>
        cases h
        exact ⟨_, _, .notCompiled hcompile, rfl, rfl⟩
      | ok words =>
        rw [Traced.result_bind, Except.bind_eq_ok_iff] at h
        obtain ⟨⟨made, d₁⟩, hmodule, h⟩ := h
        cases made with
        | error e =>
          cases h
          exact ⟨_, _, .refused hcompile hmodule, rfl, rfl⟩
        | ok m =>
          obtain ⟨tried, fail, htries, hr', hres⟩ := ih.1 h
          refine ⟨_, _, .made hcompile hmodule htries, hr', ?_⟩
          rw [hres]
          cases fail with
          | none => simp only [outcome, List.length_cons]; congr 1; omega
          | some e => rfl
    · rintro ⟨tried, fail, htries, rfl, rfl⟩
      cases htries with
      | notCompiled hcompile => exact ⟨_, hcompile, rfl⟩
      | refused hcompile hmodule =>
        refine ⟨_, hcompile, ?_⟩
        rw [Traced.result_bind, Except.bind_eq_ok_iff]
        exact ⟨_, hmodule, rfl⟩
      | @made _ c₁ _ _ d₁ _ _ _ words m tried _ hcompile hmodule hrest =>
        refine ⟨_, hcompile, ?_⟩
        rw [Traced.result_bind, Except.bind_eq_ok_iff]
        refine ⟨_, hmodule, ih.2 ⟨tried, fail, hrest, rfl, ?_⟩⟩
        cases fail with
        | none => simp only [outcome, List.length_cons]; congr 1; omega
        | some e => rfl

/-- A compile is a run over what is missing at its path and below. -/
theorem compile_eq (hr : r.WellFormed) (hname : name ∈ r.keys) (c : κ) (d : δ) :
    r.compile name c d = r.compileAll c d 0 (r.missing name) := by
  obtain ⟨i, hi⟩ := List.mem_iff_getElem?.1 hname
  have hindex := hr.indexOf?_eq_some_iff.2 hi
  have hmissing : r.missing name = (r.hierarchy.subtree i).flatMap r.pendingAt := by
    simp only [missing, visited, hindex]
    have hall : ∀ j ∈ r.hierarchy.subtree i, ∃ path, r.keys[j]? = some path ∧
        r.pendingOf path = r.pendingAt j := by
      intro j hj
      have hlt : j < r.keys.length := by
        rcases (Hierarchy.mem_subtree_iff hr.ordered).1 hj |>.cases_tail with rfl | ⟨k, -, hstep⟩
        · exact (List.getElem?_eq_some_iff.1 hi).1
        · have hlt := Hierarchy.lt_length_of_mem_children hstep
          rwa [length_hierarchy, ← length_keys] at hlt
      have hj := List.getElem?_eq_getElem hlt
      exact ⟨_, hj, by simp only [pendingOf, hr.indexOf?_eq_some_iff.2 hj]⟩
    generalize r.hierarchy.subtree i = js at hall
    induction js with
    | nil => rfl
    | cons j js ih =>
      obtain ⟨path, hpath, hat⟩ := hall j List.mem_cons_self
      rw [List.filterMap_cons_some hpath, List.flatMap_cons, List.flatMap_cons, hat,
        ih fun k hk => hall k (List.mem_cons_of_mem j hk)]
  simp only [compile, hindex, hmissing]

theorem compile_ok_iff (hr : r.WellFormed) (hname : name ∈ r.keys) {c c' : κ} {d d' : δ}
    {res : Except ShaderError Nat} :
    (r.compile name c d).result = .ok (res, r', c', d') ↔
      ∃ tried fail, Tries c d (r.missing name) tried fail c' d' ∧ r' = r.addModules tried ∧
        res = outcome 0 tried fail := by
  rw [compile_eq hr hname, compileAll_ok_iff]

/-- A compile of a path that is there comes to an end, where no call of the compiler or the device
stops with a fault. -/
theorem exists_compile (hr : r.WellFormed) (hname : name ∈ r.keys)
    (hcompiler : ∀ stage path text (c : κ), ∃ x,
      (ShaderCompiler.compile stage path text c).result = .ok x)
    (hdevice : ∀ words name (d : δ), ∃ x, (Device.createShaderModule words name d).result = .ok x)
    (c : κ) (d : δ) : ∃ res r' c' d', (r.compile name c d).result = .ok (res, r', c', d') := by
  simp only [compile_ok_iff hr hname]
  suffices h : ∃ tried fail c' d', Tries c d (r.missing name) tried fail c' d' by
    obtain ⟨tried, fail, c', d', h⟩ := h
    exact ⟨_, _, c', d', tried, fail, h, rfl, rfl⟩
  induction r.missing name generalizing c d with
  | nil => exact ⟨_, _, _, _, .done⟩
  | cons p ps ih =>
    obtain ⟨⟨compiled, c₁⟩, hcompile⟩ := hcompiler p.stage p.source.path p.source.text c
    cases compiled with
    | error e => exact ⟨_, _, _, _, .notCompiled hcompile⟩
    | ok words =>
      obtain ⟨⟨made, d₁⟩, hmodule⟩ := hdevice words p.module d
      cases made with
      | error e => exact ⟨_, _, _, _, .refused hcompile hmodule⟩
      | ok m =>
        obtain ⟨tried, fail, c', d', htries⟩ := ih c₁ d₁
        exact ⟨_, _, _, _, .made hcompile hmodule htries⟩

section
variable {c c' : κ} {d d' : δ} {ps : List Pending} {tried : List Attempt}
  {fail : Option ShaderError}

/-- Without a failure all stages are made. -/
theorem Tries.all_made (h : Tries c d ps tried fail c' d') (hfail : fail = none) :
    tried.map (·.pending) = ps ∧ ∀ a ∈ tried, a.module?.isSome = true := by
  induction h with
  | done => exact ⟨rfl, by simp⟩
  | notCompiled => cases hfail
  | refused => cases hfail
  | made _ _ _ ih =>
    obtain ⟨hpending, hmade⟩ := ih hfail
    exact ⟨by rw [List.map_cons, hpending]; rfl, List.forall_mem_cons.2 ⟨rfl, hmade⟩⟩

/-- With a failure all stages before the one that it names are made, and none behind it is tried. -/
theorem Tries.stopped (h : Tries c d ps tried fail c' d') {e : ShaderError}
    (hfail : fail = some e) :
    ∃ made failing rest, ps = made.map (·.pending) ++ failing :: rest ∧
      tried = made ++ [.failed failing] ∧ (∀ a ∈ made, a.module?.isSome = true) ∧
      ((∃ cause, e = .notCompiled failing.module cause) ∨
        ∃ cause, e = .moduleRefused failing.module cause) := by
  induction h with
  | done => cases hfail
  | @notCompiled _ _ _ p rest cause =>
    obtain rfl := Option.some.inj hfail
    exact ⟨[], p, rest, rfl, rfl, by simp, .inl ⟨cause, rfl⟩⟩
  | @refused _ _ _ _ p rest _ cause =>
    obtain rfl := Option.some.inj hfail
    exact ⟨[], p, rest, rfl, rfl, by simp, .inr ⟨cause, rfl⟩⟩
  | @made _ _ _ _ _ _ p _ _ m _ _ _ _ _ ih =>
    obtain ⟨made, failing, rest, hps, htried, hmade, he⟩ := ih hfail
    exact ⟨.made p m :: made, failing, rest, by rw [hps]; rfl, by rw [htried]; rfl,
      List.forall_mem_cons.2 ⟨rfl, hmade⟩, he⟩

theorem Tries.pending_prefix (h : Tries c d ps tried fail c' d') :
    tried.map (·.pending) <+: ps := by
  cases hfail : fail with
  | none => exact (h.all_made hfail).1 ▸ List.prefix_refl _
  | some e =>
    obtain ⟨made, failing, rest, rfl, rfl, -⟩ := h.stopped hfail
    exact ⟨rest, by simp [Attempt.failed]⟩

end

end

/-! ## Modules that are added -/

theorem keys_addModule (r : Registry) (i : Nat) (stage : ShaderStage) (h : Handle .shaderModule) :
    (r.addModule i stage h).keys = r.keys := by
  unfold keys addModule
  refine map_modify (fun n => ?_) r.nodes i
  rfl

theorem hierarchy_addModule (r : Registry) (i : Nat) (stage : ShaderStage)
    (h : Handle .shaderModule) : (r.addModule i stage h).hierarchy = r.hierarchy := by
  unfold hierarchy addModule
  refine map_modify (fun n => ?_) r.nodes i
  rfl

theorem keys_addModules (r : Registry) (tried : List Attempt) :
    (r.addModules tried).keys = r.keys := by
  induction tried generalizing r with
  | nil => rfl
  | cons a tried ih =>
    rw [addModules, List.foldl_cons, ← addModules, ih]
    cases a.module? with
    | none => rfl
    | some h => exact keys_addModule ..

theorem hierarchy_addModules (r : Registry) (tried : List Attempt) :
    (r.addModules tried).hierarchy = r.hierarchy := by
  induction tried generalizing r with
  | nil => rfl
  | cons a tried ih =>
    rw [addModules, List.foldl_cons, ← addModules, ih]
    cases a.module? with
    | none => rfl
    | some h => exact hierarchy_addModule ..

theorem indexOf?_congr (h : r'.keys = r.keys) (path : String) :
    r'.indexOf? path = r.indexOf? path := by
  have hkeys (r : Registry) : r.indexOf? path = r.keys.findIdx? (· == path) := by
    rw [keys, List.findIdx?_map]
    rfl
  rw [hkeys, hkeys, h]

theorem visited_congr (hkeys : r'.keys = r.keys) (hhierarchy : r'.hierarchy = r.hierarchy)
    (name : String) : r'.visited name = r.visited name := by
  unfold visited
  rw [indexOf?_congr hkeys, hkeys, hhierarchy]

theorem WellFormed.congr (hr : r.WellFormed) (hkeys : r'.keys = r.keys)
    (hhierarchy : r'.hierarchy = r.hierarchy) : r'.WellFormed :=
  ⟨hkeys ▸ hr.nodup, hhierarchy ▸ hr.ordered, by rw [hkeys, hhierarchy]; exact hr.above⟩

theorem shader?_addModule (hi : r.indexOf? path = some i) (stage : ShaderStage)
    (h : Handle .shaderModule) (q : String) :
    (r.addModule i stage h).shader? q =
      (r.shader? q).map (·.withModules (if path = q then [(stage, h)] else [])) := by
  rw [shader?_eq, shader?_eq, indexOf?_congr (keys_addModule ..)]
  cases hj : r.indexOf? q with
  | none => rfl
  | some j =>
    rw [Option.bind_some, Option.bind_some, addModule, List.getElem?_modify]
    cases r.nodes[j]? with
    | none => rfl
    | some n =>
      by_cases hpath : path = q
      · subst hpath
        obtain rfl := Option.some.inj (hi.symm.trans hj)
        simp [Shader.withModules]
      · have hij : i ≠ j := by
          rintro rfl
          have hsame := (getElem?_of_indexOf? hi).symm.trans (getElem?_of_indexOf? hj)
          exact hpath (Option.some.inj hsame)
        cases hs : n.shader with
        | none => simp [hij, hs]
        | some s => simp [hij, hpath, hs, Shader.withModules_nil]

/-- Whether each stage tried stands where it says. -/
def Placed (r : Registry) (tried : List Attempt) : Prop :=
  ∀ a ∈ tried, r.indexOf? a.pending.path = some a.pending.index

/-- **Every shader gets the modules that were made for it, behind those that it has**, and nothing
else is changed. -/
theorem shader?_addModules {tried : List Attempt} (hplaced : r.Placed tried)
    (path : String) :
    (r.addModules tried).shader? path =
      (r.shader? path).map (·.withModules (tried.filterMap (·.filed? path))) := by
  induction tried generalizing r with
  | nil =>
    cases hs : r.shader? path with
    | none => simp [addModules, hs]
    | some s => simp [addModules, hs, Shader.withModules_nil]
  | cons a tried ih =>
    obtain ⟨hhead, htail⟩ := List.forall_mem_cons.1 hplaced
    rw [addModules, List.foldl_cons, ← addModules]
    obtain ⟨p, _ | h⟩ := a
    · rw [ih htail]
      simp [Attempt.filed?]
    · have htail' : (r.addModule p.index p.stage h).Placed tried := fun a ha => by
        rw [indexOf?_congr (keys_addModule ..)]
        exact htail a ha
      show ((r.addModule p.index p.stage h).addModules tried).shader? path = _
      rw [ih htail', shader?_addModule hhead, Option.map_map]
      refine congrArg (Option.map · _) (funext fun s => ?_)
      rw [Function.comp_apply, Shader.withModules_withModules]
      by_cases hpath : p.path = path
      · simp [Attempt.filed?, hpath]
      · simp [Attempt.filed?, hpath]

/-- The stages that were made, by the paths of their shaders. -/
def madeKeys (tried : List Attempt) : List (String × ShaderStage) := tried.filterMap (·.madeKey?)

theorem mem_madeKeys_iff {tried : List Attempt} :
    (path, stage) ∈ madeKeys tried ↔
      stage ∈ (tried.filterMap (·.filed? path)).map (·.1) := by
  simp only [madeKeys, List.mem_filterMap, List.mem_map]
  constructor
  · rintro ⟨⟨p, m⟩, ha, hkey⟩
    obtain ⟨h, rfl, hkey⟩ := Option.map_eq_some_iff.1 hkey
    obtain ⟨rfl, rfl⟩ := Prod.mk.inj hkey
    exact ⟨(p.stage, h), ⟨⟨p, some h⟩, ha, by simp [Attempt.filed?]⟩, rfl⟩
  · rintro ⟨⟨stage', h⟩, ⟨⟨p, m⟩, ha, hentry⟩, rfl⟩
    unfold Attempt.filed? at hentry
    split at hentry
    · next hpath =>
      obtain ⟨h', rfl, heq⟩ := Option.map_eq_some_iff.1 hentry
      obtain ⟨rfl, rfl⟩ := Prod.mk.inj heq
      exact ⟨⟨p, some h'⟩, ha, by simp [Attempt.madeKey?, Pending.key, ← hpath]⟩
    · cases hentry

/-- **What is missing afterwards is what was missing, without the stages made.** -/
theorem pendingOf_addModules {tried : List Attempt} (hplaced : r.Placed tried)
    (path : String) :
    (r.addModules tried).pendingOf path =
      (r.pendingOf path).filter fun p => p.key ∉ madeKeys tried := by
  have hshader := shader?_addModules hplaced path
  cases hs : r.shader? path with
  | none =>
    rw [hs] at hshader
    rw [pendingOf_of_none hs, pendingOf_of_none hshader, List.filter_nil]
  | some s =>
    obtain ⟨i, hi⟩ := exists_index_of_shader hs
    rw [hs] at hshader
    rw [pendingOf_of_shader hi hs,
      pendingOf_of_shader ((indexOf?_congr (keys_addModules r tried) path).trans hi) hshader,
      List.filter_map, List.filter_filter]
    refine congrArg _ (List.filter_congr fun e _ => ?_)
    rw [Bool.eq_iff_iff, Bool.and_eq_true, Shader.module?_withModules]
    simp only [Function.comp_apply, decide_eq_true_eq, Pending.key, mem_madeKeys_iff,
      Option.isNone_iff_eq_none, Option.or_eq_none_iff]
    rw [and_comm]
    refine and_congr_left' ?_
    rw [List.lookup_eq_none_iff]
    simp only [List.mem_map, not_exists, not_and]
    exact forall₂_congr fun x _ => bne_iff_ne.trans ne_comm

theorem missing_addModules {tried : List Attempt} (hplaced : r.Placed tried)
    (name : String) :
    (r.addModules tried).missing name =
      (r.missing name).filter fun p => p.key ∉ madeKeys tried := by
  rw [missing, missing, visited_congr (keys_addModules r tried) (hierarchy_addModules r tried),
    List.filter_flatMap]
  exact List.flatMap_congr fun path _ => pendingOf_addModules hplaced path

theorem pending_addModules {tried : List Attempt} (hplaced : r.Placed tried) :
    (r.addModules tried).pending = r.pending.filter fun p => p.key ∉ madeKeys tried := by
  rw [pending, pending, keys_addModules, List.filter_flatMap]
  exact List.flatMap_congr fun path _ => pendingOf_addModules hplaced path

/-! ## Attempts at what is missing -/

/-- Where no key is there twice, an entry is what its key is looked up as. -/
theorem lookup_of_mem {α β : Type} [BEq α] [LawfulBEq α] {l : List (α × β)}
    (hnodup : (l.map (·.1)).Nodup) {a : α} {b : β} (h : (a, b) ∈ l) : l.lookup a = some b := by
  obtain ⟨xs, ys, rfl⟩ := List.append_of_mem h
  refine List.lookup_eq_some_iff.2 ⟨xs, ys, rfl, fun x hx => bne_iff_ne.2 ?_⟩
  rw [List.map_append, List.nodup_append] at hnodup
  exact (hnodup.2.2 x.1 (List.mem_map_of_mem hx) a (by simp)).symm

/-- Whether the stages tried have no module yet, and none is tried twice. -/
structure Fits (r : Registry) (tried : List Attempt) : Prop where
  pending : ∀ a ∈ tried, a.pending ∈ r.pending
  nodup : (tried.map fun a => a.pending.key).Nodup

namespace Fits

variable {tried : List Attempt} {a : Attempt} (hf : r.Fits tried)
include hf

theorem placed : r.Placed tried := fun a ha =>
  (mem_pendingOf_iff.1 (mem_pending_iff.1 (hf.pending a ha))).2.1

theorem exists_shader (ha : a ∈ tried) :
    ∃ s, r.shader? a.pending.path = some s ∧ (a.pending.stage, a.pending.source) ∈ s.sources ∧
      s.module? a.pending.stage = none :=
  (mem_pendingOf_iff.1 (mem_pending_iff.1 (hf.pending a ha))).2.2

theorem moduleOf?_eq_none (ha : a ∈ tried) :
    r.moduleOf? a.pending.path a.pending.stage = none := by
  obtain ⟨s, hs, -, hnone⟩ := hf.exists_shader ha
  rw [moduleOf?, hs, Option.bind_some, hnone]

/-- No stage is made twice. -/
theorem nodup_entries (path : String) :
    ((tried.filterMap (·.filed? path)).map (·.1)).Nodup := by
  rw [List.Nodup, List.pairwise_map, List.pairwise_filterMap]
  refine (List.pairwise_map.1 hf.nodup).imp fun {a b} hne x hx y hy heq => hne ?_
  unfold Attempt.filed? at hx hy
  split at hx
  · next ha =>
    split at hy
    · next hb =>
      obtain ⟨_, -, rfl⟩ := Option.map_eq_some_iff.1 hx
      obtain ⟨_, -, rfl⟩ := Option.map_eq_some_iff.1 hy
      exact Prod.ext (ha.trans hb.symm) heq
    · cases hy
  · cases hx

/-- A stage that was made has the module that was made for it. -/
theorem lookup_entries (ha : a ∈ tried) :
    (tried.filterMap (·.filed? a.pending.path)).lookup a.pending.stage = a.module? := by
  cases hm : a.module? with
  | some h =>
    refine lookup_of_mem (hf.nodup_entries _) (List.mem_filterMap.2 ⟨a, ha, ?_⟩)
    rw [Attempt.filed?, if_pos rfl, hm, Option.map_some]
  | none =>
    rw [List.lookup_eq_none_iff]
    rintro ⟨stage, h⟩ hmem
    refine bne_iff_ne.2 fun hstage => ?_
    obtain ⟨b, hb, hentry⟩ := List.mem_filterMap.1 hmem
    unfold Attempt.filed? at hentry
    split at hentry
    · next hpath =>
      obtain ⟨h', hm', heq⟩ := Option.map_eq_some_iff.1 hentry
      obtain ⟨hstage', -⟩ := Prod.mk.inj heq
      -- the stage was tried once, and to no avail
      have hab : a = b := List.inj_on_of_nodup_map hf.nodup ha hb
        (Prod.ext hpath.symm (hstage.trans hstage'.symm))
      rw [← hab, hm] at hm'
      cases hm'
    · cases hentry

/-- **A stage has the module that it had, or else the one that was made for it.** -/
theorem moduleOf?_addModules (path : String) (stage : ShaderStage) :
    (r.addModules tried).moduleOf? path stage =
      (r.moduleOf? path stage).or ((tried.filterMap (·.filed? path)).lookup stage) := by
  rw [moduleOf?, shader?_addModules hf.placed, moduleOf?]
  cases hs : r.shader? path with
  | some s => exact Shader.module?_withModules s _ stage
  | none =>
    have hnil : tried.filterMap (·.filed? path) = [] := by
      refine List.filterMap_eq_nil_iff.2 fun a ha => if_neg fun hpath => ?_
      obtain ⟨s, hs', -⟩ := hf.exists_shader ha
      rw [hpath, hs] at hs'
      cases hs'
    rw [hnil]
    rfl

theorem moduleOf?_tried (ha : a ∈ tried) :
    (r.addModules tried).moduleOf? a.pending.path a.pending.stage = a.module? := by
  rw [hf.moduleOf?_addModules, hf.moduleOf?_eq_none ha, Option.none_or, hf.lookup_entries ha]

/-- **Modules that are made for what is missing keep a registry sound.** -/
theorem sound (hr : r.Sound) : (r.addModules tried).Sound where
  toWellFormed := hr.congr (keys_addModules r tried) (hierarchy_addModules r tried)
  shaders path s' hs' := by
    rw [shader?_addModules hf.placed] at hs'
    obtain ⟨s, hs, rfl⟩ := Option.map_eq_some_iff.1 hs'
    have hold := hr.shaders path s hs
    have hnew : ∀ e ∈ tried.filterMap (·.filed? path),
        e.1 ∈ s.sources.map (·.1) ∧ e.1 ∉ s.modules.map (·.1) := by
      intro e he
      obtain ⟨a, ha, hentry⟩ := List.mem_filterMap.1 he
      unfold Attempt.filed? at hentry
      split at hentry
      · next hpath =>
        obtain ⟨h, -, rfl⟩ := Option.map_eq_some_iff.1 hentry
        obtain ⟨s', hs', hsource, hnone⟩ := hf.exists_shader ha
        rw [hpath, hs] at hs'
        obtain rfl := Option.some.inj hs'
        exact ⟨List.mem_map_of_mem hsource, Shader.module?_eq_none_iff.1 hnone⟩
      · cases hentry
    refine ⟨hold.sources, ?_, fun e he => ?_⟩
    · rw [Shader.withModules, List.map_append, List.nodup_append]
      refine ⟨hold.modules, hf.nodup_entries path, fun a ha b hb hab => ?_⟩
      obtain ⟨e, he, rfl⟩ := List.mem_map.1 hb
      exact (hnew e he).2 (hab ▸ ha)
    · rcases List.mem_append.1 he with he | he
      · exact hold.made e he
      · exact (hnew e he).1

end Fits

/-! ## What a compile does -/

/-- What a compile at a path does that makes all that is missing there. -/
structure MadeAll (r : Registry) (name : String) (tried : List Attempt) (count : Nat)
    (r' : Registry) : Prop where
  tried_eq : tried.map (·.pending) = r.missing name
  succeeded : ∀ a ∈ tried, a.module?.isSome = true
  /-- The stages are counted that had no module before. -/
  count_eq : count = (r.pending.filter fun p => Within name p.path).length
  complete : ∀ path s, Within name path → r'.shader? path = some s → s.IsComplete

/-- What a compile does that stops at the stage `failing`, with `rest` still to come. -/
structure StoppedAt (r : Registry) (name : String) (tried : List Attempt) (e : ShaderError)
    (r' : Registry) (made : List Attempt) (failing : Pending) (rest : List Pending) : Prop where
  missing : r.missing name = made.map (·.pending) ++ failing :: rest
  tried_eq : tried = made ++ [.failed failing]
  succeeded : ∀ a ∈ made, a.module?.isSome = true
  names : (∃ cause, e = .notCompiled failing.module cause) ∨
    ∃ cause, e = .moduleRefused failing.module cause
  kept : ∀ a ∈ made, r'.moduleOf? a.pending.path a.pending.stage = a.module?
  still_missing : r'.moduleOf? failing.path failing.stage = none
  /-- The next compile begins with the stage that failed. -/
  left : r'.missing name = failing :: rest

/-- What a compile at a path does with the stages that it tries. -/
structure Compiled (r : Registry) (name : String) (tried : List Attempt)
    (res : Except ShaderError Nat) (r' : Registry) : Prop where
  keys : r'.keys = r.keys
  hierarchy : r'.hierarchy = r.hierarchy
  /-- The stages are tried in the order in which they are visited. -/
  in_order : tried.map (·.pending) <+: r.missing name
  /-- A shader keeps all that it has and gets the modules made for it. -/
  shader : ∀ path, r'.shader? path =
    (r.shader? path).map (·.withModules (tried.filterMap (·.filed? path)))
  elsewhere : ∀ path, ¬ Within name path → r'.shader? path = r.shader? path
  ok : ∀ n, res = .ok n → r.MadeAll name tried n r'
  error : ∀ e, res = .error e →
    ∃ made failing rest, r.StoppedAt name tried e r' made failing rest

section
variable {κ δ : Type} [ShaderCompiler κ] [Device δ] {c c' : κ} {d d' : δ} {tried : List Attempt}
  {fail : Option ShaderError}

theorem Tries.fits (hr : r.Sound) (h : Tries c d (r.missing name) tried fail c' d') :
    r.Fits tried := by
  have hbegins := h.pending_prefix
  refine ⟨fun a ha => ?_, ?_⟩
  · exact (mem_missing_iff.1 (hbegins.subset (List.mem_map_of_mem ha))).1
  · have hkeys := (hr.nodup_missing name).sublist (hbegins.sublist.map Pending.key)
    rwa [List.map_map] at hkeys

/-- What is found behind the stages that were made is all that is missing then. -/
theorem filter_notMem_made {made : List Attempt} {ps : List Pending}
    (hmade : ∀ a ∈ made, a.module?.isSome = true)
    (hnodup : ((made.map (·.pending) ++ ps).map Pending.key).Nodup) :
    ((made.map (·.pending) ++ ps).filter fun p => p.key ∉ madeKeys made) = ps := by
  have hkeys : madeKeys made = (made.map (·.pending)).map Pending.key := by
    rw [madeKeys, List.map_map, ← List.filterMap_eq_map]
    refine List.filterMap_congr fun a ha => ?_
    obtain ⟨h, hm⟩ := Option.isSome_iff_exists.1 (hmade a ha)
    rw [Attempt.madeKey?, hm]
    rfl
  rw [List.map_append, List.nodup_append] at hnodup
  rw [hkeys, List.filter_append, List.filter_eq_nil_iff.2, List.filter_eq_self.2, List.nil_append]
  · intro p hp
    refine decide_eq_true fun hmem => ?_
    exact hnodup.2.2 p.key hmem p.key (List.mem_map_of_mem hp) rfl
  · intro p hp hnot
    exact of_decide_eq_true hnot (List.mem_map_of_mem hp)

/-- A stage at the path or below that has no module then was not made. -/
theorem complete_of_made (hr : r.Sound) (hname : name ∈ r.keys) (hf : r.Fits tried)
    (htried : tried.map (·.pending) = r.missing name)
    (hmade : ∀ a ∈ tried, a.module?.isSome = true) {s : Shader} (hwithin : Within name path)
    (hs : (r.addModules tried).shader? path = some s) : s.IsComplete := by
  intro e he
  by_contra hnone
  obtain ⟨i, hi⟩ := exists_index_of_shader hs
  have hpending : (⟨i, path, e.1, e.2⟩ : Pending) ∈ (r.addModules tried).pending := by
    rw [mem_pending_iff, mem_pendingOf_iff]
    exact ⟨rfl, hi, s, hs, he, by simpa using hnone⟩
  rw [pending_addModules hf.placed, List.mem_filter] at hpending
  obtain ⟨hpending, hnot⟩ := hpending
  have hmissing := (hr.mem_missing_iff_within hname).2 ⟨hpending, hwithin⟩
  rw [← htried] at hmissing
  obtain ⟨a, ha, hap⟩ := List.mem_map.1 hmissing
  obtain ⟨h, hm⟩ := Option.isSome_iff_exists.1 (hmade a ha)
  refine of_decide_eq_true hnot (List.mem_filterMap.2 ⟨a, ha, ?_⟩)
  rw [Attempt.madeKey?, hm, hap]
  rfl

/-- **What a compile does**, whatever the compiler and the device answer. -/
theorem Tries.compiled (hr : r.Sound) (hname : name ∈ r.keys)
    (h : Tries c d (r.missing name) tried fail c' d') :
    r.Compiled name tried (outcome 0 tried fail) (r.addModules tried) := by
  have hf := h.fits hr
  refine ⟨keys_addModules r tried, hierarchy_addModules r tried, h.pending_prefix,
    shader?_addModules hf.placed, fun path hpath => ?_, fun n hn => ?_, fun e he => ?_⟩
  · have hnil : tried.filterMap (·.filed? path) = [] := by
      refine List.filterMap_eq_nil_iff.2 fun a ha => if_neg fun heq => hpath ?_
      rw [← heq]
      exact ((hr.mem_missing_iff_within hname).1
        (h.pending_prefix.subset (List.mem_map_of_mem ha))).2
    rw [shader?_addModules hf.placed, hnil]
    cases r.shader? path with
    | none => rfl
    | some s => exact congrArg some s.withModules_nil
  · cases fail with
    | some e => cases hn
    | none =>
      obtain ⟨htried, hmade⟩ := h.all_made rfl
      have hcount : n = tried.length := by
        have hn' := Except.ok.inj hn
        omega
      refine ⟨htried, hmade, ?_, fun path s hwithin hs => ?_⟩
      · rw [hcount, ← (hr.missing_perm hname).length_eq, ← htried, List.length_map]
      · exact complete_of_made hr hname hf htried hmade hwithin hs
  · cases fail with
    | none => cases he
    | some e' =>
      obtain rfl : e' = e := Except.error.inj he
      obtain ⟨made, failing, rest, hmissing, rfl, hmade, hnames⟩ := h.stopped rfl
      refine ⟨made, failing, rest, hmissing, rfl, hmade, hnames, fun a ha => ?_, ?_, ?_⟩
      · exact hf.moduleOf?_tried (List.mem_append_left _ ha)
      · exact hf.moduleOf?_tried (a := .failed failing) (by simp)
      · have hnodup := hr.nodup_missing name
        have hkeys : madeKeys (made ++ [.failed failing]) = madeKeys made := by
          simp [madeKeys, Attempt.failed, Attempt.madeKey?]
        rw [missing_addModules hf.placed, hkeys, hmissing]
        rw [hmissing] at hnodup
        exact filter_notMem_made hmade hnodup

end

end Registry

end FrameGraph
