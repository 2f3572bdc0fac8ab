import FrameGraph.Device.Headless
import FrameGraph.Proofs.ShaderCompiles

/-!
# Histories of the shader registry

A registry as it comes from any loads and compiles, in any order and with whatever failures
(`Registry.History`), with what happened to its shaders on the way (`ShaderEvent`). Two things hold
of it all the time. The paths are those that lead to the shaders loaded, each below the path before
its last slash (`History.hierarchyOf`). And a stage has the module that was made for it since its
shader was loaded (`History.recorded`), so between two loads it is made once, and not given to the
compiler again (`oncePerLoad_of_recorded`).
-/

set_option autoImplicit false

namespace FrameGraph

/-! ## Shaders that are read -/

/-- What a traversal keeps comes from members in their order. -/
theorem sublist_of_filterMapM {ε α β : Type} {f : α → Except ε (Option β)} {g : β → α}
    (hf : ∀ a b, f a = .ok (some b) → g b = a) {l : List α} {bs : List β}
    (h : l.filterMapM f = .ok bs) : (bs.map g).Sublist l := by
  induction l generalizing bs with
  | nil =>
    obtain rfl := Except.ok.inj h
    exact .slnil
  | cons a l ih =>
    rw [List.filterMapM_cons, Except.bind_eq_ok_iff] at h
    obtain ⟨o, ho, h⟩ := h
    cases o with
    | none => exact (ih h).cons a
    | some b =>
      obtain ⟨rest, hrest, h⟩ := Except.bind_eq_ok_iff.1 h
      obtain rfl := Except.ok.inj h
      rw [List.map_cons, hf a b ho]
      exact (ih hrest).cons_cons a

theorem ShaderStage.nodup_all : all.Nodup := by decide

namespace Shader

variable {files : FileTree} {dir name : String} {s : Shader}

theorem readSources_sublist {sources : Sources} (h : readSources files dir name = .ok sources) :
    (sources.map (·.1)).Sublist ShaderStage.all := by
  refine sublist_of_filterMapM (fun stage e he => ?_) h
  simp only at he
  split at he
  · split at he
    · obtain rfl := Option.some.inj (Except.ok.inj he)
      rfl
    · cases he
  · cases he

/-- A shader that was read has the name that was asked for, no modules, and its sources in stage
order. -/
theorem of_read (h : (read files dir name).result = .ok (.ok s)) :
    s.name = name ∧ s.modules = [] ∧ (s.sources.map (·.1)).Sublist ShaderStage.all := by
  unfold read at h
  split at h
  · cases h
  · next doc sources hread =>
    obtain ⟨doc', -, hread⟩ := Except.bind_eq_ok_iff.1 hread
    obtain ⟨sources', hsources, hread⟩ := Except.bind_eq_ok_iff.1 hread
    obtain ⟨rfl, rfl⟩ := Prod.mk.inj (Except.ok.inj hread)
    rw [Traced.result_bind, Except.bind_eq_ok_iff] at h
    obtain ⟨resolved, -, h⟩ := h
    cases resolved with
    | error e => cases h
    | ok bindings =>
      obtain rfl := Except.ok.inj (Except.ok.inj h)
      exact ⟨rfl, rfl, readSources_sublist hsources⟩

end Shader

/-! ## Events -/

/-- What happens to shaders: one is loaded, a stage is given to the compiler, a stage gets a
module. -/
inductive ShaderEvent
  | loaded (name : String)
  | asked (path : String) (stage : ShaderStage)
  | made (path : String) (stage : ShaderStage) (module : Handle .shaderModule)
  deriving DecidableEq

namespace ShaderEvent

variable {events es : List ShaderEvent} {e : ShaderEvent} {path : String} {stage : ShaderStage}
  {h : Handle .shaderModule}

/-- The module of a stage after an event. -/
def update (path : String) (stage : ShaderStage) (m : Option (Handle .shaderModule)) :
    ShaderEvent → Option (Handle .shaderModule)
  | loaded name => if name = path then none else m
  | asked _ _ => m
  | made path' stage' h => if path' = path ∧ stage' = stage then some h else m

/-- The module that was made last for a stage, if its shader was not loaded since. -/
def held (events : List ShaderEvent) (path : String) (stage : ShaderStage) :
    Option (Handle .shaderModule) :=
  events.foldl (update path stage) none

/-- The names of the shaders loaded, in order. -/
def loadedNames (events : List ShaderEvent) : List String :=
  events.filterMap fun
    | loaded name => some name
    | _ => none

/-- Whether an event finds no module in its way: a stage is given to the compiler, or gets a module,
only if it has none. -/
def Fresh (before : List ShaderEvent) : ShaderEvent → Prop
  | loaded _ => True
  | asked path stage => held before path stage = none
  | made path stage _ => held before path stage = none

/-- Whether every event was fresh when it happened. -/
def AllFresh (events : List ShaderEvent) : Prop :=
  ∀ xs e ys, events = xs ++ e :: ys → Fresh xs e

theorem held_concat (events : List ShaderEvent) (e : ShaderEvent) (path : String)
    (stage : ShaderStage) :
    held (events ++ [e]) path stage = e.update path stage (held events path stage) := by
  simp [held]

theorem AllFresh.concat (h : AllFresh events) (he : Fresh events e) : AllFresh (events ++ [e]) := by
  intro xs e' ys hsplit
  rcases List.eq_nil_or_concat ys with rfl | ⟨ys, y, rfl⟩
  · obtain ⟨rfl, heq⟩ := List.append_inj' hsplit rfl
    obtain rfl := (List.cons.inj heq).1
    exact he
  · have hsplit' : events ++ [e] = (xs ++ e' :: ys) ++ [y] := by simpa using hsplit
    exact h xs e' ys (List.append_inj' hsplit' rfl).1

theorem AllFresh.of_append (h : AllFresh (events ++ es)) : AllFresh events := by
  intro xs e ys hsplit
  exact h xs e (ys ++ es) (by rw [hsplit, List.append_assoc]; rfl)

/-- **A module that was made is there until its shader is loaded again.** -/
theorem AllFresh.held_eq {xs ys : List ShaderEvent}
    (hfresh : AllFresh (xs ++ made path stage h :: ys)) (hloaded : loaded path ∉ ys) :
    held (xs ++ made path stage h :: ys) path stage = some h := by
  induction ys using List.reverseRecOn with
  | nil => rw [held_concat, update, if_pos ⟨rfl, rfl⟩]
  | append_singleton ys e ih =>
    rw [List.mem_append, not_or] at hloaded
    have hassoc : xs ++ made path stage h :: (ys ++ [e]) =
        (xs ++ made path stage h :: ys) ++ [e] := by simp
    rw [hassoc] at hfresh ⊢
    have hheld := ih hfresh.of_append hloaded.1
    rw [held_concat, hheld]
    cases e with
    | loaded name =>
      have hne : name ≠ path := fun heq => hloaded.2 (by rw [heq]; exact List.mem_singleton_self _)
      rw [update, if_neg hne]
    | asked => rfl
    | made path' stage' h' =>
      rw [update, if_neg]
      rintro ⟨rfl, rfl⟩
      have hnone : held (xs ++ made path' stage' h :: ys) path' stage' = none :=
        hfresh _ (made path' stage' h') [] rfl
      rw [hheld] at hnone
      cases hnone

/-- A module that is there was made, and its shader not loaded since. -/
theorem exists_made_of_held (hheld : held events path stage = some h) :
    ∃ xs ys, events = xs ++ made path stage h :: ys ∧ loaded path ∉ ys := by
  induction events using List.reverseRecOn with
  | nil => cases hheld
  | append_singleton events e ih =>
    rw [held_concat] at hheld
    have hearlier (hold : held events path stage = some h) (hne : e ≠ loaded path) :
        ∃ xs ys, events ++ [e] = xs ++ made path stage h :: ys ∧ loaded path ∉ ys := by
      obtain ⟨xs, ys, rfl, hys⟩ := ih hold
      refine ⟨xs, ys ++ [e], by simp, ?_⟩
      rw [List.mem_append, not_or]
      exact ⟨hys, fun hmem => hne (List.mem_singleton.1 hmem).symm⟩
    cases e with
    | loaded name =>
      rw [update] at hheld
      split at hheld
      · cases hheld
      · next hne => exact hearlier hheld fun heq => hne (ShaderEvent.loaded.inj heq)
    | asked => exact hearlier hheld ShaderEvent.noConfusion
    | made path' stage' h' =>
      rw [update] at hheld
      split at hheld
      · next heq =>
        obtain ⟨rfl, rfl⟩ := heq
        obtain rfl := Option.some.inj hheld
        exact ⟨events, [], rfl, List.not_mem_nil⟩
      · exact hearlier hheld ShaderEvent.noConfusion

end ShaderEvent

open ShaderEvent (held loadedNames Fresh AllFresh)

namespace Registry

/-- What happens in an attempt: the stage is given to the compiler, and gets its module if one is
made. -/
def Attempt.events (a : Attempt) : List ShaderEvent :=
  .asked a.pending.path a.pending.stage ::
    (a.module?.map (.made a.pending.path a.pending.stage)).toList

/-- The registries that come of loads and compiles, and what happened to their shaders. -/
inductive History : List ShaderEvent → Registry → Prop
  | start : History [] {}
  | loaded {events : List ShaderEvent} {r r' : Registry} {files : FileTree} {dir name : String}
      {s : Shader} (h : History events r)
      (hload : (r.load files dir name).result = .ok (.ok s, r')) :
      History (events ++ [.loaded name]) r'
  | notLoaded {events : List ShaderEvent} {r r' : Registry} {files : FileTree} {dir name : String}
      {e : ShaderError} (h : History events r)
      (hload : (r.load files dir name).result = .ok (.error e, r')) : History events r'
  | compiled {κ δ : Type} [ShaderCompiler κ] [Device δ] {events : List ShaderEvent}
      {r r' : Registry} {name : String} {c c' : κ} {d d' : δ} {res : Except ShaderError Nat}
      {tried : List Attempt} {fail : Option ShaderError} (h : History events r)
      (hname : name ∈ r.keys) (hcompile : (r.compile name c d).result = .ok (res, r', c', d'))
      (htries : Tries c d (r.missing name) tried fail c' d') :
      History (events ++ tried.flatMap Attempt.events) r'

/-! ## Steps -/

variable {r r' : Registry} {events : List ShaderEvent} {tried : List Attempt} {name path : String}
  {stage : ShaderStage}

theorem load_ok_iff {files : FileTree} {dir : String} {res : Except ShaderError Shader} :
    (r.load files dir name).result = .ok (res, r') ↔
      (Shader.read files dir name).result = .ok res ∧
        r' = match res with
          | .ok s => r.insert s
          | .error _ => r := by
  unfold load
  rw [Traced.result_bind, Except.bind_eq_ok_iff]
  constructor
  · rintro ⟨x, hx, h⟩
    cases x with
    | error e =>
      cases h
      exact ⟨hx, rfl⟩
    | ok s =>
      cases h
      exact ⟨hx, rfl⟩
  · rintro ⟨hx, rfl⟩
    refine ⟨res, hx, ?_⟩
    cases res <;> rfl

theorem load_of_read {files : FileTree} {dir : String} {s : Shader}
    (h : (Shader.read files dir name).result.toOption.bind (·.toOption) = some s) (r : Registry) :
    (r.load files dir name).result = .ok (.ok s, r.insert s) := by
  obtain ⟨x, hx, hs⟩ := Option.bind_eq_some_iff.1 h
  rw [load_ok_iff, Except.eq_ok_of_toOption hx, Except.eq_ok_of_toOption hs]
  exact ⟨rfl, rfl⟩

/-- A compile does what is tried in it, and nothing else. -/
theorem eq_addModules {κ δ : Type} [ShaderCompiler κ] [Device δ] (hr : r.WellFormed)
    (hname : name ∈ r.keys) {c c' c'' : κ} {d d' d'' : δ} {res : Except ShaderError Nat}
    {fail : Option ShaderError} (h : (r.compile name c d).result = .ok (res, r', c', d'))
    (htries : Tries c d (r.missing name) tried fail c'' d'') :
    r' = r.addModules tried ∧ res = outcome 0 tried fail := by
  have htried := (compile_ok_iff hr hname).2 ⟨tried, fail, htries, rfl, rfl⟩
  rw [h] at htried
  obtain ⟨rfl, rfl, -, -⟩ := by simpa using htried
  exact ⟨rfl, rfl⟩

/-- What the events tell of a registry that they led to. -/
structure Recorded (events : List ShaderEvent) (r : Registry) : Prop where
  sound : r.Sound
  allFresh : AllFresh events
  moduleOf?_eq : ∀ path stage, r.moduleOf? path stage = held events path stage

theorem Sound.insert (hr : r.Sound) {s : Shader} (hs : s.OnePerStage) : (r.insert s).Sound where
  toWellFormed := hr.toWellFormed.insert s
  shaders path s' hs' := by
    rw [shader?_insert] at hs'
    split at hs'
    · obtain rfl := Option.some.inj hs'
      exact hs
    · exact hr.shaders path s' hs'

theorem Recorded.insert (h : Recorded events r) {s : Shader} (hmodules : s.modules = [])
    (hsources : (s.sources.map (·.1)).Nodup) :
    Recorded (events ++ [.loaded s.name]) (r.insert s) where
  sound := h.sound.insert ⟨hsources, by simp [hmodules], by simp [hmodules]⟩
  allFresh := h.allFresh.concat trivial
  moduleOf?_eq path stage := by
    rw [ShaderEvent.held_concat, ShaderEvent.update, moduleOf?, shader?_insert]
    by_cases hname : s.name = path
    · rw [if_pos hname.symm, if_pos hname, Option.bind_some, Shader.module?, hmodules]
      rfl
    · rw [if_neg (Ne.symm hname), if_neg hname, ← h.moduleOf?_eq]
      rfl

/-- After an attempt the stage has the module that was made, if one was. -/
theorem held_attempt (events : List ShaderEvent) (a : Attempt) (path : String)
    (stage : ShaderStage) :
    held (events ++ a.events) path stage =
      ((a.filed? path).toList.lookup stage).or (held events path stage) := by
  obtain ⟨p, _ | h⟩ := a
  · simp [Attempt.events, Attempt.filed?, held, ShaderEvent.update]
  · by_cases hpath : p.path = path
    · by_cases hstage : p.stage = stage
      · simp [Attempt.events, Attempt.filed?, held, ShaderEvent.update, hpath, hstage]
      · simp [Attempt.events, Attempt.filed?, held, ShaderEvent.update, hpath, hstage,
          List.lookup_cons, beq_eq_false_iff_ne.2 (Ne.symm hstage)]
    · simp [Attempt.events, Attempt.filed?, held, ShaderEvent.update, hpath]

theorem allFresh_attempt {a : Attempt} (h : AllFresh events)
    (hopen : held events a.pending.path a.pending.stage = none) :
    AllFresh (events ++ a.events) := by
  have hasked := h.concat (e := .asked a.pending.path a.pending.stage) hopen
  unfold Attempt.events
  cases a.module? with
  | none => exact hasked
  | some m =>
    have hmade := hasked.concat (e := .made a.pending.path a.pending.stage m)
      (by rw [Fresh, ShaderEvent.held_concat]; exact hopen)
    rwa [List.append_assoc] at hmade

/-- Attempts at different stages that have no module are all fresh, and leave each stage with what
it had or got. -/
theorem allFresh_attempts (h : AllFresh events)
    (hopen : ∀ a ∈ tried, held events a.pending.path a.pending.stage = none)
    (hnodup : (tried.map fun a => a.pending.key).Nodup) :
    AllFresh (events ++ tried.flatMap Attempt.events) ∧
      ∀ path stage, held (events ++ tried.flatMap Attempt.events) path stage =
        (held events path stage).or ((tried.filterMap (·.filed? path)).lookup stage) := by
  induction tried generalizing events with
  | nil => simpa using h
  | cons a tried ih =>
    obtain ⟨hhead, htail⟩ := List.forall_mem_cons.1 hopen
    rw [List.map_cons, List.nodup_cons] at hnodup
    -- a module that the attempt made is that of its own stage
    have hown {path : String} {stage : ShaderStage} {m : Handle .shaderModule}
        (hm : (a.filed? path).toList.lookup stage = some m) : a.pending.key = (path, stage) := by
      unfold Attempt.filed? at hm
      split at hm
      · next hpath =>
        cases hmodule : a.module? with
        | none => simp [hmodule] at hm
        | some m' =>
          rw [hmodule, Option.map_some, Option.toList_some, List.lookup_cons] at hm
          split at hm
          · next hstage => exact Prod.ext hpath (beq_iff_eq.1 hstage).symm
          · cases hm
      · cases hm
    have hopen' : ∀ b ∈ tried, held (events ++ a.events) b.pending.path b.pending.stage = none := by
      intro b hb
      rw [held_attempt, htail b hb, Option.or_none]
      cases hm : (a.filed? b.pending.path).toList.lookup b.pending.stage with
      | none => rfl
      | some m => exact absurd (hown hm) fun heq => hnodup.1 (List.mem_map.2 ⟨b, hb, heq.symm⟩)
    obtain ⟨hfresh, hheld⟩ := ih (allFresh_attempt h hhead) hopen' hnodup.2
    rw [List.flatMap_cons, ← List.append_assoc]
    refine ⟨hfresh, fun path stage => ?_⟩
    have hentries : ((a :: tried).filterMap (·.filed? path)) =
        (a.filed? path).toList ++ tried.filterMap (·.filed? path) := by
      cases hentry : a.filed? path <;> simp [hentry]
    rw [hheld, held_attempt, hentries, List.lookup_append]
    cases hm : (a.filed? path).toList.lookup stage with
    | none => rw [Option.none_or, Option.none_or]
    | some m =>
      obtain ⟨rfl, rfl⟩ := Prod.mk.inj (hown hm)
      rw [hhead, Option.none_or, Option.some_or, Option.some_or]

theorem Recorded.addModules (h : Recorded events r) (hf : r.Fits tried) :
    Recorded (events ++ tried.flatMap Attempt.events) (r.addModules tried) := by
  have hopen : ∀ a ∈ tried, held events a.pending.path a.pending.stage = none := fun a ha => by
    rw [← h.moduleOf?_eq, hf.moduleOf?_eq_none ha]
  obtain ⟨hfresh, hheld⟩ := allFresh_attempts h.allFresh hopen hf.nodup
  refine ⟨hf.sound h.sound, hfresh, fun path stage => ?_⟩
  rw [hf.moduleOf?_addModules, hheld, h.moduleOf?_eq]

theorem sound_empty : Sound {} where
  toWellFormed := wellFormed_empty
  shaders path s hs := by
    rw [shader?, node?] at hs
    simp at hs

/-- **The modules of a registry are those of its history.** -/
theorem History.recorded (h : History events r) : Recorded events r := by
  induction h with
  | start => exact ⟨sound_empty, fun xs e ys hsplit => by simp at hsplit, fun _ _ => rfl⟩
  | loaded _ hload ih =>
    obtain ⟨hread, rfl⟩ := load_ok_iff.1 hload
    obtain ⟨rfl, hmodules, hsources⟩ := Shader.of_read hread
    exact ih.insert hmodules (ShaderStage.nodup_all.sublist hsources)
  | notLoaded _ hload ih =>
    obtain ⟨-, rfl⟩ := load_ok_iff.1 hload
    exact ih
  | compiled _ hname hcompile htries ih =>
    obtain ⟨rfl, -⟩ := eq_addModules ih.sound.toWellFormed hname hcompile htries
    exact ih.addModules (htries.fits ih.sound)

/-- The sources of a shader stand in stage order, also once it is compiled. -/
theorem History.sources_sublist (h : History events r) {s : Shader} (hs : r.shader? path = some s) :
    (s.sources.map (·.1)).Sublist ShaderStage.all := by
  induction h generalizing path s with
  | start =>
    rw [shader?, node?] at hs
    simp at hs
  | loaded _ hload ih =>
    obtain ⟨hread, rfl⟩ := load_ok_iff.1 hload
    rw [shader?_insert] at hs
    split at hs
    · obtain rfl := Option.some.inj hs
      exact (Shader.of_read hread).2.2
    · exact ih hs
  | notLoaded _ hload ih =>
    obtain ⟨-, rfl⟩ := load_ok_iff.1 hload
    exact ih hs
  | compiled hbefore hname hcompile htries ih =>
    have hr := hbefore.recorded.sound
    obtain ⟨rfl, -⟩ := eq_addModules hr.toWellFormed hname hcompile htries
    rw [shader?_addModules (htries.fits hr).placed] at hs
    obtain ⟨before, hbefore, rfl⟩ := Option.map_eq_some_iff.1 hs
    show (before.sources.map (·.1)).Sublist ShaderStage.all
    exact ih hbefore

/-! ## Once for each load -/

/-- Whether, between two loads of a shader, a stage gets one module at most, which then stays and
keeps the stage from the compiler. -/
structure OncePerLoad (events : List ShaderEvent) (r : Registry) : Prop where
  made : ∀ xs ys zs path stage h h',
    events = xs ++ .made path stage h :: (ys ++ .made path stage h' :: zs) → .loaded path ∈ ys
  asked : ∀ xs ys zs path stage h,
    events = xs ++ .made path stage h :: (ys ++ .asked path stage :: zs) → .loaded path ∈ ys
  /-- The module of a stage is the one made since the shader was loaded. -/
  module : ∀ path stage h, r.moduleOf? path stage = some h ↔
    ∃ xs ys, events = xs ++ .made path stage h :: ys ∧ .loaded path ∉ ys

theorem oncePerLoad_of_recorded (h : Recorded events r) : OncePerLoad events r := by
  have hblocked {xs ys zs : List ShaderEvent} {path : String} {stage : ShaderStage}
      {m : Handle .shaderModule} {e : ShaderEvent}
      (hsplit : events = xs ++ .made path stage m :: (ys ++ e :: zs))
      (he : Fresh (xs ++ .made path stage m :: ys) e → held (xs ++ .made path stage m :: ys)
        path stage = none) : .loaded path ∈ ys := by
    have hassoc : events = (xs ++ .made path stage m :: ys) ++ e :: zs := by simp [hsplit]
    by_contra hloaded
    have hfresh := h.allFresh
    rw [hassoc] at hfresh
    have hnone := he (hfresh _ e zs rfl)
    rw [hfresh.of_append.held_eq hloaded] at hnone
    cases hnone
  refine ⟨fun xs ys zs path stage m m' hsplit => hblocked hsplit id,
    fun xs ys zs path stage m hsplit => hblocked hsplit id, fun path stage m => ?_⟩
  rw [h.moduleOf?_eq]
  constructor
  · exact ShaderEvent.exists_made_of_held
  · rintro ⟨xs, ys, rfl, hloaded⟩
    exact h.allFresh.held_eq hloaded

/-! ### A shader below another -/

/-- A compiler that compiles so many more sources and refuses all others. -/
structure Press where
  left : Nat

instance : ShaderCompiler Press where
  compile _ path _ c :=
    match c.left with
    | 0 => pure (.error (.refused path), c)
    | left + 1 => pure (.ok [Headless.shaderMagic], ⟨left⟩)

/-! The shader `a//b` is loaded, then `a`, and both are compiled with a compiler that refuses the
last of the three sources. The next compiler takes it. -/

namespace Shelf

/-- The files of two shaders with empty layouts and empty sources. -/
def files : FileTree where
  entries := [
    (["a"], .directory),
    (["a.json"], .file [0x7b, 0x7d]),
    (["a.comp"], .file []),
    (["a", "b.json"], .file [0x7b, 0x7d]),
    (["a", "b.vert"], .file []),
    (["a", "b.frag"], .file [])]

def above : Shader := ⟨"a", [], [(.compute, ⟨"/a.comp", ""⟩)], []⟩

def below : Shader :=
  ⟨"a//b", [], [(.vertex, ⟨"/a//b.vert", ""⟩), (.fragment, ⟨"/a//b.frag", ""⟩)], []⟩

theorem read_eq : (Shader.read files "/" "a").result.toOption.bind (·.toOption) = some above ∧
    (Shader.read files "/" "a//b").result.toOption.bind (·.toOption) = some below := by
  decide +kernel

def loaded : Registry := (Registry.insert {} below).insert above

theorem history_loaded : History [.loaded "a//b", .loaded "a"] loaded :=
  .loaded (.loaded .start (load_of_read read_eq.2 _)) (load_of_read read_eq.1 _)

def compute : Pending := ⟨0, "a", .compute, ⟨"/a.comp", ""⟩⟩

def vertex : Pending := ⟨2, "a//b", .vertex, ⟨"/a//b.vert", ""⟩⟩

def fragment : Pending := ⟨2, "a//b", .fragment, ⟨"/a//b.frag", ""⟩⟩

theorem missing_loaded : loaded.missing "a" = [compute, vertex, fragment] := rfl

/-- The headless device with so many shader modules. -/
def device (n : Nat) : Headless := { lastHandle := n, created := { shaderModules := n } }

def firstTried : List Attempt := [.made compute ⟨1⟩, .made vertex ⟨2⟩, .failed fragment]

def refusal : ShaderError := .notCompiled "a//b.frag" (.refused "/a//b.frag")

theorem tries_first : Tries (⟨2⟩ : Press) (device 0) (loaded.missing "a") firstTried (some refusal)
    ⟨0⟩ (device 2) := by
  rw [missing_loaded]
  exact .made rfl rfl (.made rfl rfl (.notCompiled rfl))

def stopped : Registry := loaded.addModules firstTried

theorem mem_keys_loaded : "a" ∈ loaded.keys := by decide +kernel

theorem compile_loaded : (loaded.compile "a" (⟨2⟩ : Press) (device 0)).result =
    .ok (.error refusal, stopped, ⟨0⟩, device 2) :=
  (compile_ok_iff history_loaded.recorded.sound.toWellFormed mem_keys_loaded).2
    ⟨_, _, tries_first, rfl, rfl⟩

/-- What happened until the compile stopped. -/
def stoppedEvents : List ShaderEvent := [.loaded "a//b", .loaded "a",
  .asked "a" .compute, .made "a" .compute ⟨1⟩,
  .asked "a//b" .vertex, .made "a//b" .vertex ⟨2⟩,
  .asked "a//b" .fragment]

theorem history_stopped : History stoppedEvents stopped :=
  .compiled history_loaded mem_keys_loaded compile_loaded tries_first

theorem missing_stopped : stopped.missing "a" = [fragment] := rfl

def nextTried : List Attempt := [.made fragment ⟨3⟩]

theorem tries_next : Tries (⟨5⟩ : Press) (device 2) (stopped.missing "a") nextTried none ⟨4⟩
    (device 3) := by
  rw [missing_stopped]
  exact .made rfl rfl .done

def finished : Registry := stopped.addModules nextTried

theorem mem_keys_stopped : "a" ∈ stopped.keys := by
  rw [stopped, keys_addModules]
  exact mem_keys_loaded

theorem compile_stopped : (stopped.compile "a" (⟨5⟩ : Press) (device 2)).result =
    .ok (.ok 1, finished, ⟨4⟩, device 3) :=
  (compile_ok_iff history_stopped.recorded.sound.toWellFormed mem_keys_stopped).2
    ⟨_, _, tries_next, rfl, rfl⟩

end Shelf

/-! ## Each stage is compiled once -/

/-- Whether a compile at a path visits what it should: that path and all that starts with it and a
slash, each once, and a path before those below it. -/
structure VisitsBelow (r : Registry) (name : String) : Prop where
  mem_iff : ∀ path, path ∈ r.visited name ↔
    path ∈ r.keys ∧ (path = name ∨ (name ++ "/").toList <+: path.toList)
  nodup : (r.visited name).Nodup
  preorder : r.visited name = name :: (r.childPaths name).flatMap r.visited
  /-- Those below come in the order in which their paths came in. -/
  children : (r.childPaths name).Sublist r.keys

theorem WellFormed.visitsBelow (hr : r.WellFormed) (hname : name ∈ r.keys) :
    r.VisitsBelow name where
  mem_iff _ := hr.mem_visited_iff hname
  nodup := hr.nodup_visited name
  preorder := hr.visited_eq hname
  children := by
    rw [hr.childPaths_eq]
    exact List.filter_sublist

/-- **Each stage is compiled once.** Of a registry after any loads and compiles: between two loads
of a shader each stage gets one module at most. A compile of a path that is there visits that path
and those below it; it gives the compiler the stages there that have no module, in the order of the
visits, and makes them all or stops at the one that fails. -/
theorem History.compiles_once (h : History events r) :
    OncePerLoad events r ∧
    ∀ name ∈ r.keys, r.VisitsBelow name ∧
      ∀ (κ δ : Type) [ShaderCompiler κ] [Device δ] (c : κ) (d : δ),
        ((∀ stage path text (c : κ), ∃ x,
            (ShaderCompiler.compile stage path text c).result = .ok x) →
          (∀ words name (d : δ), ∃ x, (Device.createShaderModule words name d).result = .ok x) →
          ∃ res r' c' d', (r.compile name c d).result = .ok (res, r', c', d')) ∧
        ∀ res r' c' d', (r.compile name c d).result = .ok (res, r', c', d') →
          ∃ tried fail, Tries c d ((r.visited name).flatMap r.pendingOf) tried fail c' d' ∧
            r.Compiled name tried res r' ∧
            History (events ++ tried.flatMap Attempt.events) r' := by
  have hrecorded := h.recorded
  have hr := hrecorded.sound.toWellFormed
  refine ⟨oncePerLoad_of_recorded hrecorded, fun name hname => ⟨hr.visitsBelow hname,
    fun κ δ _ _ c d => ⟨fun hcompiler hdevice => exists_compile hr hname hcompiler hdevice c d,
      fun res r' c' d' hcompile => ?_⟩⟩⟩
  obtain ⟨tried, fail, htries, rfl, rfl⟩ := (compile_ok_iff hr hname).1 hcompile
  exact ⟨tried, fail, htries, htries.compiled hrecorded.sound hname,
    .compiled h hname hcompile htries⟩

theorem compiles_once_shelf :
    History Shelf.stoppedEvents Shelf.stopped ∧ "a" ∈ Shelf.stopped.keys ∧
    OncePerLoad Shelf.stoppedEvents Shelf.stopped ∧ Shelf.stopped.VisitsBelow "a" ∧
    (Shelf.stopped.compile "a" (⟨5⟩ : Press) (Shelf.device 2)).result =
      .ok (.ok 1, Shelf.finished, ⟨4⟩, Shelf.device 3) ∧
    ∃ tried, Shelf.stopped.Compiled "a" tried (.ok 1) Shelf.finished ∧
      tried.map (·.pending) = [Shelf.fragment] := by
  obtain ⟨honce, hcompiles⟩ := History.compiles_once Shelf.history_stopped
  obtain ⟨hvisits, hcompile⟩ := hcompiles "a" Shelf.mem_keys_stopped
  obtain ⟨tried, -, -, hcompiled, -⟩ :=
    (hcompile Press Headless ⟨5⟩ (Shelf.device 2)).2 _ _ _ _ Shelf.compile_stopped
  exact ⟨Shelf.history_stopped, Shelf.mem_keys_stopped, honce, hvisits, Shelf.compile_stopped,
    tried, hcompiled, (hcompiled.ok 1 rfl).tried_eq⟩

/-! ## The hierarchy -/

/-- Whether the paths of a registry are those of the shaders loaded, and stand to each other as
their texts say. -/
structure HierarchyOf (r : Registry) (loaded : List String) : Prop where
  /-- The paths are there in the order in which the loads brought them. -/
  keys : r.keys = (loaded.flatMap paths).eraseDups
  closed : ∀ above rest, above ++ "/" ++ rest ∈ r.keys → above ∈ r.keys
  parent : ∀ above segment : String, '/' ∉ segment.toList → above ++ "/" ++ segment ∈ r.keys →
    r.parentPath? (above ++ "/" ++ segment) = some above
  top : ∀ path ∈ r.keys, '/' ∉ path.toList → r.parentPath? path = none
  children : ∀ path, r.childPaths path = r.keys.filter fun c => r.parentPath? c = some path
  nodup : ∀ path, (r.childPaths path).Nodup
  /-- The children of a path are those that joined its list when they came in. -/
  lists : r.hierarchy.childLists = (List.range r.nodes.length).map r.hierarchy.children
  parent_before : ∀ path above, r.parentPath? path = some above →
    ∃ i j, r.indexOf? above = some i ∧ r.indexOf? path = some j ∧ i < j
  carries : ∀ n ∈ r.nodes, n.shader.isSome = true ↔ n.path ∈ loaded
  names : r.names = r.keys.filter (· ∈ loaded)
  mem_names_iff : ∀ path, path ∈ r.names ↔ path ∈ loaded

theorem loadedNames_append (xs ys : List ShaderEvent) :
    loadedNames (xs ++ ys) = loadedNames xs ++ loadedNames ys := List.filterMap_append

theorem loadedNames_attempts (tried : List Attempt) :
    loadedNames (tried.flatMap Attempt.events) = [] := by
  refine List.filterMap_eq_nil_iff.2 fun e he => ?_
  obtain ⟨a, -, he⟩ := List.mem_flatMap.1 he
  rcases List.mem_cons.1 he with rfl | he
  · rfl
  · obtain ⟨m, -, rfl⟩ := by simpa using he
    rfl

/-- The paths are those of the loads, and the shaders have the names of the loads. -/
theorem History.keys_eq (h : History events r) :
    r.keys = ((loadedNames events).flatMap paths).eraseDups ∧
      ∀ path, (r.shader? path).isSome = true ↔ path ∈ loadedNames events := by
  induction h with
  | start => exact ⟨rfl, fun path => by simp [shader?, node?, loadedNames]⟩
  | @loaded _ r _ _ _ name s _ hload ih =>
    obtain ⟨hread, rfl⟩ := load_ok_iff.1 hload
    obtain ⟨rfl, -, -⟩ := Shader.of_read hread
    refine ⟨?_, fun path => ?_⟩
    · rw [keys_insert, ih.1, foldl_addKey, loadedNames_append, List.flatMap_append]
      simp [loadedNames]
    · rw [shader?_insert, loadedNames_append, List.mem_append, ← ih.2 path]
      by_cases hpath : path = s.name
      · simp [hpath, loadedNames]
      · simp [hpath, loadedNames]
  | notLoaded _ hload ih =>
    obtain ⟨-, rfl⟩ := load_ok_iff.1 hload
    exact ih
  | compiled h hname hcompile htries ih =>
    have hrecorded := h.recorded
    obtain ⟨rfl, -⟩ := eq_addModules hrecorded.sound.toWellFormed hname hcompile htries
    rw [loadedNames_append, loadedNames_attempts, List.append_nil, keys_addModules]
    refine ⟨ih.1, fun path => ?_⟩
    rw [shader?_addModules (htries.fits hrecorded.sound).placed, Option.isSome_map]
    exact ih.2 path

/-- **The paths of a registry form the hierarchy of the shaders loaded**, whatever their names are
and however often a shader was loaded or compiled. -/
theorem History.hierarchyOf (h : History events r) : r.HierarchyOf (loadedNames events) := by
  obtain ⟨hkeys, hshader⟩ := h.keys_eq
  have hr := h.recorded.sound.toWellFormed
  have hcarries : ∀ n ∈ r.nodes, n.shader.isSome = true ↔ n.path ∈ loadedNames events := by
    intro n hn
    rw [← hshader, shader?, hr.node?_of_mem hn, Option.bind_some]
  have hnames : r.names = r.keys.filter (· ∈ loadedNames events) := by
    rw [Registry.names, Registry.keys, List.filter_map]
    refine congrArg _ (List.filter_congr fun n hn => ?_)
    rw [Bool.eq_iff_iff, hcarries n hn, Function.comp_apply, decide_eq_true_eq]
  refine ⟨hkeys, fun above rest hpath => ?_, fun above segment hsegment hpath => ?_,
    fun path hpath hslash => ?_, fun path => ?_, fun path => ?_, ?_, fun path above habove => ?_,
    hcarries, hnames, fun path => ?_⟩
  · exact hr.mem_keys_of_within hpath (.inr ⟨rest.toList, by simp⟩)
  · rw [hr.parentPath?_eq hpath, above?_below hsegment]
  · rw [hr.parentPath?_eq hpath, above?_eq_none_iff.2 hslash]
  · rw [hr.childPaths_eq]
    exact List.filter_congr fun c hc => by rw [hr.parentPath?_eq hc]
  · rw [hr.childPaths_eq]
    exact hr.nodup.filter _
  · rw [Hierarchy.childLists_eq hr.ordered, length_hierarchy]
  · have hpath : path ∈ r.keys := by
      obtain ⟨_, hn, -⟩ := Option.bind_eq_some_iff.1 habove
      obtain ⟨n, hn, -⟩ := Option.bind_eq_some_iff.1 hn
      exact mem_keys_of_node? hn
    obtain ⟨j, hj⟩ := List.mem_iff_getElem?.1 hpath
    rw [hr.parentPath?_eq hpath] at habove
    obtain ⟨i, hlt, -, hi⟩ := hr.exists_above hj habove
    exact ⟨i, j, hr.indexOf?_eq_some_iff.2 hi, hr.indexOf?_eq_some_iff.2 hj, hlt⟩
  · rw [hnames, List.mem_filter, decide_eq_true_eq, ← hshader]
    refine and_iff_right_of_imp fun hsome => ?_
    obtain ⟨s, hs⟩ := Option.isSome_iff_exists.1 hsome
    exact mem_keys_of_shader? hs

theorem hierarchyOf_shelf :
    History Shelf.stoppedEvents Shelf.stopped ∧
    Shelf.stopped.HierarchyOf ["a//b", "a"] ∧
    Shelf.stopped.keys = ["a", "a/", "a//b"] ∧ Shelf.stopped.names = ["a", "a//b"] ∧
    Shelf.stopped.parentPath? "a//b" = some "a/" := by
  have hhierarchy : Shelf.stopped.HierarchyOf ["a//b", "a"] :=
    History.hierarchyOf Shelf.history_stopped
  exact ⟨Shelf.history_stopped, hhierarchy, rfl, rfl, rfl⟩

end Registry

end FrameGraph
