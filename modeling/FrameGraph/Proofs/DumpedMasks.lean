import FrameGraph.Proofs.PlainMasks
import FrameGraph.Proofs.Plans
import FrameGraph.Proofs.ValidBarriers

/-!
# What a dump tells of the masks of a plan

A dump writes the stages and accesses of every state in a plan (`Plan.states`). Where the shaders of
a session were loaded and compiled (`Session.LoadedStep`), all of these states are plain: a frame
takes over the states that nodes carry, joins them with what its passes do, and leaves plain states
to the next (`Session.carriesPlain_kept`). So the text of an access mask tells the mask, and the
text of a stage mask tells it up to the three stages without names, which are there all together or
not at all (`dump_names_masks`).

Those stages do occur, for a binding that is seen everywhere. Then the text is that of a binding
that is seen at the other five stages (`not_forall_dumped`).
-/

set_option autoImplicit false

namespace FrameGraph

open Relation (ReflTransGen)

/-! ## The masks of a plan -/

/-- The states between which a batch of transitions leads. -/
def TransitionBatch.states (b : TransitionBatch) : List AccessState :=
  b.images.flatMap (fun t => [t.src, t.dst]) ++ b.buffers.flatMap fun t => [t.src, t.dst]

namespace Plan

/-- The states in a plan: those in which its steps use resources, and those at the ends of its
barriers. -/
def states (p : Plan) : List AccessState :=
  p.steps.flatMap (fun s => s.accesses.map (·.2) ++ s.barriers.states) ++ p.endOfFrame.states

def stageMasks (p : Plan) : List StageMask := p.states.map (·.stage)

/-- The access masks of a plan, whole and as sources of barriers. -/
def accessMasks (p : Plan) : List AccessMask := p.states.flatMap fun s => [s.access, s.srcAccess]

end Plan

/-! ## Plain states -/

/-- Whether a state has plain stages, and accesses with names. -/
structure AccessState.IsPlain (s : AccessState) : Prop where
  stage : s.stage.IsPlain
  access : s.access ⊆ AccessMask.listed

namespace AccessState.IsPlain

variable {s t : AccessState}

theorem undefined : AccessState.undefined.IsPlain :=
  ⟨.of_listed (by decide) (by decide), by decide⟩

theorem present : AccessState.present.IsPlain :=
  ⟨.of_listed (by decide) (by decide), by decide⟩

theorem mergeRead (hs : s.IsPlain) (ht : t.IsPlain) : (s.mergeRead t).IsPlain :=
  ⟨hs.stage.union ht.stage, Mask.union_subset hs.access ht.access⟩

/-- What a barrier has to make available has a name, too. -/
theorem srcAccess (hs : s.IsPlain) : s.srcAccess ⊆ AccessMask.listed :=
  Mask.subset_iff.2 fun i hi => Mask.subset_iff.1 hs.access i (Mask.mem_inter.1 hi).1

end AccessState.IsPlain

/-- Whether the states that nodes carry are plain. -/
def Forest.CarriesPlain (f : Forest) : Prop :=
  ∀ (i : Nat) n, f.nodes[i]? = some n → n.current.IsPlain

/-- Whether all states of an analysis are plain. -/
structure Analysis.IsPlain (a : Analysis) : Prop where
  barriers : ∀ b ∈ a.barriers, ∀ s ∈ b.states, s.IsPlain
  endOfFrame : ∀ s ∈ a.endOfFrame.states, s.IsPlain
  accesses : ∀ pass, ∀ e ∈ a.accesses pass, e.2.IsPlain

/-! ## A frame -/

section
variable {f : Forest} {passes : List Pass} {shaders : Registry} {uses : List PassUses}
  {t : Timeline} {e : TimelineEntry}

/-- **Every entry of a timeline is plain**, if the shaders are. -/
theorem isPlain_of_entry (hshaders : shaders.IsPlain)
    (huses : (frameUses f shaders passes).result = .ok uses)
    (ht : t ∈ (Analysis.ofUses f uses).timelines) (he : e ∈ t.entries) : e.state.IsPlain := by
  obtain ⟨us, u, hus, hu, hstate⟩ := (Timeline.mem_entries_iff ht).1 he
  have hplain : u.IsPlain := by
    refine Timeline.isPlain_usageIn hu fun v hv => ?_
    obtain ⟨pass, -, use, -, p, -, -, hclassify, -⟩ :=
      exists_declares huses (List.mem_of_getElem? hus) hv
    exact Usage.isPlain_classify hshaders hclassify
  rw [hstate]
  exact ⟨hplain.stage, hplain.access⟩

/-- A timeline that starts from a plain state passes through plain states and ends in one. -/
theorem plain_along (hshaders : shaders.IsPlain) (hcarry : f.CarriesPlain)
    (huses : (frameUses f shaders passes).result = .ok uses)
    (ht : t ∈ (Analysis.ofUses f uses).timelines) :
    (∀ m ∈ t.moves, m.src.IsPlain ∧ m.dst.IsPlain) ∧ t.reduction.2.IsPlain := by
  obtain ⟨-, hn, -⟩ := Timeline.mem_ofFrame_iff.1 ht
  have hstart : t.start.IsPlain := Timeline.start_of (P := AccessState.IsPlain) .undefined
    (hcarry _ _ hn)
  exact Timeline.reduction_inv (fun _ _ hs hs' => hs.mergeRead hs') hstart
    fun e he => isPlain_of_entry hshaders huses ht he

end

/-! ### The states of batches -/

section
variable {t : Timeline} {ts : List Timeline} {src dst s : AccessState}

theorem Timeline.states_of_imageTransition {x : ImageTransition}
    (h : t.imageTransition? src dst = some x) (hs : s = x.src ∨ s = x.dst) : s = src ∨ s = dst := by
  unfold imageTransition? at h
  split at h
  · obtain rfl := Option.some.inj h
    exact hs
  · cases h

theorem Timeline.states_of_bufferTransition {x : BufferTransition}
    (h : t.bufferTransition? src dst = some x) (hs : s = x.src ∨ s = x.dst) :
    s = src ∨ s = dst := by
  unfold bufferTransition? at h
  split at h
  · obtain rfl := Option.some.inj h
    exact hs
  · cases h

namespace TransitionBatch

/-- A batch has the states at both ends of its transitions. -/
theorem mem_states_iff {b : TransitionBatch} :
    s ∈ b.states ↔
      (∃ x ∈ b.images, s = x.src ∨ s = x.dst) ∨ ∃ x ∈ b.buffers, s = x.src ∨ s = x.dst := by
  simp [states]

/-- The transitions before a pass lead along timelines. -/
theorem exists_move_of_before {pass : Nat} (hs : s ∈ (before pass ts).states) :
    ∃ t ∈ ts, ∃ m ∈ t.moves, s = m.src ∨ s = m.dst := by
  rcases mem_states_iff.1 hs with ⟨x, hx, hs⟩ | ⟨x, hx, hs⟩
  · obtain ⟨t, ht, hx⟩ := List.mem_flatMap.1 hx
    obtain ⟨m, hm, hx⟩ := List.mem_filterMap.1 hx
    exact ⟨t, ht, m, (List.mem_filter.1 hm).1, Timeline.states_of_imageTransition hx hs⟩
  · obtain ⟨t, ht, hx⟩ := List.mem_flatMap.1 hx
    obtain ⟨m, hm, hx⟩ := List.mem_filterMap.1 hx
    exact ⟨t, ht, m, (List.mem_filter.1 hm).1, Timeline.states_of_bufferTransition hx hs⟩

/-- The transitions at the end lead from where timelines end. -/
theorem exists_last_of_atEnd (hs : s ∈ (atEnd ts).states) :
    ∃ t ∈ ts, s = t.reduction.2 ∨ s = .present := by
  rcases mem_states_iff.1 hs with ⟨x, hx, hs⟩ | ⟨x, hx, -⟩
  · obtain ⟨t, ht, hx⟩ := List.mem_filterMap.1 hx
    exact ⟨t, (List.mem_filter.1 ht).1, Timeline.states_of_imageTransition hx hs⟩
  · cases hx

end TransitionBatch

end

section
variable {f f' : Forest} {passes : List Pass} {shaders : Registry} {a : Analysis}

/-- **A frame that starts from plain states has plain states only.** -/
theorem isPlain_of_frame (hshaders : shaders.IsPlain) (hcarry : f.CarriesPlain)
    (h : (analyze passes f shaders).result = .ok (a, f')) : a.IsPlain := by
  obtain ⟨uses, huses, rfl, -⟩ := analyze_ok_iff.1 h
  refine ⟨fun b hb s hs => ?_, fun s hs => ?_, fun pass e he => ?_⟩
  · obtain ⟨p, -, rfl⟩ := List.mem_map.1 hb
    obtain ⟨t, ht, m, hm, rfl | rfl⟩ := TransitionBatch.exists_move_of_before hs
    · exact ((plain_along hshaders hcarry huses ht).1 m hm).1
    · exact ((plain_along hshaders hcarry huses ht).1 m hm).2
  · obtain ⟨t, ht, rfl | rfl⟩ := TransitionBatch.exists_last_of_atEnd hs
    · exact (plain_along hshaders hcarry huses ht).2
    · exact .present
  · obtain ⟨t, ht, he⟩ := List.mem_filterMap.1 he
    obtain ⟨s, hs, rfl⟩ := Option.map_eq_some_iff.1 he
    obtain ⟨entry, hentry, rfl⟩ := Option.map_eq_some_iff.1 hs
    exact isPlain_of_entry hshaders huses ht (List.mem_of_find?_eq_some hentry)

/-- A frame leaves plain states. -/
theorem carriesPlain_of_frame (hshaders : shaders.IsPlain)
    (h : (analyze passes f shaders).result = .ok (a, f')) (hcarry : f.CarriesPlain) :
    f'.CarriesPlain := by
  intro i n' hn'
  obtain ⟨n, s, hn, rfl, ⟨t, ht, rfl, -, rfl⟩ | ⟨rfl, -⟩⟩ := exists_node_before h hn'
  · obtain ⟨uses, huses, rfl, -⟩ := analyze_ok_iff.1 h
    show t.finish.IsPlain
    unfold Timeline.finish
    split
    · exact .present
    · exact (plain_along hshaders hcarry huses ht).2
  · exact hcarry i n hn

end

/-- Operations leave plain states. -/
theorem Operation.carriesPlain {δ : Type} [Device δ] {d d' : δ} {o : Operation} {f f' : Forest}
    (h : o.run f d = .ok (f', d')) (hcarry : f.CarriesPlain) : f'.CarriesPlain := by
  intro i n' hn'
  rcases Operation.carriesFrom h i n' hn' with hnone | ⟨n, hn, hkept⟩
  · rw [hnone]
    exact .undefined
  · rw [hkept]
    exact hcarry i n hn

/-! ## Sessions with shaders that were loaded -/

namespace Session

variable {δ : Type} [Device δ]

/-- One step of a session in which every frame finds shaders that were loaded and compiled before,
in any order and whatever failed. -/
inductive LoadedStep (Aside : ObjectCache × δ → ObjectCache × δ → Prop) :
    Session δ → Session δ → Prop
  | aside {s : Session δ} {cache : ObjectCache} {d : δ}
      (h : Aside (s.cache, s.device) (cache, d)) : LoadedStep Aside s ⟨s.forest, cache, d⟩
  | operate {s : Session δ} {o : Operation} {f : Forest} {d : δ}
      (h : o.run s.forest s.device = .ok (f, d)) : LoadedStep Aside s ⟨f, s.cache, d⟩
  | frame {s : Session δ} {passes : List Pass} {events : List ShaderEvent} {shaders : Registry}
      {a : Analysis} {f : Forest} (hshaders : Registry.History events shaders)
      (h : (analyze passes s.forest shaders).result = .ok (a, f)) :
      LoadedStep Aside s ⟨f, s.cache, s.device⟩
  | compile {s : Session δ} {graph : PassGraph} {events : List ShaderEvent} {shaders : Registry}
      {r : Except DeviceError Plan} {f : Forest} {cache : ObjectCache} {d : δ}
      (hshaders : Registry.History events shaders)
      (h : (compileFrame graph s.forest shaders s.cache s.device).result = .ok (r, f, cache, d)) :
      LoadedStep Aside s ⟨f, cache, d⟩

variable {Aside : ObjectCache × δ → ObjectCache × δ → Prop} {s s' : Session δ}

/-- **Nodes carry plain states all along a session.** -/
theorem carriesPlain_kept (h : ReflTransGen (LoadedStep Aside) s s')
    (hs : s.forest.CarriesPlain) : s'.forest.CarriesPlain := by
  refine kept_by_all (P := fun s : Session δ => s.forest.CarriesPlain) (fun s s' h hs => ?_) h hs
  cases h with
  | aside _ => exact hs
  | operate h => exact Operation.carriesPlain h hs
  | frame hshaders h => exact carriesPlain_of_frame hshaders.isPlain h hs
  | compile hshaders h =>
    obtain ⟨a, -, ha, -⟩ := compileFrame_ok_iff.1 h
    exact carriesPlain_of_frame hshaders.isPlain ha hs

end Session

namespace Plan

/-- Whether a plan comes of a session, with shaders that were loaded and compiled. -/
inductive Compiled : Plan → Prop
  | intro {δ : Type} [Device δ] {Aside : ObjectCache × δ → ObjectCache × δ → Prop} {d d' : δ}
      {s : Session δ} {events : List ShaderEvent} {shaders : Registry} {graph : PassGraph}
      {p : Plan} {f : Forest} {cache : ObjectCache}
      (hsession : ReflTransGen (Session.LoadedStep Aside) { device := d } s)
      (hshaders : Registry.History events shaders)
      (h : (compileFrame graph s.forest shaders s.cache s.device).result =
        .ok (.ok p, f, cache, d')) : Compiled p

variable {p p' : Plan}

/-- A step has the accesses that the analysis says. -/
theorem accesses_of_compileStep {δ : Type} [Device δ] {shaders : Registry} {a : Analysis}
    {passes : List Pass} {before : List PlanStep} {i : Nat} {pass : Pass} {s s' : ObjectCache × δ}
    {r : PlanStep}
    (h : ((compileStep shaders a passes before i pass).run s).result = .ok (.ok r, s')) :
    r.accesses = a.accesses i := by
  cases compiles_of_ok h with
  | bare => rfl
  | attached => rfl
  | idle => rfl
  | drawn => rfl

/-- **All states of a plan are plain.** -/
theorem Compiled.isPlain (h : p.Compiled) : ∀ s ∈ p.states, s.IsPlain := by
  obtain ⟨hsession, hshaders, hcompile⟩ := h
  have hcarry := Session.carriesPlain_kept hsession (fun i n hn => by simp at hn)
  obtain ⟨a, ha, hsteps, hend⟩ := exists_of_compiled hcompile
  obtain ⟨-, hall⟩ := compileSteps_ok hsteps
  have hplain := isPlain_of_frame hshaders.isPlain hcarry ha
  intro s hs
  rcases List.mem_append.1 hs with hs | hs
  · obtain ⟨step, hstep, hs⟩ := List.mem_flatMap.1 hs
    obtain ⟨i, hi⟩ := List.mem_iff_getElem?.1 hstep
    obtain ⟨pass, t, t', -, -, -, hcompiled⟩ := hall i step hi
    rcases List.mem_append.1 hs with hs | hs
    · rw [accesses_of_compileStep hcompiled] at hs
      obtain ⟨e, he, rfl⟩ := List.mem_map.1 hs
      exact hplain.accesses i e he
    · rw [(compileStep_takesOver hcompiled).barriers] at hs
      cases hbatch : a.barriers[i]? with
      | none =>
        rw [hbatch] at hs
        simp [TransitionBatch.states, TransitionBatch.empty] at hs
      | some b =>
        rw [hbatch] at hs
        exact hplain.barriers b (List.mem_of_getElem? hbatch) s hs
  · rw [hend] at hs
    exact hplain.endOfFrame s hs

theorem Compiled.isPlain_stage (h : p.Compiled) {m : StageMask} (hm : m ∈ p.stageMasks) :
    m.IsPlain := by
  obtain ⟨s, hs, rfl⟩ := List.mem_map.1 hm
  exact (h.isPlain s hs).stage

theorem Compiled.access_subset (h : p.Compiled) {m : AccessMask} (hm : m ∈ p.accessMasks) :
    m ⊆ AccessMask.listed := by
  obtain ⟨s, hs, hm⟩ := List.mem_flatMap.1 hm
  have hplain := h.isPlain s hs
  rcases List.mem_pair.1 hm with rfl | rfl
  · exact hplain.access
  · exact hplain.srcAccess

end Plan

/-! ## Texts and masks -/

/-- Accesses with names can be read off their text. -/
theorem AccessMask.eq_of_shortText {m m' : AccessMask} (hm : m ⊆ listed) (hm' : m' ⊆ listed)
    (h : m.shortText = m'.shortText) : m = m' := by
  refine Mask.ext fun i => ?_
  rw [← names_shortText_iff hm, h, names_shortText_iff hm']

namespace StageMask.IsPlain

variable {m m' : StageMask}

/-- The text of a plain mask leaves out the stages without names. -/
theorem names_iff (h : m.IsPlain) {i : Nat} :
    Mask.Names vocabulary m.shortText i ↔ i ∈ m ∧ i ∉ unlisted := by
  rw [names_shortText_iff h.listed]
  constructor
  · rintro ⟨hi, hlisted⟩
    exact ⟨hi, fun hunlisted => not_mem_listed_of_unlisted hunlisted hlisted⟩
  · rintro ⟨hi, hunlisted⟩
    rcases Mask.mem_union.1 (Mask.subset_iff.1 h.known i hi) with hlisted | hother
    · exact ⟨hi, hlisted⟩
    · exact absurd hother hunlisted

/-- It is complete if there are none of those. -/
theorem names_all_iff (h : m.IsPlain) :
    (∀ i ∈ m, Mask.Names vocabulary m.shortText i) ↔ m.meets unlisted = false := by
  rw [← Bool.not_eq_true, Mask.meets_iff]
  constructor
  · rintro hall ⟨i, hi, hunlisted⟩
    exact (h.names_iff.1 (hall i hi)).2 hunlisted
  · intro hnone i hi
    exact h.names_iff.2 ⟨hi, fun hunlisted => hnone ⟨i, hi, hunlisted⟩⟩

/-- A plain mask that has stages without names has all of them. -/
theorem mem_unlisted_iff (h : m.IsPlain) {i : Nat} (hi : i ∈ unlisted) :
    i ∈ m ↔ m.meets unlisted = true := by
  constructor
  · intro hm
    exact Mask.meets_iff.2 ⟨i, hm, hi⟩
  · intro hmeets
    have hall : unlisted ⊆ programmable := by decide
    exact Mask.subset_iff.1 (h.together hmeets) i (Mask.subset_iff.1 hall i hi)

/-- **Plain masks with one text are equal if both or neither have stages without names.** -/
theorem eq_iff_of_shortText (h : m.IsPlain) (h' : m'.IsPlain) (htext : m.shortText = m'.shortText) :
    m = m' ↔ m.meets unlisted = m'.meets unlisted := by
  constructor
  · rintro rfl
    rfl
  · intro hmeets
    refine Mask.ext fun i => ?_
    by_cases hi : i ∈ unlisted
    · rw [h.mem_unlisted_iff hi, h'.mem_unlisted_iff hi, hmeets]
    · have hnamed (m : StageMask) : i ∈ m ↔ i ∈ m ∧ i ∉ unlisted := (and_iff_left hi).symm
      rw [hnamed m, hnamed m', ← h.names_iff, htext, h'.names_iff]

end StageMask.IsPlain

/-- **A dump tells the masks of a plan, but for the stages of tessellation and geometry shaders.**
The text of an access mask names all that is in it. The text of a stage mask names all but those
stages, and so hides something exactly if it has one of them; then it has all stages that run
shaders. Two plans of any sessions write one text only for masks that are the same, or of which one
hides those stages and the other has none of them. -/
theorem dump_names_masks {p p' : Plan} (hp : p.Compiled) (hp' : p'.Compiled) :
    (∀ m ∈ p.accessMasks, (∀ i, Mask.Names AccessMask.vocabulary m.shortText i ↔ i ∈ m) ∧
      ∀ m' ∈ p'.accessMasks, m.shortText = m'.shortText → m = m') ∧
    ∀ m ∈ p.stageMasks,
      (∀ i, Mask.Names StageMask.vocabulary m.shortText i ↔ i ∈ m ∧ i ∉ StageMask.unlisted) ∧
      ((∀ i ∈ m, Mask.Names StageMask.vocabulary m.shortText i) ↔
        m.meets StageMask.unlisted = false) ∧
      (m.meets StageMask.unlisted = true → StageMask.programmable ⊆ m) ∧
      ∀ m' ∈ p'.stageMasks, m.shortText = m'.shortText →
        (m = m' ↔ m.meets StageMask.unlisted = m'.meets StageMask.unlisted) := by
  refine ⟨fun m hm => ?_, fun m hm => ?_⟩
  · have hlisted := hp.access_subset hm
    refine ⟨fun i => AccessMask.names_shortText_iff hlisted, fun m' hm' htext => ?_⟩
    exact AccessMask.eq_of_shortText hlisted (hp'.access_subset hm') htext
  · have hplain := hp.isPlain_stage hm
    refine ⟨fun i => hplain.names_iff, hplain.names_all_iff, hplain.together,
      fun m' hm' htext => ?_⟩
    exact hplain.eq_iff_of_shortText (hp'.isPlain_stage hm') htext

/-! ### A film in a darkroom

Two draws see the film through one layout document. The shader of the first has no sources, that of
the second has one for every stage that can have one. -/

namespace Darkroom

/-- A document with one uniform buffer, which no stage in particular sees. -/
def layout : List UInt8 := Registry.Kiln.bytes "[[[0, \"buffer\", \"grain\"]]]"

def files : FileTree where
  entries := [
    (["bare.json"], .file layout),
    (["full.json"], .file layout),
    (["full.vert"], .file []),
    (["full.frag"], .file []),
    (["full.comp"], .file []),
    (["full.task"], .file []),
    (["full.mesh"], .file [])]

def grain (visibility : ShaderStages) : ShaderBinding :=
  ⟨"grain", 0, visibility, .frame, 1, .uniformBuffer, .buffer []⟩

def bare : Shader := ⟨"bare", [grain .all], [], []⟩

def sources : Shader.Sources :=
  ShaderStage.all.map fun stage => (stage, ⟨"full." ++ stage.suffix, ""⟩)

def full : Shader := ⟨"full", [grain (Shader.visibleStages sources)], sources, []⟩

theorem read_eq :
    (Shader.read files "" "bare").result.toOption.bind (·.toOption) = some bare ∧
      (Shader.read files "" "full").result.toOption.bind (·.toOption) = some full := by
  decide +kernel

def shaders : Registry := (Registry.insert {} bare).insert full

theorem history : Registry.History [.loaded "bare", .loaded "full"] shaders :=
  .loaded (.loaded .start (Registry.load_of_read read_eq.1 _)) (Registry.load_of_read read_eq.2 _)

def forest : Forest where
  nodes := [{
    name := "film"
    residency := .persistent
    payload := .buffer (.uniform 16) (some ⟨1⟩)
    life := 1 }]
  life := 1

def device : Headless where
  lastHandle := 1
  created := { buffers := 1 }
  buffers := [(⟨1⟩, "film")]

theorem steps :
    ReflTransGen (Session.LoadedStep fun _ _ => False) { device := {} }
      ⟨forest, {}, device⟩ :=
  (ReflTransGen.single (.operate (o := .addBuffer "film" (.uniform 16) .persistent) rfl)).tail
    (.operate (o := .mount "film") rfl)

def draw (name phase : String) : Pass := ⟨name, .draw phase, [.bound "film" "grain" .read]⟩

def graph : PassGraph where
  passes := [draw "expose" "bare", draw "develop" "full"]

/-- The stages that have source files. -/
def sourced : StageMask :=
  .vertexShader ∪ .fragmentShader ∪ .computeShader ∪ .taskShader ∪ .meshShader

def step (index : Nat) (name phase : String) (stage : StageMask) : PlanStep where
  index := index
  name := name
  kind := .draw phase
  accesses := [("film", .ofBuffer stage .uniformRead)]

def plan : Plan where
  generation := 0
  steps := [step 0 "expose" "bare" .programmable, step 1 "develop" "full" sourced]
  endOfFrame := .empty

theorem compile_eq : ∃ f, (compileFrame graph forest shaders {} device).result =
    .ok (.ok plan, f, {}, device) := ⟨_, rfl⟩

theorem compiled : plan.Compiled := by
  obtain ⟨f, h⟩ := compile_eq
  exact .intro steps history h

end Darkroom

/-- Both draws write one text for their stages, and read the buffer at different ones. -/
theorem dump_names_masks_darkroom : Darkroom.plan.Compiled ∧
    (∀ i, Mask.Names AccessMask.vocabulary AccessMask.uniformRead.shortText i ↔
      i ∈ AccessMask.uniformRead) ∧
    StageMask.programmable.shortText = Darkroom.sourced.shortText ∧
    StageMask.programmable.meets StageMask.unlisted ≠ Darkroom.sourced.meets StageMask.unlisted ∧
    StageMask.programmable ≠ Darkroom.sourced := by
  obtain ⟨haccess, hstage⟩ := dump_names_masks Darkroom.compiled Darkroom.compiled
  obtain ⟨hnames, -⟩ := haccess .uniformRead (by decide)
  obtain ⟨-, -, -, htexts⟩ := hstage .programmable (by decide)
  have htext : StageMask.programmable.shortText = Darkroom.sourced.shortText := by decide +kernel
  have hdiffer : StageMask.programmable.meets StageMask.unlisted ≠
      Darkroom.sourced.meets StageMask.unlisted := by decide
  exact ⟨Darkroom.compiled, hnames, htext, hdiffer,
    fun heq => hdiffer ((htexts Darkroom.sourced (by decide) htext).1 heq)⟩

/-- **A dump does hide stages**, and plans have different masks with one text: all stages that run
shaders, and those of them that have source files. -/
theorem not_forall_dumped :
    (¬ ∀ p : Plan, p.Compiled → ∀ m ∈ p.stageMasks, ∀ i ∈ m,
      Mask.Names StageMask.vocabulary m.shortText i) ∧
    ¬ ∀ p : Plan, p.Compiled → ∀ m ∈ p.stageMasks, ∀ m' ∈ p.stageMasks,
      m.shortText = m'.shortText → m = m' := by
  have hmem : StageMask.programmable ∈ Darkroom.plan.stageMasks := by decide
  refine ⟨fun hall => ?_, fun hall => ?_⟩
  · have hplain := Darkroom.compiled.isPlain_stage hmem
    have hnone := hplain.names_all_iff.1 (hall _ Darkroom.compiled _ hmem)
    exact absurd hnone (by decide)
  · have hsame := hall _ Darkroom.compiled _ hmem Darkroom.sourced (by decide) (by decide +kernel)
    exact absurd hsame (by decide)

end FrameGraph
