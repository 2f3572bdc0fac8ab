import FrameGraph.Proofs.AtomicLoads
import FrameGraph.Proofs.MaskTexts
import FrameGraph.Proofs.SupportedAccesses
import FrameGraph.Proofs.WriteOrder

/-!
# Masks with names

The dump has a name for every access that a use can come to, and for every stage but three: those of
tessellation and geometry shaders, for which there are no source files. A binding is seen there only
if it is seen everywhere, because its shader has no sources at all (`ShaderStages.IsPlain`,
`Registry.History.isPlain`). So a use comes to stages that have names, or to all that run shaders
(`StageMask.IsPlain`, `Usage.isPlain_classify`), and so do all uses of a node in a pass together
(`Timeline.isPlain_usageIn`).
-/

set_option autoImplicit false

namespace FrameGraph

/-! ## Stages without names -/

namespace StageMask

/-- The stages of shaders that the dump has no names for. -/
def unlisted : StageMask := tessellationControl ∪ tessellationEvaluation ∪ geometryShader

/-- Whether a mask has stages with names, and those without names only along with all that run
shaders. -/
structure IsPlain (m : StageMask) : Prop where
  listed : m.meets StageMask.listed = true
  known : m ⊆ StageMask.listed ∪ unlisted
  together : m.meets unlisted = true → programmable ⊆ m

variable {m m' : StageMask}

/-- No stage is both with and without a name. -/
theorem not_mem_listed_of_unlisted {i : Nat} (h : i ∈ unlisted) : i ∉ listed := by
  intro hlisted
  have hmeets : listed.meets unlisted = true := Mask.meets_iff.2 ⟨i, hlisted, h⟩
  exact absurd hmeets (by decide)

namespace IsPlain

/-- Stages that all have names are plain. -/
theorem of_listed (hne : m.meets StageMask.listed = true) (h : m ⊆ StageMask.listed) :
    m.IsPlain where
  listed := hne
  known := Mask.subset_trans h (Mask.subset_union_left _ _)
  together hmeets := by
    obtain ⟨i, hi, hunlisted⟩ := Mask.meets_iff.1 hmeets
    exact absurd (Mask.subset_iff.1 h i hi) (not_mem_listed_of_unlisted hunlisted)

/-- So are all stages that run shaders, with others that are known. -/
theorem of_programmable (hknown : m ⊆ StageMask.listed ∪ unlisted) (h : programmable ⊆ m) :
    m.IsPlain where
  listed := Mask.meets_iff.2
    ⟨3, Mask.subset_iff.1 h 3 (by decide), show 3 ∈ StageMask.listed by decide⟩
  known := hknown
  together _ := h

theorem union (h : m.IsPlain) (h' : m'.IsPlain) : (m ∪ m').IsPlain where
  listed := by
    obtain ⟨i, hi, hlisted⟩ := Mask.meets_iff.1 h.listed
    exact Mask.meets_iff.2 ⟨i, Mask.mem_union.2 (.inl hi), hlisted⟩
  known := Mask.union_subset h.known h'.known
  together hmeets := by
    obtain ⟨i, hi, hunlisted⟩ := Mask.meets_iff.1 hmeets
    refine Mask.subset_iff.2 fun j hj => Mask.mem_union.2 ?_
    rcases Mask.mem_union.1 hi with hi | hi
    · exact .inl (Mask.subset_iff.1 (h.together (Mask.meets_iff.2 ⟨i, hi, hunlisted⟩)) j hj)
    · exact .inr (Mask.subset_iff.1 (h'.together (Mask.meets_iff.2 ⟨i, hi, hunlisted⟩)) j hj)

end IsPlain

end StageMask

/-! ## Who sees a binding -/

namespace ShaderStages

/-- The stages that no source file is for. -/
def unsourced : ShaderStages := tessellationControl ∪ tessellationEvaluation ∪ geometry

/-- Whether a visibility has stages without source files only where it has all stages. -/
def IsPlain (v : ShaderStages) : Prop := v.meets unsourced = true → all ⊆ v

end ShaderStages

theorem ShaderStage.not_mem_unsourced {stage : ShaderStage} {i : Nat} (hi : i ∈ stage.flag) :
    i ∉ ShaderStages.unsourced := by
  intro hunsourced
  have hmeets : stage.flag.meets ShaderStages.unsourced = true :=
    Mask.meets_iff.2 ⟨i, hi, hunsourced⟩
  cases stage <;> exact absurd hmeets (by decide)

/-- **What is seen at a stage without source files is seen at all stages**: it is declared for no
stage in particular, by a shader without sources. -/
theorem Shader.Resolves.isPlain {doc : LayoutDocument} {sources : Shader.Sources}
    {bs : List ShaderBinding} (h : Shader.Resolves doc sources bs) {b : ShaderBinding}
    (hb : b ∈ bs) : b.visibility.IsPlain := by
  intro hmeets
  obtain ⟨i, hi, hunsourced⟩ := Mask.meets_iff.1 hmeets
  rcases (h.seen b hb i).1 hi with ⟨hd, ⟨hnone, -⟩ | ⟨e, -, hflag⟩⟩ | ⟨stage, -, -, -, hflag⟩
  · exact Mask.subset_iff.2 fun j hj => (h.seen b hb j).2 (.inl ⟨hd, .inl ⟨hnone, hj⟩⟩)
  · exact absurd hunsourced (ShaderStage.not_mem_unsourced hflag)
  · exact absurd hunsourced (ShaderStage.not_mem_unsourced hflag)

/-- A shader that was read has the bindings of a document. -/
theorem Shader.isPlain_of_read {files : FileTree} {dir name : String} {s : Shader}
    (h : (Shader.read files dir name).result = .ok (.ok s)) {b : ShaderBinding}
    (hb : b ∈ s.bindings) : b.visibility.IsPlain := by
  rcases Shader.read_spec files dir name with ⟨e, -, herror⟩ | ⟨-, s', hs', hread⟩
  · rw [h] at herror
    cases herror
  · rw [h] at hread
    obtain rfl := Except.ok.inj (Except.ok.inj hread)
    obtain ⟨_, doc, -, -, hresolves⟩ := hs'.bindings
    exact hresolves.isPlain hb

namespace Registry

/-- Whether the visibilities of all bindings are plain. -/
def IsPlain (r : Registry) : Prop :=
  ∀ path s, r.shader? path = some s → ∀ b ∈ s.bindings, b.visibility.IsPlain

/-- **Whatever was loaded, and compiled, has bindings of plain visibility.** -/
theorem History.isPlain {events : List ShaderEvent} {r : Registry} (h : History events r) :
    r.IsPlain := by
  induction h with
  | start =>
    intro path s hs
    rw [shader?, node?] at hs
    simp at hs
  | loaded _ hload ih =>
    intro path s hs b hb
    obtain ⟨hread, rfl⟩ := load_ok_iff.1 hload
    rw [shader?_insert] at hs
    split at hs
    · obtain rfl := Option.some.inj hs
      exact Shader.isPlain_of_read hread hb
    · exact ih path s hs b hb
  | notLoaded _ hload ih =>
    obtain ⟨-, rfl⟩ := load_ok_iff.1 hload
    exact ih
  | compiled hbefore hname hcompile htries ih =>
    intro path s hs b hb
    have hr := hbefore.recorded.sound
    obtain ⟨rfl, -⟩ := eq_addModules hr.toWellFormed hname hcompile htries
    rw [shader?_addModules (htries.fits hr).placed] at hs
    -- a compile adds modules, and leaves the bindings
    obtain ⟨before, hbefore, rfl⟩ := Option.map_eq_some_iff.1 hs
    exact ih path before hbefore b hb

end Registry

/-! ## What a use comes to -/

/-- Whether a use has stages that are plain, and accesses with names. -/
structure Usage.IsPlain (u : Usage) : Prop where
  stage : u.stage.IsPlain
  access : u.access ⊆ AccessMask.listed

namespace Usage

theorem IsPlain.merge {u v : Usage} (hu : u.IsPlain) (hv : v.IsPlain) : (u.merge v).IsPlain where
  stage := hu.stage.union hv.stage
  access := Mask.union_subset hu.access hv.access

/-- Where all stages have names, and all accesses. -/
theorem IsPlain.of_listed {u : Usage} (hne : u.stage.meets StageMask.listed = true)
    (hstage : u.stage ⊆ StageMask.listed) (haccess : u.access ⊆ AccessMask.listed) : u.IsPlain :=
  ⟨.of_listed hne hstage, haccess⟩

section
variable {visibility visibility' : ShaderStages} {i : Nat}

theorem mem_namedStages :
    i ∈ namedStages visibility ↔ ∃ e ∈ stageTable, e.1 ⊆ visibility ∧ i ∈ e.2 := by
  rw [namedStages, Mask.mem_foldl_union]
  simp [and_assoc]

theorem namedStages_mono (h : visibility ⊆ visibility') :
    namedStages visibility ⊆ namedStages visibility' := by
  refine Mask.subset_iff.2 fun i hi => ?_
  obtain ⟨e, he, hsubset, hie⟩ := mem_namedStages.1 hi
  exact mem_namedStages.2 ⟨e, he, Mask.subset_trans hsubset h, hie⟩

/-- **A plain visibility comes to plain stages.** -/
theorem isPlain_namedStages (h : visibility.IsPlain) (hne : namedStages visibility ≠ ∅) :
    (namedStages visibility).IsPlain := by
  have hknown : namedStages visibility ⊆ StageMask.listed ∪ StageMask.unlisted := by
    have hall : StageMask.programmable ⊆ StageMask.listed ∪ StageMask.unlisted := by decide
    exact Mask.subset_trans (namedStages_subset visibility) hall
  cases hmeets : (namedStages visibility).meets StageMask.unlisted with
  | true =>
    -- only a stage without source files comes to a stage without a name
    have htable : ∀ e ∈ stageTable, e.2.meets StageMask.unlisted = true →
        e.1.meets ShaderStages.unsourced = true := by decide
    obtain ⟨i, hi, hunlisted⟩ := Mask.meets_iff.1 hmeets
    obtain ⟨e, he, hsubset, hie⟩ := mem_namedStages.1 hi
    obtain ⟨j, hj, hunsourced⟩ :=
      Mask.meets_iff.1 (htable e he (Mask.meets_iff.2 ⟨i, hie, hunlisted⟩))
    have hall := h (Mask.meets_iff.2 ⟨j, Mask.subset_iff.1 hsubset j hj, hunsourced⟩)
    exact .of_programmable hknown (namedStages_mono hall)
  | false =>
    have hlisted : namedStages visibility ⊆ StageMask.listed := by
      refine Mask.subset_iff.2 fun i hi => ?_
      rcases Mask.mem_union.1 (Mask.subset_iff.1 hknown i hi) with hlisted | hunlisted
      · exact hlisted
      · rw [Mask.meets_iff.2 ⟨i, hi, hunlisted⟩] at hmeets
        cases hmeets
    refine .of_listed ?_ hlisted
    obtain ⟨i, hi⟩ := Mask.exists_mem hne
    exact Mask.meets_iff.2 ⟨i, hi, Mask.subset_iff.1 hlisted i hi⟩

theorem isPlain_visibleAt {s : StageMask} (h : visibility.IsPlain)
    (hs : (visibleAt visibility).result = .ok s) : s.IsPlain := by
  unfold visibleAt at hs
  split at hs
  · cases hs
    exact .of_listed (by decide) (by decide)
  · next hne =>
    cases hs
    exact isPlain_namedStages h hne

end

section
variable {pass : String} {use : Use} {n : Node} {u : Usage}

theorem isPlain_ofOutput (h : ofOutput pass use = .ok u) : u.IsPlain := by
  unfold ofOutput at h
  dsimp only at h
  split at h
  · split at h
    · cases h
      exact .of_listed (by decide) (by decide) (by decide)
    · cases h
      exact .of_listed (by decide) (by decide) (by decide)
    · cases h
  · split at h
    · split at h
      · cases h
        exact .of_listed (by decide) (by decide) (by decide)
      · cases h
        exact .of_listed (by decide) (by decide) (by decide)
      · cases h
    · cases h

theorem isPlain_ofInput (use : Use) : (ofInput use).IsPlain := by
  unfold ofInput
  dsimp only
  cases use.kind.isDepthOrStencil with
  | true =>
    split
    · exact .of_listed (by decide) (by decide) (by decide)
    · exact .of_listed (by decide) (by decide) (by decide)
  | false =>
    split
    · exact .of_listed (by decide) (by decide) (by decide)
    · exact .of_listed (by decide) (by decide) (by decide)

theorem isPlain_ofAttachment (h : ofAttachment pass use n = .ok u) : u.IsPlain := by
  unfold ofAttachment at h
  split at h
  · cases h
  · split at h
    · cases h
    · split at h
      · exact isPlain_ofOutput h
      · split at h
        · split at h
          · cases h
          · cases h
            exact .of_listed (by decide) (by decide) (by decide)
        · cases h
        · cases h
          exact isPlain_ofInput use

theorem isPlain_ofIndirect (h : ofIndirect pass use n = .ok u) : u.IsPlain := by
  unfold ofIndirect at h
  split at h
  · cases h
  · cases h
    exact .of_listed (by decide) (by decide) (by decide)

/-- The accesses of a shader have names. -/
theorem shaderAccess_subset (mode : AccessMode) (uniform : Bool) :
    shaderAccess mode uniform ⊆ AccessMask.listed := by
  cases mode <;> cases uniform <;> decide

theorem isPlain_ofDraw {shader : Shader} (hshader : ∀ b ∈ shader.bindings, b.visibility.IsPlain)
    (h : (ofDraw pass use n shader).result = .ok u) : u.IsPlain := by
  unfold ofDraw at h
  split at h
  · exact isPlain_ofIndirect h
  · simp only [Traced.result_bind, Except.bind_eq_ok_iff] at h
    obtain ⟨b, hb, stage, hstage, h⟩ := h
    cases h
    have hmem : b ∈ shader.bindings := by
      change findBinding pass use shader = .ok b at hb
      unfold findBinding at hb
      split at hb
      · next b' hfound =>
        obtain rfl := Except.ok.inj hb
        exact List.mem_of_find?_eq_some hfound
      · cases hb
    exact ⟨isPlain_visibleAt (hshader b hmem) hstage, shaderAccess_subset _ _⟩

theorem isPlain_ofCompute {shader : Option Shader} (h : ofCompute pass use n shader = .ok u) :
    u.IsPlain := by
  have hshader (uniform : Bool) :
      IsPlain ⟨StageMask.computeShader, shaderAccess use.mode uniform⟩ :=
    .of_listed (show StageMask.computeShader.meets _ = true by decide)
      (show StageMask.computeShader ⊆ _ by decide) (shaderAccess_subset _ _)
  unfold ofCompute at h
  split at h
  · exact isPlain_ofIndirect h
  · dsimp only at h
    split at h
    · obtain ⟨b, -, h⟩ := Except.bind_eq_ok_iff.1 h
      cases h
      exact hshader _
    · cases h
      exact hshader _

theorem isPlain_ofCopy (use : Use) : (ofCopy use).IsPlain := by
  unfold ofCopy
  cases use.mode <;> exact .of_listed (by decide) (by decide) (by decide)

/-- **What an accepted use comes to is plain**, if the shaders are. -/
theorem isPlain_classify {shaders : Registry} (hshaders : shaders.IsPlain) {pass : Pass}
    (h : (classify shaders pass use n).result = .ok u) : u.IsPlain := by
  unfold classify at h
  split at h
  · exact isPlain_ofAttachment h
  · next phase _ =>
    simp only [Traced.result_bind, Except.bind_eq_ok_iff] at h
    obtain ⟨shader, hshader, h⟩ := h
    change shaders.shader phase = .ok shader at hshader
    unfold Registry.shader at hshader
    split at hshader
    · next s hs =>
      obtain rfl := Except.ok.inj hshader
      exact isPlain_ofDraw (hshaders phase s hs) h
    · cases hshader
  · simp only [Traced.result_bind, Except.bind_eq_ok_iff] at h
    obtain ⟨shader, -, h⟩ := h
    exact isPlain_ofCompute h
  · cases h
    exact isPlain_ofCopy use

end

end Usage

/-- Uses that are plain are plain together. -/
theorem Timeline.isPlain_usageIn {index : Nat} {uses : List NodeUse} {u : Usage}
    (h : usageIn index uses = some u) (huses : ∀ v, ⟨index, v⟩ ∈ uses → v.IsPlain) :
    u.IsPlain := by
  have hfold (vs : List Usage) (w : Usage) (hw : w.IsPlain) (hvs : ∀ v ∈ vs, v.IsPlain) :
      (vs.foldl Usage.merge w).IsPlain := by
    induction vs generalizing w with
    | nil => exact hw
    | cons v vs ih =>
      obtain ⟨hv, hvs⟩ := List.forall_mem_cons.1 hvs
      exact ih _ (hw.merge hv) hvs
  unfold usageIn at h
  split at h
  · cases h
  · next v vs hv =>
    obtain rfl := Option.some.inj h
    have hall : ∀ w ∈ v :: vs, w.IsPlain := fun w hw => huses w (mem_usesOf.1 (hv ▸ hw))
    obtain ⟨hv, hvs⟩ := List.forall_mem_cons.1 hall
    exact hfold vs v hv hvs

end FrameGraph
