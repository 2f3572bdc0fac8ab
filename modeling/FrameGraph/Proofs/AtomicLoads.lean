import FrameGraph.Proofs.ResolvedBindings

/-!
# Loads change one shader or nothing

A load reads the layout document, then the sources, then resolves the bindings, and may stop at each
of these (`Shader.Unloadable`). Only what got through all of them is put into the registry. So a
load that fails leaves the registry as it was, whatever was loaded or compiled in it before, and one
that does not fail changes what its own name stands for and nothing else
(`Registry.load_replaces_or_keeps`).
-/

set_option autoImplicit false

namespace FrameGraph

/-- A traversal goes through if all members do, and keeps what they give. -/
theorem filterMapM_eq_ok_iff {ε α β : Type} {f : α → Except ε (Option β)} {l : List α}
    {bs : List β} : l.filterMapM f = .ok bs ↔
      ∃ os, List.Forall₂ (fun a o => f a = .ok o) l os ∧ bs = os.filterMap id := by
  induction l generalizing bs with
  | nil =>
    constructor
    · intro h
      exact ⟨[], .nil, (Except.ok.inj h).symm⟩
    · rintro ⟨os, hos, rfl⟩
      cases hos
      rfl
  | cons a l ih =>
    simp only [List.filterMapM_cons, Except.bind_eq_ok_iff, List.forall₂_cons_left_iff]
    constructor
    · rintro ⟨o, ho, h⟩
      cases o with
      | none =>
        obtain ⟨os, hos, rfl⟩ := ih.1 h
        exact ⟨none :: os, ⟨none, os, ho, hos, rfl⟩, rfl⟩
      | some b =>
        obtain ⟨rest, hrest, h⟩ := Except.bind_eq_ok_iff.1 h
        obtain ⟨os, hos, rfl⟩ := ih.1 hrest
        exact ⟨some b :: os, ⟨some b, os, ho, hos, rfl⟩, (Except.ok.inj h).symm⟩
    · rintro ⟨-, ⟨o, os, ho, hos, rfl⟩, rfl⟩
      refine ⟨o, ho, ?_⟩
      have hrest := ih.2 ⟨os, hos, rfl⟩
      cases o with
      | none => exact hrest
      | some b => exact Except.bind_eq_ok_iff.2 ⟨_, hrest, rfl⟩

/-- A traversal that stops has met a member that stops it. -/
theorem exists_of_filterMapM_error {ε α β : Type} {f : α → Except ε (Option β)} {l : List α} {e : ε}
    (h : l.filterMapM f = .error e) : ∃ a ∈ l, f a = .error e := by
  induction l with
  | nil => cases h
  | cons a l ih =>
    -- Behind a member that goes through, kept or not, it is the rest that stops.
    have hrest (hl : l.filterMapM f = .error e) : ∃ a' ∈ a :: l, f a' = .error e := by
      obtain ⟨a', ha', hstop⟩ := ih hl
      exact ⟨a', List.mem_cons_of_mem a ha', hstop⟩
    rw [List.filterMapM_cons, Except.bind_eq_error_iff] at h
    obtain ha | ⟨_ | b, -, h⟩ := h
    · exact ⟨a, List.mem_cons_self, ha⟩
    · exact hrest h
    · obtain hl | ⟨bs, -, h⟩ := Except.bind_eq_error_iff.1 h
      · exact hrest hl
      · cases h

namespace Shader

/-- The path of a shader's source for a stage. -/
def sourcePath (dir name : String) (stage : ShaderStage) : String :=
  joinPath dir (name ++ "." ++ stage.suffix)

/-- The path of a shader's layout document. -/
def layoutPath (dir name : String) : String := joinPath dir (name ++ ".json")

/-- What keeps a shader from being loaded, and the error that reports it: a layout document that
cannot be read or is none, a source that is there and cannot be read, or a flaw of the bindings. -/
inductive Unloadable (files : FileTree) (dir name : String) : ShaderError → Prop
  | noLayout {cause : IoError} (hread : files.readText (layoutPath dir name) = .error cause) :
      Unloadable files dir name (.unreadableLayout (layoutPath dir name) cause)
  | malformed {text : String} (hread : files.readText (layoutPath dir name) = .ok text)
      (hparse : LayoutDocument.parse? text = none) :
      Unloadable files dir name (.malformedLayout (layoutPath dir name))
  | noSource {doc : LayoutDocument} {stage : ShaderStage} {cause : IoError}
      (hdoc : readLayout files dir name = .ok doc)
      (hfile : files.isFile (sourcePath dir name stage) = true)
      (hread : files.readText (sourcePath dir name stage) = .error cause) :
      Unloadable files dir name (.unreadableSource (sourcePath dir name stage) cause)
  | flawed {doc : LayoutDocument} {sources : Sources} {e : ShaderError}
      (hdoc : readLayout files dir name = .ok doc)
      (hsources : readSources files dir name = .ok sources) (hflaw : Flaw name doc sources e) :
      Unloadable files dir name e

variable {files : FileTree} {dir name : String} {doc : LayoutDocument} {sources : Sources}
  {e : ShaderError}

/-! ## What is read -/

theorem unloadable_of_readLayout (h : readLayout files dir name = .error e) :
    Unloadable files dir name e := by
  unfold readLayout at h
  dsimp only at h
  split at h
  · next hread =>
    obtain rfl := Except.error.inj h
    exact .noLayout hread
  · next hread =>
    split at h
    · cases h
    · next hparse =>
      obtain rfl := Except.error.inj h
      exact .malformed hread hparse

theorem unloadable_of_readSources (hdoc : readLayout files dir name = .ok doc)
    (h : readSources files dir name = .error e) : Unloadable files dir name e := by
  obtain ⟨stage, -, hstage⟩ := exists_of_filterMapM_error h
  dsimp only at hstage
  split at hstage
  · next hfile =>
    split at hstage
    · cases hstage
    · next hread =>
      obtain rfl := Except.error.inj hstage
      exact .noSource hdoc hfile hread
  · cases hstage

/-- Where the sources are read, each that is there can be. -/
theorem exists_readText_of_readSources (h : readSources files dir name = .ok sources)
    {stage : ShaderStage} (hfile : files.isFile (sourcePath dir name stage) = true) :
    ∃ text, files.readText (sourcePath dir name stage) = .ok text := by
  obtain ⟨os, hos, -⟩ := filterMapM_eq_ok_iff.1 h
  obtain ⟨o, -, hstage⟩ := exists_right_of_mem hos stage.mem_all
  rw [sourcePath] at hfile ⊢
  dsimp only at hstage
  rw [if_pos hfile] at hstage
  split at hstage
  · next text hread => exact ⟨text, hread⟩
  · cases hstage

/-- **The sources are those that are there**, each with its text. -/
theorem mem_sources_iff (h : readSources files dir name = .ok sources) {stage : ShaderStage}
    {source : ShaderSource} : (stage, source) ∈ sources ↔
      source.path = sourcePath dir name stage ∧ files.isFile source.path = true ∧
        files.readText source.path = .ok source.text := by
  obtain ⟨os, hos, rfl⟩ := filterMapM_eq_ok_iff.1 h
  simp only [List.mem_filterMap, id, exists_eq_right]
  constructor
  · intro hmem
    obtain ⟨stage', -, hstage⟩ := exists_left_of_mem hos hmem
    dsimp only at hstage
    split at hstage
    · next hfile =>
      split at hstage
      · next hread =>
        obtain ⟨rfl, rfl⟩ := Prod.mk.inj (Option.some.inj (Except.ok.inj hstage))
        exact ⟨rfl, hfile, hread⟩
      · cases hstage
    · cases hstage
  · rintro ⟨hpath, hfile, hread⟩
    obtain ⟨o, ho, hstage⟩ := exists_right_of_mem hos stage.mem_all
    rw [hpath, sourcePath] at hfile hread
    dsimp only at hstage
    rw [if_pos hfile, hread] at hstage
    obtain rfl := Except.ok.inj hstage
    obtain ⟨path, text⟩ := source
    obtain rfl : path = _ := hpath
    exact ho

theorem result_read_of_resolved (hdoc : readLayout files dir name = .ok doc)
    (hsources : readSources files dir name = .ok sources)
    {resolved : Except ShaderError (List ShaderBinding)}
    (hresolved : (resolveBindings name doc sources).result = .ok resolved) :
    (read files dir name).result =
      .ok (resolved.map fun bs => { name, bindings := bs, sources }) := by
  rw [read, hdoc, hsources]
  refine (Traced.result_bind (resolveBindings name doc sources) _).trans
    (Except.bind_eq_ok_iff.2 ⟨resolved, hresolved, ?_⟩)
  cases resolved <;> rfl

/-- What a load finds under a name: the sources that are there, the bindings of the document, and
no modules. -/
structure LoadsAs (files : FileTree) (dir name : String) (s : Shader) : Prop where
  name_eq : s.name = name
  modules : s.modules = []
  sources : ∀ stage source, (stage, source) ∈ s.sources ↔
    source.path = sourcePath dir name stage ∧ files.isFile source.path = true ∧
      files.readText source.path = .ok source.text
  stages : (s.sources.map (·.1)).Sublist ShaderStage.all
  bindings : ∃ text doc, files.readText (layoutPath dir name) = .ok text ∧
    LayoutDocument.parse? text = some doc ∧ Resolves doc s.sources s.bindings

theorem readLayout_eq_ok_iff : readLayout files dir name = .ok doc ↔
    ∃ text, files.readText (layoutPath dir name) = .ok text ∧
      LayoutDocument.parse? text = some doc := by
  unfold readLayout layoutPath
  dsimp only
  cases files.readText (joinPath dir (name ++ ".json")) with
  | error cause => simp
  | ok text =>
    cases hparse : LayoutDocument.parse? text <;> simp [hparse]

theorem not_unloadable_of_resolved (hdoc : readLayout files dir name = .ok doc)
    (hsources : readSources files dir name = .ok sources)
    (hflawless : ∀ e, ¬ Flaw name doc sources e) : ¬ Unloadable files dir name e := by
  obtain ⟨text, htext, hparse⟩ := readLayout_eq_ok_iff.1 hdoc
  intro h
  cases h with
  | noLayout hread =>
    rw [htext] at hread
    cases hread
  | malformed hread hnone =>
    obtain rfl := Except.ok.inj (htext.symm.trans hread)
    rw [hparse] at hnone
    cases hnone
  | noSource _ hfile hread =>
    obtain ⟨text, htext⟩ := exists_readText_of_readSources hsources hfile
    rw [htext] at hread
    cases hread
  | flawed hdoc' hsources' hflaw =>
    obtain rfl := Except.ok.inj (hdoc.symm.trans hdoc')
    obtain rfl := Except.ok.inj (hsources.symm.trans hsources')
    exact hflawless _ hflaw

/-- **A shader is read, or something keeps it from being loaded.** -/
theorem read_spec (files : FileTree) (dir name : String) :
    (∃ e, Unloadable files dir name e ∧ (read files dir name).result = .ok (.error e)) ∨
      (∀ e, ¬ Unloadable files dir name e) ∧ ∃ s, LoadsAs files dir name s ∧
        (read files dir name).result = .ok (.ok s) := by
  cases hdoc : readLayout files dir name with
  | error e =>
    refine .inl ⟨e, unloadable_of_readLayout hdoc, ?_⟩
    rw [read, hdoc]
    rfl
  | ok doc =>
    cases hsources : readSources files dir name with
    | error e =>
      refine .inl ⟨e, unloadable_of_readSources hdoc hsources, ?_⟩
      rw [read, hdoc, hsources]
      rfl
    | ok sources =>
      have hstages := readSources_sublist hsources
      rcases resolveBindings_spec name doc hstages with
        ⟨e, hflaw, hresult⟩ | ⟨hflawless, bs, hbs, hresult⟩
      · exact .inl ⟨e, .flawed hdoc hsources hflaw,
          result_read_of_resolved hdoc hsources hresult⟩
      · obtain ⟨text, htext, hparse⟩ := readLayout_eq_ok_iff.1 hdoc
        refine .inr ⟨fun e => not_unloadable_of_resolved hdoc hsources hflawless,
          { name, bindings := bs, sources }, ?_, result_read_of_resolved hdoc hsources hresult⟩
        exact ⟨rfl, rfl, fun _ _ => mem_sources_iff hsources, hstages, text, doc, htext, hparse,
          hbs⟩

end Shader

/-! ## What a load changes -/

namespace Registry

variable {r : Registry} {s : Shader} {path : String}

/-- What a registry keeps when a shader is put into it: every path stays where it was and below what
it was, and every shader but that of the name stays. -/
structure Replaces (r : Registry) (s : Shader) (r' : Registry) : Prop where
  shader : r'.shader? s.name = some s
  others : ∀ path, path ≠ s.name → r'.shader? path = r.shader? path
  nodes : ∀ (i : Nat) (n : ShaderNode), r.nodes[i]? = some n →
    r'.nodes[i]? = some { n with shader := if n.path = s.name then some s else n.shader }
  keys : ∀ path, path ∈ r'.keys ↔ path ∈ r.keys ∨ path ∈ paths s.name

theorem mem_foldl_addKey {ks ps : List String} :
    path ∈ ps.foldl addKey ks ↔ path ∈ ks ∨ path ∈ ps := by
  induction ps generalizing ks with
  | nil => simp
  | cons p ps ih =>
    rw [List.foldl_cons, ih, addKey]
    split
    · next hp =>
      simp only [List.mem_cons]
      grind
    · simp [or_assoc]

theorem nodes_insert {i : Nat} {n : ShaderNode} (hn : r.nodes[i]? = some n) (s : Shader) :
    (r.insert s).nodes[i]? =
      some { n with shader := if n.path = s.name then some s else n.shader } := by
  obtain ⟨more, hnodes, -⟩ := r.ensureAll_nodes none (paths s.name)
  obtain ⟨hi, -⟩ := List.getElem?_eq_some_iff.1 hn
  rw [insert, List.getElem?_map, hnodes, List.getElem?_append_left hi, hn, Option.map_some]
  split <;> rfl

/-- **Putting a shader in** replaces what its name stands for. -/
theorem replaces_insert (r : Registry) (s : Shader) : r.Replaces s (r.insert s) where
  shader := by rw [shader?_insert, if_pos rfl]
  others path hpath := by rw [shader?_insert, if_neg hpath]
  nodes i n hn := nodes_insert hn s
  keys path := by rw [keys_insert, mem_foldl_addKey]

/-- **A load changes one shader or nothing.** Where something keeps the shader from being loaded,
the load reports that and leaves the whole registry as it was. Else it puts what it found under the
name, without modules, and leaves all other shaders and all paths that were there. -/
theorem load_replaces_or_keeps (r : Registry) (files : FileTree) (dir name : String) :
    (∃ e, Shader.Unloadable files dir name e ∧
        (r.load files dir name).result = .ok (.error e, r)) ∨
      (∀ e, ¬ Shader.Unloadable files dir name e) ∧ ∃ s r', Shader.LoadsAs files dir name s ∧
        (r.load files dir name).result = .ok (.ok s, r') ∧ r.Replaces s r' := by
  rcases Shader.read_spec files dir name with ⟨e, hcause, hread⟩ | ⟨hnone, s, hs, hread⟩
  · exact .inl ⟨e, hcause, load_ok_iff.2 ⟨hread, rfl⟩⟩
  · exact .inr ⟨hnone, s, r.insert s, hs, load_ok_iff.2 ⟨hread, rfl⟩, r.replaces_insert s⟩

end Registry

end FrameGraph
