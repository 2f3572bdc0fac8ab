import FrameGraph.Proofs.Outcomes
import FrameGraph.Proofs.ShaderPaths
import FrameGraph.Sample.Run
import FrameGraph.Sample.Shaders

/-!
# The shaders of the sample frame

What is read from a directory that holds the files of the sample frame (`FileTree.HoldsSample`):
three shaders with their bindings, none of them compiled (`read_cull`, `read_gbuffer`,
`read_lighting`), which together are the registry `Sample.shaders`.

A text is read as the list of its characters. All of the files are spelled out at once, with what is
read from each (`contents`, `spells_contents`); `textOf_cons` spells a text out line by line.
-/

set_option autoImplicit false

namespace FrameGraph

/-- Whether a directory holds the files of the sample frame, and no source of another stage. -/
structure FileTree.HoldsSample (files : FileTree) (dir : String) : Prop where
  text : ∀ e ∈ Sample.shaderFiles, files.readText (joinPath dir e.1) = .ok e.2
  stage : ∀ name ∈ Sample.shaderNames, ∀ stage : ShaderStage,
    files.isFile (joinPath dir (name ++ "." ++ stage.suffix)) = true →
      name ++ "." ++ stage.suffix ∈ Sample.shaderFiles.map (·.1)

/-- What can be read is a file. -/
theorem FileTree.isFile_of_readText {files : FileTree} {path text : String}
    (h : files.readText path = .ok text) : files.isFile path = true := by
  obtain ⟨bytes, hread, -⟩ := Except.bind_eq_ok_iff.1 h
  obtain ⟨entry, hfind, hentry⟩ := Except.bind_eq_ok_iff.1 hread
  unfold isFile
  rw [hfind]
  cases entry with
  | directory => cases hentry
  | file content => rfl

/-- A table that comes out is known by its entries. -/
theorem SlotTable.eq_ok_of_entries {ε α : Type} {x : Except ε (SlotTable α)}
    {entries : List (Nat × α)} (h : (x.toOption.map (·.entries)) = some entries) :
    x = .ok ⟨entries⟩ := by
  obtain ⟨t, ht, rfl⟩ := Option.map_eq_some_iff.1 h
  exact Except.eq_ok_of_toOption ht

namespace Sample

/-! ## Spelling texts out -/

theorem spelled_append {s t : String} {cs ds : List Char} (hs : s = String.ofList cs)
    (ht : t = String.ofList ds) : s ++ t = String.ofList (cs ++ ds) := by
  rw [hs, ht, String.ofList_append]

theorem textOf_nil : textOf [] = String.ofList [] := rfl

theorem textOf_cons {line : String} {lines : List String} {cs ds : List Char}
    (hline : line = String.ofList cs) (hlines : textOf lines = String.ofList ds) :
    textOf (line :: lines) = String.ofList (cs ++ '\n' :: ds) := by
  have hjoin : textOf (line :: lines) = line ++ "\n" ++ textOf lines := by
    simp [textOf]
  rw [hjoin, hline, hlines, show "\n" = String.ofList ['\n'] from rfl, ← String.ofList_append,
    ← String.ofList_append, List.append_assoc]
  rfl

/-! ## Layout documents -/

/-- A buffer that a layout document declares. -/
def declaredBuffer (slot : Nat) (usage : String) (rate : UpdateRate)
    (elements : List DeclaredElement) : DeclaredBinding :=
  { slot, resource := .buffer, usage := some usage, rate, elements }

/-- A combined image that a layout document declares. -/
def declaredImage (slot : Nat) (rate : UpdateRate) : DeclaredBinding :=
  { slot, resource := .image, usage := some "combined", rate, dimension := some "2d" }

/-- The members of the camera block. -/
def cameraElements : List DeclaredElement := [⟨"mat4", 2⟩, ⟨"vec4", 1⟩]

/-- The members of an instance. -/
def instanceElements : List DeclaredElement := [⟨"mat4", 1⟩, ⟨"uvec4", 1⟩]

def cullDocument : LayoutDocument where
  compute := some [
    declaredBuffer 0 "storage" .frame instanceElements,
    declaredBuffer 1 "storage" .frame [⟨"uint", 5⟩],
    declaredBuffer 2 "uniform" .frame cameraElements]

def gbufferDocument : LayoutDocument where
  bindings := [declaredBuffer 0 "uniform" .frame cameraElements]
  vertex := some [declaredBuffer 1 "storage" .pass instanceElements]
  fragment := some [declaredImage 2 .draw]

def lightingDocument : LayoutDocument where
  fragment := some [
    declaredBuffer 0 "uniform" .frame cameraElements,
    declaredImage 1 .frame,
    declaredImage 2 .frame,
    declaredImage 3 .frame,
    declaredBuffer 4 "storage" .frame [⟨"vec4", 2⟩]]

/-! ## What is in the files -/

/-- What is read from a file of the sample frame. -/
inductive Content
  /-- A file that sources include is not read by itself. -/
  | included
  | layout (d : LayoutDocument)
  /-- The names that a source declares, by their slots. -/
  | names (ns : List (Nat × String))

/-- Whether that is what comes of these characters. -/
def Content.ComesOf (cs : List Char) : Content → Prop
  | included => True
  | layout d => ((Json.tokens? cs).bind Json.ofTokens?).bind LayoutDocument.ofValue? = some d
  | names ns => (SourceScan.bindings (SourceScan.declarations (SourceScan.stripComments
      cs))).result.toOption.map (·.entries) = some ns

/-- The texts of the files, with what is read from each. -/
def contents : List (String × Content) := [
  (cameraInclude, .included),
  (cullLayout, .layout cullDocument),
  (cullCompute, .names [(0, "Instances"), (1, "DrawCommands"), (2, "Camera")]),
  (gbufferLayout, .layout gbufferDocument),
  (gbufferVertex, .names [(0, "Camera"), (1, "Instances")]),
  (gbufferFragment, .names [(2, "base_color")]),
  (lightingLayout, .layout lightingDocument),
  (lightingVertex, .names []),
  (lightingFragment,
    .names [(0, "Camera"), (1, "albedo"), (2, "normal"), (3, "depth"), (4, "Lights")])]

theorem map_fst_contents : contents.map (·.1) = shaderFiles.map (·.2) := rfl

/-- Whether a text is spelled in ASCII characters of which that content comes. -/
def Spells (text : String) (content : Content) : Prop :=
  ∃ cs, text = String.ofList cs ∧ cs.all (·.toNat < 128) = true ∧ content.ComesOf cs

theorem spells_of_ofList {text : String} {content : Content} {cs : List Char}
    (htext : text = String.ofList cs) (hascii : cs.all (·.toNat < 128) = true)
    (hcontent : content.ComesOf cs) : Spells text content := ⟨cs, htext, hascii, hcontent⟩

set_option maxRecDepth 100000 in
theorem spells_contents : ∀ e ∈ contents, Spells e.1 e.2 := by
  simp only [contents, List.forall_mem_cons]
  refine ⟨?_, ?_, ?_, ?_, ?_, ?_, ?_, ?_, ?_, fun e he => by cases he⟩
  all_goals
    -- the characters come out of the spelling, and only then can be looked at
    apply spells_of_ofList
    · first
      | unfold cameraInclude | unfold cullLayout | unfold cullCompute | unfold gbufferLayout
      | unfold gbufferVertex | unfold gbufferFragment | unfold lightingLayout
      | unfold lightingVertex | unfold lightingFragment
      repeat' first | exact textOf_nil | apply textOf_cons | apply spelled_append | rfl
    · rfl
    · first | exact trivial | exact rfl

theorem parse_of_mem {text : String} {d : LayoutDocument} (h : (text, .layout d) ∈ contents) :
    LayoutDocument.parse? text = some d := by
  obtain ⟨cs, htext, -, hcontent⟩ := spells_contents _ h
  dsimp only at htext
  rw [htext, LayoutDocument.parse?, Json.parse?, String.toList_ofList]
  exact hcontent

theorem scan_of_mem {text : String} {ns : List (Nat × String)} (h : (text, .names ns) ∈ contents) :
    (SourceScan.scan text).result = .ok ⟨ns⟩ := by
  obtain ⟨cs, htext, -, hcontent⟩ := spells_contents _ h
  dsimp only at htext
  rw [htext, SourceScan.scan, String.toList_ofList]
  exact SlotTable.eq_ok_of_entries hcontent

/-! ## Sources and bindings -/

/-- The text of the sample frame's source of a stage, if there is one. -/
def source? (name : String) (stage : ShaderStage) : Option String :=
  shaderFiles.lookup (name ++ "." ++ stage.suffix)

/-- A source in a directory. -/
def source (dir name : String) (stage : ShaderStage) (text : String) : ShaderStage × ShaderSource :=
  (stage, ⟨joinPath dir (name ++ "." ++ stage.suffix), text⟩)

section
variable {files : FileTree} {dir : String} (h : files.HoldsSample dir)
include h

theorem readText_of_lookup {path text : String} (hlookup : shaderFiles.lookup path = some text) :
    files.readText (joinPath dir path) = .ok text := by
  obtain ⟨before, after, hsplit, -⟩ := List.lookup_eq_some_iff.1 hlookup
  exact h.text (path, text) (by rw [hsplit]; simp)

theorem isFile_of_sample {name : String} (hname : name ∈ shaderNames) (stage : ShaderStage) :
    files.isFile (joinPath dir (name ++ "." ++ stage.suffix)) = (source? name stage).isSome := by
  cases hsource : source? name stage with
  | some text => exact FileTree.isFile_of_readText (readText_of_lookup h hsource)
  | none =>
    refine Bool.eq_false_iff.2 fun hfile => ?_
    obtain ⟨e, he, hpath⟩ := List.mem_map.1 (h.stage name hname stage hfile)
    have hnone := List.lookup_eq_none_iff.1 hsource e he
    rw [hpath] at hnone
    simp at hnone

theorem readSources_sample {name : String} (hname : name ∈ shaderNames) :
    Shader.readSources files dir name = .ok (ShaderStage.all.filterMap fun stage =>
      (source? name stage).map (source dir name stage)) := by
  unfold Shader.readSources
  refine filterMapM_eq_ok (fun stage => ?_) _
  simp only [isFile_of_sample h hname]
  cases hsource : source? name stage with
  | none => rfl
  | some text =>
    simp only [readText_of_lookup h hsource]
    rfl

end

/-! ## The bindings -/

/-- A buffer binding. -/
def bufferBinding (name : String) (slot : Nat) (visibility : ShaderStages) (rate : UpdateRate)
    (type : DescriptorType) (elements : List BufferElement) : ShaderBinding :=
  ⟨name, slot, visibility, rate, 1, type, .buffer elements⟩

/-- A combined image that fragments see. -/
def imageBinding (name : String) (slot : Nat) (rate : UpdateRate) : ShaderBinding :=
  ⟨name, slot, .fragment, rate, 1, .combinedImageSampler, .image .twoD none⟩

/-- The camera block, as seen by some stages. -/
def cameraBinding (slot : Nat) (visibility : ShaderStages) : ShaderBinding :=
  bufferBinding "Camera" slot visibility .frame .uniformBuffer
    [⟨.matrix .float 4 4, 2⟩, ⟨.vector .float 4, 1⟩]

/-- The members of an instance. -/
def instanceMembers : List BufferElement := [⟨.matrix .float 4 4, 1⟩, ⟨.vector .uint 4, 1⟩]

def cullBindings : List ShaderBinding := [
  bufferBinding "Instances" 0 .compute .frame .storageBuffer instanceMembers,
  bufferBinding "DrawCommands" 1 .compute .frame .storageBuffer [⟨.scalar .uint, 5⟩],
  cameraBinding 2 .compute]

def gbufferBindings : List ShaderBinding := [
  cameraBinding 0 (ShaderStages.vertex ∪ ShaderStages.fragment),
  bufferBinding "Instances" 1 .vertex .pass .storageBuffer instanceMembers,
  imageBinding "base_color" 2 .draw]

def lightingBindings : List ShaderBinding := [
  cameraBinding 0 .fragment,
  imageBinding "albedo" 1 .frame,
  imageBinding "normal" 2 .frame,
  imageBinding "depth" 3 .frame,
  bufferBinding "Lights" 4 .fragment .frame .storageBuffer [⟨.vector .float 4, 2⟩]]

theorem result_scanSources (shader : String) (sources : Shader.Sources) :
    (Shader.scanSources shader sources).result = sources.foldlM (fun names e => do
      let scanned ← (SourceScan.scan e.2.text).result
      scanned.entries.foldlM (fun names x => (Shader.addScanned shader names x).result) names)
      .empty := by
  unfold Shader.scanSources
  simp only [Traced.result_foldlM, Traced.result_bind]

/-! ## The shaders -/

def cull (dir : String) : Shader where
  name := "deferred/cull"
  bindings := cullBindings
  sources := [source dir "deferred/cull" .compute cullCompute]

def gbuffer (dir : String) : Shader where
  name := "deferred/gbuffer"
  bindings := gbufferBindings
  sources := [
    source dir "deferred/gbuffer" .vertex gbufferVertex,
    source dir "deferred/gbuffer" .fragment gbufferFragment]

def lighting (dir : String) : Shader where
  name := "deferred/lighting"
  bindings := lightingBindings
  sources := [
    source dir "deferred/lighting" .vertex lightingVertex,
    source dir "deferred/lighting" .fragment lightingFragment]

section
variable {files : FileTree} {dir : String} (h : files.HoldsSample dir)
include h

/-- A shader of the sample frame is what its layout document and the names in its sources make of
it. -/
theorem read_sample {name text : String} {doc : LayoutDocument} {sources : Shader.Sources}
    {names : SlotTable String} {declared : List (DeclaredBinding × ShaderStages)}
    {bindings : List ShaderBinding} (hname : name ∈ shaderNames)
    (htext : shaderFiles.lookup (name ++ ".json") = some text)
    (hparse : LayoutDocument.parse? text = some doc)
    (hsources : (ShaderStage.all.filterMap fun stage =>
      (source? name stage).map (source dir name stage)) = sources)
    (hnames : (Shader.scanSources name sources).result = .ok names)
    (hdeclared : Shader.declarations doc sources = declared)
    (hmerge : (declared.foldlM (Shader.addDeclared name names) .empty).toOption.map (·.entries) =
      some (bindings.map fun b => (b.slot, b)))
    (hcheck : (Shader.checkNames name [] bindings).toOption = some ()) :
    (Shader.read files dir name).result = .ok (.ok { name, bindings, sources }) := by
  have hlayout : Shader.readLayout files dir name = .ok doc := by
    unfold Shader.readLayout
    simp only [readText_of_lookup h htext, hparse]
  have htable : Shader.mergeDeclared name names doc sources =
      .ok ⟨bindings.map fun b => (b.slot, b)⟩ := by
    unfold Shader.mergeDeclared
    rw [hdeclared]
    exact SlotTable.eq_ok_of_entries hmerge
  have hvalues : SlotTable.values ⟨bindings.map fun b => (b.slot, b)⟩ = bindings := by
    simp [SlotTable.values, Function.comp_def]
  have hbindings : (Shader.resolveBindings name doc sources).result = .ok (.ok bindings) := by
    unfold Shader.resolveBindings
    rw [Traced.result_bind, hnames]
    simp only [bind, Except.bind, htable, hvalues, Except.eq_ok_of_toOption hcheck]
    rfl
  unfold Shader.read
  rw [hlayout, readSources_sample h hname, hsources]
  show (Shader.resolveBindings name doc sources >>= _).result = _
  rw [Traced.result_bind, hbindings]
  rfl

-- where the sources are does not matter to what is declared: it is the same below any directory

theorem read_cull : (Shader.read files dir "deferred/cull").result = .ok (.ok (cull dir)) := by
  have hscan : (SourceScan.scan cullCompute).result = _ :=
    scan_of_mem (List.mem_of_getElem? (i := 2) rfl)
  have hnames : (Shader.scanSources "deferred/cull" (cull dir).sources).result =
      .ok ⟨[(0, "Instances"), (1, "DrawCommands"), (2, "Camera")]⟩ := by
    rw [result_scanSources]
    simp only [cull, List.foldlM_cons, source, hscan]
    rfl
  have hdeclared : Shader.declarations cullDocument (cull dir).sources =
      Shader.declarations cullDocument (cull "").sources := rfl
  have hparse : LayoutDocument.parse? cullLayout = _ :=
    parse_of_mem (List.mem_of_getElem? (i := 1) rfl)
  exact read_sample h (by decide) rfl hparse rfl hnames hdeclared rfl rfl

theorem read_gbuffer :
    (Shader.read files dir "deferred/gbuffer").result = .ok (.ok (gbuffer dir)) := by
  have hvertex : (SourceScan.scan gbufferVertex).result = _ :=
    scan_of_mem (List.mem_of_getElem? (i := 4) rfl)
  have hfragment : (SourceScan.scan gbufferFragment).result = _ :=
    scan_of_mem (List.mem_of_getElem? (i := 5) rfl)
  have hnames : (Shader.scanSources "deferred/gbuffer" (gbuffer dir).sources).result =
      .ok ⟨[(0, "Camera"), (1, "Instances"), (2, "base_color")]⟩ := by
    rw [result_scanSources]
    simp only [gbuffer, List.foldlM_cons, source, hvertex, hfragment]
    rfl
  have hdeclared : Shader.declarations gbufferDocument (gbuffer dir).sources =
      Shader.declarations gbufferDocument (gbuffer "").sources := rfl
  have hparse : LayoutDocument.parse? gbufferLayout = _ :=
    parse_of_mem (List.mem_of_getElem? (i := 3) rfl)
  exact read_sample h (by decide) rfl hparse rfl hnames hdeclared rfl rfl

theorem read_lighting :
    (Shader.read files dir "deferred/lighting").result = .ok (.ok (lighting dir)) := by
  have hvertex : (SourceScan.scan lightingVertex).result = _ :=
    scan_of_mem (List.mem_of_getElem? (i := 7) rfl)
  have hfragment : (SourceScan.scan lightingFragment).result = _ :=
    scan_of_mem (List.mem_of_getElem? (i := 8) rfl)
  have hnames : (Shader.scanSources "deferred/lighting" (lighting dir).sources).result =
      .ok ⟨[(0, "Camera"), (1, "albedo"), (2, "normal"), (3, "depth"), (4, "Lights")]⟩ := by
    rw [result_scanSources]
    simp only [lighting, List.foldlM_cons, source, hvertex, hfragment]
    rfl
  have hdeclared : Shader.declarations lightingDocument (lighting dir).sources =
      Shader.declarations lightingDocument (lighting "").sources := rfl
  have hparse : LayoutDocument.parse? lightingLayout = _ :=
    parse_of_mem (List.mem_of_getElem? (i := 6) rfl)
  exact read_sample h (by decide) rfl hparse rfl hnames hdeclared rfl rfl

end

/-! ## The registry -/

/-- The shaders of the sample frame. -/
def shaders (dir : String) : Registry :=
  ((Registry.insert {} (cull dir)).insert (gbuffer dir)).insert (lighting dir)

theorem shader_cull (dir : String) : (shaders dir).shader "deferred/cull" = .ok (cull dir) := by
  simp [Registry.shader, shaders, Registry.shader?_insert, cull, gbuffer, lighting]

theorem shader_gbuffer (dir : String) :
    (shaders dir).shader "deferred/gbuffer" = .ok (gbuffer dir) := by
  simp [Registry.shader, shaders, Registry.shader?_insert, gbuffer, lighting]

theorem shader_lighting (dir : String) :
    (shaders dir).shader "deferred/lighting" = .ok (lighting dir) := by
  simp [Registry.shader, shaders, Registry.shader?_insert, lighting]

end Sample

end FrameGraph
