import FrameGraph.Proofs.SampleFrames
import FrameGraph.Proofs.SampleRelease

/-!
# Runs of the sample

A run goes through with any settings that have frames, images and an extent, and neither leaks nor
grows (`Sample.run_outcome`): all frames have equally many barriers and release nothing, the
objects made do not grow with the frames once each image of the swapchain was shown, and at the end
all is released.
-/

set_option autoImplicit false

namespace FrameGraph

/-! ## How runs end -/

namespace Sample.RunM

variable {α β : Type}

/-- The run goes through to `a`, and `l` is the last line that it reports. -/
structure Ends (x : RunM α) (a : α) (l : LogLine) : Prop where
  result : x.run.result = .ok (.ok a)
  last : x.run.log.getLast? = some l

theorem Ends.bind {x : RunM α} {k : α → RunM β} {a : α} {b : β} {l : LogLine}
    (hx : x.run.result = .ok (.ok a)) (hk : Ends (k a) b l) : Ends (x >>= k) b l where
  result := bind_ok_iff.2 ⟨a, hx, hk.result⟩
  last := by
    show (x.run >>= fun r => ExceptT.bindCont k r).log.getLast? = some l
    rw [Traced.log_bind hx, List.getLast?_append]
    have hlast : (ExceptT.bindCont k (.ok a)).log.getLast? = some l := hk.last
    rw [hlast]
    rfl

theorem Ends.report (l : LogLine) (a : α) :
    Ends (RunM.report l >>= fun _ => pure a) a l := ⟨rfl, rfl⟩

end Sample.RunM

/-! ## The settings -/

namespace Settings

variable {s s' : Settings} {v : Toml.Value} {n : Nat}

theorem unsigned?_lt (h : unsigned? v = some n) : n < Text.bound32 := by
  cases v with
  | integer i =>
    obtain ⟨⟨hle, hlt⟩, hi⟩ := Option.ite_none_right_eq_some.1 h
    obtain rfl := Option.some.inj hi
    omega
  | _ => cases h

theorem frames_lt_of_set? {e : String × Toml.Value} (h : s.set? e = some s')
    (hs : s.frames < Text.bound32) : s'.frames < Text.bound32 := by
  unfold set? at h
  split at h
  case h_1 | h_5 =>
    cases h
    exact hs
  case h_6 v =>
    obtain ⟨n, hn, rfl⟩ := Option.map_eq_some_iff.1 h
    exact unsigned?_lt hn
  case h_7 => cases h
  all_goals
    obtain ⟨n, -, rfl⟩ := Option.map_eq_some_iff.1 h
    exact hs

theorem frames_lt_of_entries {es : List (String × Toml.Value)} (h : es.foldlM set? s = some s')
    (hs : s.frames < Text.bound32) : s'.frames < Text.bound32 := by
  induction es generalizing s with
  | nil =>
    cases h
    exact hs
  | cons e es ih =>
    rw [List.foldlM_cons] at h
    obtain ⟨t, ht, h⟩ := Option.bind_eq_some_iff.1 h
    exact ih h (frames_lt_of_set? ht hs)

/-- The number of frames in a settings file fits 32 bits. -/
theorem frames_lt_of_load {files : FileTree} {path : String} (h : load files path = .ok s) :
    s.frames < Text.bound32 := by
  unfold load at h
  split at h
  · cases h
  · split at h
    · next hparse =>
      cases h
      obtain ⟨es, -, hset⟩ := Option.bind_eq_some_iff.1 hparse
      exact frames_lt_of_entries hset (by decide)
    · cases h

end Settings

namespace Sample

variable {w : Workspace} {o : Options} {files : FileTree} {dir : String} {s : Settings}

/-- The settings of a run ask for images, and for a number of frames that fits 32 bits. -/
theorem settings_ok (h : (settings w o files).run.result = .ok (.ok s))
    (ho : ∀ n ∈ o.frames, n < Text.bound32) :
    s.swapchainImageCount ≠ 0 ∧ s.frames < Text.bound32 := by
  obtain ⟨t, ht, h⟩ := RunM.bind_ok_iff.1 h
  have hload := Settings.frames_lt_of_load (RunM.orEnd_ok_iff.1 ht)
  dsimp only at h
  split at h
  · cases h
  · next hcount =>
    cases h
    refine ⟨hcount, ?_⟩
    cases hframes : o.frames with
    | none => exact hload
    | some n => exact ho n hframes

/-! ## Loading the shaders -/

theorem load_ok {r : Registry} {name : String} {shader : Shader}
    (h : (Shader.read files dir name).result = .ok (.ok shader)) :
    (r.load files dir name).result = .ok (.ok shader, r.insert shader) := by
  rw [Registry.load, Traced.result_bind, h]
  rfl

/-- A run loads the shaders of the sample. -/
theorem loadShaders_eq (h : files.HoldsSample dir) :
    (loadShaders files dir).run.result = .ok (.ok (shaders dir)) := by
  have hload {r : Registry} {name : String} {shader : Shader}
      (h : (Shader.read files dir name).result = .ok (.ok shader)) :
      (RunM.traced (r.load files dir name) >>= fun x =>
        RunM.orEnd .shader x.1 >>= fun _ => pure x.2 : RunM Registry).run.result =
          .ok (.ok (r.insert shader)) :=
    RunM.bind_ok_iff.2 ⟨_, RunM.traced_ok_iff.2 (load_ok h), RunM.bind_ok_iff.2 ⟨_, rfl, rfl⟩⟩
  refine RunM.bind_ok_iff.2 ⟨_, hload (read_cull h), RunM.bind_ok_iff.2 ⟨_, hload (read_gbuffer h),
    RunM.bind_ok_iff.2 ⟨_, hload (read_lighting h), rfl⟩⟩⟩

/-! ## The start -/

variable {extent : Extent} {images : List (Handle .image)} {count : Nat}

theorem exists_resources (extent : Extent) (hcount : count ≠ 0) :
    ∃ images lastHandle, images.length = count ∧ resources extent count {} =
        .ok (⟨plainNodes extent images 0, 0⟩, { lastHandle }) ∧
      Accounted ⟨plainNodes extent images 0, 0⟩ { lastHandle } images := by
  obtain ⟨lastHandle, hdevice⟩ := Headless.externalImages_eq count {}
  have hresources := resources_ok extent hcount ⟨.empty, .empty⟩
  rw [hdevice] at hresources
  exact ⟨_, lastHandle, Headless.length_externalImages count {}, hresources⟩

theorem tallied_empty {d : Headless} (hd : d.created = {}) : Tallied {} d where
  misses := rfl
  made k := by
    rw [hd]
    cases k <;> rfl
  handles e he := by cases he

/-- The first frame can mount its resources, and is then ready. -/
theorem exists_first_ready (hwidth : extent.width ≠ 0) (hheight : extent.height ≠ 0) {f : Forest}
    {d : Headless} (hs : Accounted f d images) (hnodes : f.nodes = plainNodes extent images 0)
    (hcreated : d.created = {}) (hdestroyed : d.destroyed = []) :
    ∃ s₁ ids, (mountAll names ⟨f, d, {}, {}⟩).run.result = .ok (.ok s₁) ∧
      Ready extent images ids 0 s₁ := by
  obtain ⟨s₁, ids, hmount, hlaid, hstates⟩ := exists_first_mountAll (s := ⟨f, d, {}, {}⟩) hwidth
    hheight hs hnodes
  obtain ⟨hs₁, hmounts, -, -, hcache⟩ := mountAll_keeps hmount hs
  refine ⟨s₁, ids, hmount, ⟨0, hlaid⟩, fun i => .inl (hstates i), hs₁, ?_, ?_⟩
  · rw [hcache]
    exact ⟨(tallied_empty hcreated).of_mounts hmounts, .inl ⟨rfl, rfl⟩, rfl⟩
  · exact (destroyed_of_mounts hmounts).trans hdestroyed

/-! ## Whole runs -/

/-- What a run of `n` frames with `k` images in the swapchain comes to. -/
structure Outcome (n k : Nat) (reports : List FrameReport) (s : RunState) : Prop where
  frames : reports.length = n
  released : ∀ r ∈ reports, r.released = 0
  barriers : ∀ r ∈ reports, r.plan.barrierCount = 12
  buffers : s.device.created.buffers = 5
  images : s.device.created.images = 3
  imageViews : s.device.created.imageViews = 3 + k
  renderPasses : s.device.created.renderPasses = 2
  framebuffers : s.device.created.framebuffers = 1 + min n k
  misses : s.cache.misses = 3 + min n k
  hits : s.cache.hits = 4 * n - 3 - min n k
  left : s.device.buffers = [] ∧ s.device.bufferViews = [] ∧ s.device.images = [] ∧
    s.device.imageViews = []

/-- The last line of a run that releases nine resources. -/
def lastLine (s : RunState) : LogLine :=
  .info s!"released 9 resources, backend objects: {s.device.created.text}"

theorem exists_plan (hwidth : s.width ≠ 0) (hheight : s.height ≠ 0)
    (hcount : s.swapchainImageCount ≠ 0) (hframes : s.frames ≠ 0)
    (hbound : s.frames < Text.bound32) (dir : String) :
    ∃ reports s', RunM.Ends (plan s (shaders dir) {}) (reports, s') (lastLine s') ∧
      Outcome s.frames s.swapchainImageCount reports s' := by
  -- the resources are declared and the frames go through
  obtain ⟨images, lastHandle, hlength, hresources, hs⟩ := exists_resources s.extent hcount
  have hpos : 0 < images.length := by omega
  obtain ⟨s₁, ids, hmount, hready⟩ := exists_first_ready hwidth hheight hs rfl rfl rfl
  obtain ⟨n, hn⟩ := Nat.exists_eq_add_one_of_ne_zero hframes
  obtain ⟨reports, s', hrun, hreports, hall, hready', hlife⟩ :=
    exists_frames hwidth hheight hlength.symm hpos dir n hmount hs hready
  rw [Nat.zero_add] at hready'
  rw [← hn] at hrun hreports hready' hlife
  obtain ⟨⟨acquired, hlaid⟩, -, hs', hstocked, hundestroyed⟩ := hready'
  -- the last release comes after the last frame
  have hlate : s'.forest.life < lastLife := by
    have hbound : s.frames < 0x100000000 := hbound
    have hlife : s'.forest.life = 0 + s.frames * 9 := hlife
    unfold lastLife
    omega
  obtain ⟨f', d', hrelease, halive, hcreated⟩ :=
    exists_release hlaid hs' (List.ne_nil_of_length_pos hpos) hlate
  obtain ⟨hbuffers, himages, himageViews⟩ := hlaid.created hs'.ledger hundestroyed
  obtain ⟨hmisses, hhits, hrenderPasses, hframebuffers⟩ :=
    hstocked.counts (Nat.pos_of_ne_zero hframes)
  refine ⟨reports, { s' with forest := f', device := d' },
    .bind (RunM.traced_ok_iff.2 hresources) (.bind hrun
      (.bind (RunM.traced_ok_iff.2 hrelease) (.report _ _))), ?_⟩
  rw [hlength] at himageViews hmisses hhits hframebuffers
  obtain ⟨⟨⟨hb, hbv⟩, hi⟩, hiv⟩ : ((d'.buffers = [] ∧ d'.bufferViews = []) ∧ d'.images = []) ∧
      d'.imageViews = [] := by
    simpa only [Headless.alive, List.append_eq_nil_iff, List.map_eq_nil_iff] using halive
  rw [← hcreated] at hbuffers himages himageViews hrenderPasses hframebuffers
  exact ⟨hreports, fun r hr => (hall r hr).1, fun r hr => (hall r hr).2, hbuffers, himages,
    himageViews, hrenderPasses, hframebuffers, hmisses, by show s'.cache.hits = _; omega,
    hb, hbv, hi, hiv⟩

/-- **A run neither leaks nor grows**, with any number of frames and of images in the swapchain. -/
theorem run_outcome (program : List String → Except IoError ProgramOutput)
    (hsettings : (settings w o files).run.result = .ok (.ok s))
    (hfiles : files.HoldsSample (s.shaderRootPath w)) (hcompile : o.compile = false)
    (ho : ∀ n ∈ o.frames, n < Text.bound32) (hwidth : s.width ≠ 0) (hheight : s.height ≠ 0)
    (hframes : s.frames ≠ 0) :
    ∃ reports s', (run w o files program).run.result = .ok (.ok (reports, s')) ∧
      (run w o files program).run.log.getLast? = some (lastLine s') ∧
      Outcome s.frames s.swapchainImageCount reports s' := by
  obtain ⟨hcount, hbound⟩ := settings_ok hsettings ho
  obtain ⟨reports, s', hplan, houtcome⟩ := exists_plan hwidth hheight hcount hframes hbound
    (s.shaderRootPath w)
  have hends : RunM.Ends (run w o files program) (reports, s') (lastLine s') := by
    refine .bind hsettings (.bind (RunM.report_ok _) (.bind (loadShaders_eq hfiles) ?_))
    rw [hcompile]
    exact hplan
  exact ⟨reports, s', hends.result, hends.last, houtcome⟩

/-! ### Five frames in a small workspace -/

/-- Whether a path can be walked, and leads to that place. -/
def Leads (files : FileTree) (path : String) (place : List String) : Prop :=
  path.toList.contains '\x00' = false ∧ path.utf8ByteSize ≤ FileTree.longestPath ∧ path ≠ "" ∧
    (files.walk (files.start path) (FileTree.segments path)).toOption = some place

instance (files : FileTree) (path : String) (place : List String) :
    Decidable (Leads files path place) := inferInstanceAs (Decidable (_ ∧ _))

theorem Leads.find {path : String} {place : List String} {e : FileEntry}
    (h : Leads files path place) (he : files.entry? place = some e) :
    files.find path = .ok e := by
  obtain ⟨hnul, hlong, hne, hwalk⟩ := h
  unfold FileTree.find
  rw [hnul, if_neg (Nat.not_lt_of_le hlong), if_neg hne]
  refine Except.bind_eq_ok_iff.2 ⟨place, Except.eq_ok_of_toOption hwalk, ?_⟩
  rw [he]
  rfl

/-- The bytes of a text of ASCII characters. -/
def ascii (text : String) : List UInt8 := text.toList.map fun c => c.toNat.toUInt8

theorem decodeFrom_ascii {cs : List Char} (h : ∀ c ∈ cs, c.toNat < 128) :
    (Text.decodeFrom none (cs.map fun c => c.toNat.toUInt8)).mapM id = some cs := by
  induction cs with
  | nil => rfl
  | cons c cs ih =>
    obtain ⟨hc, hcs⟩ := List.forall_mem_cons.1 h
    have hbyte : c.toNat.toUInt8.toNat = c.toNat := by
      rw [UInt8.toNat_ofNat']
      omega
    have hstep : Text.decodeStep none c.toNat.toUInt8 = ([some c], none) := by
      unfold Text.decodeStep Text.decodeStep.begin Text.sequence?
      simp only [hbyte]
      rw [if_pos hc]
      simp
    rw [List.map_cons, Text.decodeFrom, hstep]
    show (some c :: Text.decodeFrom none _).mapM id = _
    rw [List.mapM_cons, ih hcs]
    rfl

theorem decode?_ascii {text : String} {cs : List Char} (htext : text = String.ofList cs)
    (h : cs.all (·.toNat < 128) = true) : Text.decode? (ascii text) = some text := by
  have hcs : ∀ c ∈ cs, c.toNat < 128 := fun c hc => of_decide_eq_true (List.all_eq_true.1 h c hc)
  rw [htext, ascii, String.toList_ofList, Text.decode?, decodeFrom_ascii hcs]
  rfl

theorem decode?_shaderFiles {e : String × String} (he : e ∈ shaderFiles) :
    Text.decode? (ascii e.2) = some e.2 := by
  have hmem : e.2 ∈ contents.map (·.1) := by
    rw [map_fst_contents]
    exact List.mem_map_of_mem he
  obtain ⟨x, hx, htext⟩ := List.mem_map.1 hmem
  obtain ⟨cs, hcs, hascii, -⟩ := spells_contents x hx
  rw [← htext]
  exact decode?_ascii hcs hascii

namespace Workshop

def workspace : Workspace := ⟨"/"⟩

def options : Options := { config := some "/c", frames := some 5, shaderDir := some "/s" }

/-- Where a file of the sample stands. -/
def place (path : String) : List String := "s" :: FileTree.segments path

/-- A settings file that leaves all defaults, and the files of the sample. -/
def tree : FileTree where
  entries := [
    (["c"], .file []),
    (["s"], .directory),
    (["s", "include"], .directory),
    (["s", "deferred"], .directory)] ++
    shaderFiles.map fun e => (place e.1, .file (ascii e.2))

/-- What the names of the tree are: each file of the sample is where its path leads to, nothing
stands at one place twice, and a source that is there is one of the sample. -/
theorem tree_names : (∀ e ∈ shaderFiles, Leads tree (joinPath "/s" e.1) (place e.1)) ∧
    (tree.entries.map (·.1)).Nodup ∧ ∀ name ∈ shaderNames, ∀ stage ∈ ShaderStage.all,
      name ++ "." ++ stage.suffix ∈ shaderFiles.map (·.1) ∨
        tree.isFile (joinPath "/s" (name ++ "." ++ stage.suffix)) = false := by
  decide +kernel

theorem entry?_place {e : String × String} (he : e ∈ shaderFiles) :
    tree.entry? (place e.1) = some (.file (ascii e.2)) := by
  have hmem : (place e.1, FileEntry.file (ascii e.2)) ∈ tree.entries :=
    List.mem_append_right _ (List.mem_map_of_mem he)
  obtain ⟨before, after, hentries⟩ := List.append_of_mem hmem
  refine List.lookup_eq_some_iff.2 ⟨before, after, hentries, fun p hp => ?_⟩
  obtain ⟨-, hnodup, -⟩ := tree_names
  rw [hentries, List.map_append, List.nodup_append] at hnodup
  have hne := hnodup.2.2 p.1 (List.mem_map_of_mem hp) (place e.1) (by simp)
  simpa using Ne.symm hne

theorem readText_tree {e : String × String} (he : e ∈ shaderFiles) :
    tree.readText (joinPath "/s" e.1) = .ok e.2 := by
  have hfind := (tree_names.1 e he).find (entry?_place he)
  refine Except.bind_eq_ok_iff.2 ⟨ascii e.2, Except.bind_eq_ok_iff.2 ⟨_, hfind, rfl⟩, ?_⟩
  rw [decode?_shaderFiles he]
  rfl

theorem holdsSample : tree.HoldsSample "/s" where
  text _ he := readText_tree he
  stage name hname stage hfile := by
    have hstage : stage ∈ ShaderStage.all := by cases stage <;> decide
    refine (tree_names.2.2 name hname stage hstage).resolve_right fun hnot => ?_
    rw [hfile] at hnot
    cases hnot

/-- The settings of the run: the defaults, but for the options. -/
def settings : Settings := { frames := 5, shaderRoot := "/s" }

theorem settings_eq : (Sample.settings workspace options tree).run.result = .ok (.ok settings) ∧
    settings.shaderRootPath workspace = "/s" := by
  have h : (Sample.settings workspace options tree).run.result.toOption.bind (·.toOption) =
      some settings ∧ settings.shaderRootPath workspace = "/s" := by decide +kernel
  obtain ⟨r, hr, hsettings⟩ := Option.bind_eq_some_iff.1 h.1
  rw [Except.eq_ok_of_toOption hr, Except.eq_ok_of_toOption hsettings]
  exact ⟨rfl, h.2⟩

end Workshop

theorem run_outcome_workshop :
    (settings Workshop.workspace Workshop.options Workshop.tree).run.result =
      .ok (.ok Workshop.settings) ∧ Workshop.tree.HoldsSample "/s" ∧
    ∃ reports s', (run Workshop.workspace Workshop.options Workshop.tree
        fun _ => .error .notFound).run.result = .ok (.ok (reports, s')) ∧
      reports.length = 5 ∧ s'.cache.hits = 14 ∧ s'.device.created.framebuffers = 4 := by
  obtain ⟨hsettings, hdir⟩ := Workshop.settings_eq
  obtain ⟨reports, s', hrun, -, houtcome⟩ := run_outcome (fun _ => .error .notFound)
    hsettings (hdir ▸ Workshop.holdsSample) rfl (fun n hn => by cases hn; decide) (by decide)
    (by decide) (by decide)
  exact ⟨hsettings, Workshop.holdsSample, reports, s', hrun, houtcome.frames, houtcome.hits,
    houtcome.framebuffers⟩

end Sample

end FrameGraph
