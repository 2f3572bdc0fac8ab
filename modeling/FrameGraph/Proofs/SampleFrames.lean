import FrameGraph.Proofs.Plans
import FrameGraph.Proofs.SampleObjects
import FrameGraph.Proofs.SampleStart

/-!
# Frames of the sample

One frame of a run (`Sample.exists_frame`): it goes through, releases nothing, has twelve barriers,
and leaves all as the next frame needs it (`Sample.Ready`). So any number of frames does
(`Sample.exists_frames`).
-/

set_option autoImplicit false

namespace FrameGraph

open Relation (ReflTransGen)

/-! ## What mounts leave alone -/

section
variable {s s' : Forest × Headless} {c : ObjectCache}

theorem destroyed_of_mounts (h : ReflTransGen Mounts s s') :
    s'.2.destroyed = s.2.destroyed := by
  refine kept_by_all (P := fun t => t.2.destroyed = s.2.destroyed) (fun t t' hstep ht => ?_) h rfl
  obtain ⟨name, hrun⟩ := hstep
  obtain ⟨⟨r, t''⟩, hmount, hrun⟩ := Except.bind_eq_ok_iff.1 hrun
  cases hrun
  exact kept_by_all (P := fun t => t.2.destroyed = s.2.destroyed)
    (fun _ _ hgrows ht => (destroyed_of_grows hgrows).trans ht) (mount_grows hmount) ht

theorem cached_of_planned {a b : Created} (h : a.planned = b.planned) (k : ObjectKind) :
    a.cached k = b.cached k := by
  simp only [Created.planned, List.cons.injEq] at h
  obtain ⟨h₁, h₂, h₃, h₄, h₅, -⟩ := h
  cases k <;> simp [Created.cached, h₁, h₂, h₃, h₄, h₅]

theorem Tallied.of_mounts (ht : Tallied c s.2) (h : ReflTransGen Mounts s s') : Tallied c s'.2 where
  misses := ht.misses
  made k := (cached_of_planned (planned_of_mounts h) k).trans (ht.made k)
  handles := ht.handles

end

namespace Sample

variable {extent : Extent} {images : List (Handle .image)} {acquired i j count : Nat}
  {ids : Nat → Nat} {f : Forest} {m n : Node} {c c' : ObjectCache} {d d' : Headless}
  {spare : List (Handle .image)} {dir : String} {graph : PassGraph}

/-! ## Compiling -/

/-- Different views have different numbers. -/
theorem Laid.ids_injective (h : Laid extent images acquired ids f) (hl : Ledger f d spare)
    (hm : (unfolded extent images acquired)[i]? = some m) (hmkind : m.kind = .imageView)
    (hn : (unfolded extent images acquired)[j]? = some n) (hnkind : n.kind = .imageView)
    (hid : ids i = ids j) : i = j := by
  have howns {k : Nat} {m : Node} (hm : (unfolded extent images acquired)[k]? = some m)
      (hkind : m.kind = .imageView) : f.Owns k (.imageView ⟨ids k⟩) := by
    refine ⟨_, h.node hm, ?_⟩
    unfold Node.kind at hkind
    unfold Forest.dressed
    cases hp : m.payload <;> rw [hp] at hkind <;> cases hkind
    rfl
  refine hl.owner i j _ (howns hm hmkind) ?_
  rw [hid]
  exact howns hn hnkind

theorem Laid.window_injective (h : Laid extent images acquired ids f) (hl : Ledger f d spare)
    (hi : i < images.length) (hj : j < images.length) (hid : ids (2 * i + 13) = ids (2 * j + 13)) :
    i = j := by
  have hsame := h.ids_injective hl (unfolded_view (List.getElem?_eq_getElem hi)) rfl
    (unfolded_view (List.getElem?_eq_getElem hj)) rfl hid
  omega

theorem uncompiled (dir : String) : Plan.Uncompiled (shaders dir) passes := by
  intro pass hpass phase hkind
  simp only [passes, List.mem_cons, List.not_mem_nil, or_false] at hpass
  rcases hpass with rfl | rfl | rfl | rfl | rfl | rfl <;> cases hkind
  · exact ⟨_, shader_gbuffer dir, rfl⟩
  · exact ⟨_, shader_lighting dir, rfl⟩

/-- **The sample frame compiles**, with twelve barriers. -/
theorem exists_compile (dir : String) (hgraph : graph.passes = passes)
    (h : Laid extent images acquired ids f) (hacquired : acquired < images.length)
    (hworn : Worn f) (hs : Accounted f d spare) (ht : Tallied c d) :
    ∃ plan c' d', (compileFrame graph f (shaders dir) c d).result =
        .ok (.ok plan, f.carry (Timeline.ofFrame f.nodes (frameWith acquired)), c', d') ∧
      plan.barrierCount = 12 ∧ Tallied c' d' ∧
      c.Asked c' (Plan.called c' (gbufferDrawn extent ids) ++
        Plan.called c' (lightingDrawn extent ids acquired)) ∧
      Plan.HoldsPasses c' [gbufferDrawn extent ids, lightingDrawn extent ids acquired] := by
  have hj : images[acquired]? = some images[acquired] := List.getElem?_eq_getElem hacquired
  have hne {i j : Nat} {m n : Node} (hm : (unfolded extent images acquired)[i]? = some m)
      (hmkind : m.kind = .imageView) (hn : (unfolded extent images acquired)[j]? = some n)
      (hnkind : n.kind = .imageView) (hij : i ≠ j) : ids i ≠ ids j := fun hid =>
    hij (h.ids_injective hs.ledger hm hmkind hn hnkind hid)
  have huses := frameUses_eq h hs.proper.wellFormed dir hj
    (hne (i := 1) (j := 3) rfl rfl rfl rfl (by decide))
    (hne (i := 1) (j := 5) rfl rfl rfl rfl (by decide))
    (hne (i := 3) (j := 5) rfl rfl rfl rfl (by decide))
  have hanalyze : (analyze graph.passes f (shaders dir)).result =
      .ok (Analysis.ofUses f (uses extent ids acquired),
        f.carry (Timeline.ofFrame f.nodes (frameWith acquired))) := by
    rw [hgraph]
    exact analyze_ok_iff.2 ⟨_, huses, rfl, rfl⟩
  have htargets : Plan.attachedTargets (Analysis.ofUses f (uses extent ids acquired))
      passes.zipIdx = [gbufferDrawn extent ids, lightingDrawn extent ids acquired] := by
    have hattached (k : Nat) :
        Plan.attachedTarget? (Analysis.ofUses f (uses extent ids acquired)) k =
        (([gbufferDrawn extent ids, lightingDrawn extent ids acquired].find?
          (·.pass == k)).filter (! ·.attachments.isEmpty)) := by
      rw [Plan.attachedTarget?, Analysis.target?, targets_eq h hj]
    simp only [Plan.attachedTargets, hattached]
    rfl
  obtain ⟨steps, c', d', hsteps, ht', hasked, hholds⟩ :=
    Plan.compileSteps_asks (a := Analysis.ofUses f (uses extent ids acquired)) ht (uncompiled dir)
  rw [htargets, List.flatMap_cons, List.flatMap_cons, List.flatMap_nil, List.append_nil] at hasked
  rw [htargets] at hholds
  have hcompiled := compileFrame_ok_iff.2 ⟨_, .ok steps, hanalyze, hgraph ▸ hsteps, rfl⟩
  obtain ⟨a, ha, hcount⟩ := barrierCount_of_compiled hs.proper.related.seated hcompiled
  obtain ⟨rfl, -⟩ := Prod.mk.inj (Except.ok.inj (ha.symm.trans hanalyze))
  exact ⟨_, c', d', hcompiled, hcount.trans (moves_and_shown h hj hworn), ht', hasked, hholds⟩

/-! ## One frame -/

/-- What frame `i` finds once all resources are mounted. -/
structure Ready (extent : Extent) (images : List (Handle .image)) (ids : Nat → Nat) (i : Nat)
    (s : RunState) : Prop where
  laid : ∃ acquired, Laid extent images acquired ids s.forest
  worn : Worn s.forest
  accounted : Accounted s.forest s.device images
  stocked : Stocked extent ids images.length i s.cache s.device
  undestroyed : s.device.destroyed = []

variable {s s' : RunState} {settings : Settings}

theorem declare_passes (g : PassGraph) : (declare g).passes = passes := by
  rw [declare, PassGraph.foldl_push]
  rfl

/-- A frame whose steps go through, and after which nothing is left to release, goes through. -/
theorem frame_ok {s₁ : RunState} {shaders : Registry} {plan : Plan} {f' : Forest}
    (hmount : (mountAll names s).run.result = .ok (.ok s₁))
    (hacquire : s₁.forest.acquire swapchain (i % settings.swapchainImageCount) = .ok f)
    (hcompile : (compileFrame (declare s.graph) f shaders s₁.cache s₁.device).result =
      .ok (.ok plan, f', c', d'))
    (hexpired : f'.expired (s.forest.life + 1) = []) :
    (frame settings shaders names i s).run.result =
      .ok (.ok (⟨plan, 0⟩, ⟨f', d', declare s.graph, c'⟩)) := by
  have hdump : plan.dump.result = .ok () := dump_of_compiled hcompile
  have hrelease := Forest.unmountExpired_of_nil (d := d') hexpired
  unfold frame
  simp only [RunM.bind_ok_iff, RunM.traced_ok_iff]
  refine ⟨s₁, hmount, f, ?_, (.ok plan, f', c', d'), hcompile, plan, rfl, ?_⟩
  · rw [hacquire]
    rfl
  · rw [RunM.ite_bind_ok_iff (RunM.traced_ok_iff.2 hdump)]
    refine RunM.bind_ok_iff.2 ⟨(), RunM.report_ok _, RunM.bind_ok_iff.2 ⟨(0, f', d'), ?_, rfl⟩⟩
    exact RunM.traced_ok_iff.2 hrelease

theorem Worn.of_nodes {g : Forest} (h : Worn f)
    (hg : ∀ (i : Nat) n', g.nodes[i]? = some n' → ∃ n, f.nodes[i]? = some n ∧
      n'.current = n.current) : Worn g := by
  intro i
  unfold Forest.stateAt
  cases hn' : g.nodes[i]? with
  | none => exact .inl rfl
  | some n' =>
    obtain ⟨n, hn, hcurrent⟩ := hg i n' hn'
    have hi := h i
    rw [Forest.stateAt, hn] at hi
    show n'.current = _ ∨ n'.current = _
    rw [hcurrent]
    exact hi

/-- **A frame of the sample goes through** once its resources are mounted. It releases nothing, has
twelve barriers, and leaves what the next frame starts from. -/
theorem exists_frame {s₁ : RunState} (hcount : settings.swapchainImageCount = images.length)
    (hpos : 0 < images.length) (hmount : (mountAll names s).run.result = .ok (.ok s₁))
    (hs : Accounted s.forest s.device images) (hready : Ready extent images ids i s₁) :
    ∃ report s', (frame settings (shaders dir) names i s).run.result = .ok (.ok (report, s')) ∧
      report.released = 0 ∧ report.plan.barrierCount = 12 ∧ Ready extent images ids (i + 1) s' ∧
      s'.forest.life = s.forest.life + names.length := by
  obtain ⟨⟨acquired, hlaid⟩, hworn, hs₁, hstocked, hundestroyed⟩ := hready
  obtain ⟨-, -, hlife, -, -⟩ := mountAll_keeps hmount hs
  have hnext : i % images.length < images.length := Nat.mod_lt i hpos
  -- another image of the swapchain is shown
  obtain ⟨f, hacquire, hlaid', hlife', hnodes⟩ := hlaid.acquire hs₁.proper.wellFormed hnext
  have hs₂ : Accounted f s₁.device images := by
    refine hs₁.operate (o := .acquire swapchain (i % images.length)) (List.nil_subset _) ?_
    exact Except.bind_eq_ok_iff.2 ⟨f, hacquire, rfl⟩
  have hworn' : Worn f := hworn.of_nodes fun j n' hn' =>
    let ⟨n, hn, _, _, hcurrent⟩ := hnodes j n' hn'
    ⟨n, hn, hcurrent⟩
  -- the passes are compiled
  obtain ⟨plan, c', d', hcompile, hbarriers, ht, hasked, hholds⟩ := exists_compile dir
    (declare_passes s.graph) hlaid' hnext hworn' hs₂ hstocked.tallied
  obtain ⟨hlaid'', hworn''⟩ := laid_carry hlaid' (List.getElem?_eq_getElem hnext) hworn'
  -- all trees were mounted in this frame
  have hexpired : (f.carry (Timeline.ofFrame f.nodes (frameWith (i % images.length)))).expired
      (s.forest.life + 1) = [] := by
    refine expired_of_mountAll hmount hs (fun j n hn => name_of_sketched hlaid.sketch hn) ?_
    intro j n' hn'
    obtain ⟨n, hn⟩ := Forest.exists_of_nodes_carry hn'
    obtain ⟨t, ht, -⟩ := Forest.exists_carry
      (Timeline.ofFrame f.nodes (frameWith (i % images.length))) hn
    obtain rfl := Option.some.inj (hn'.symm.trans ht)
    obtain ⟨m, hm, hparent, hlife, -⟩ := hnodes j n hn
    exact ⟨m, hm, hparent, hlife⟩
  refine ⟨_, _, frame_ok hmount (hcount ▸ hacquire) hcompile hexpired, rfl, hbarriers, ?_, ?_⟩
  · refine ⟨⟨_, hlaid''⟩, hworn'', hs₂.compile hcompile, ?_, ?_⟩
    · exact hstocked.step hpos (fun _ _ hi hj => hlaid.window_injective hs₁.ledger hi hj) ht hasked
        hholds
    · exact (compileFrame_ok hcompile).2.destroyed.trans hundestroyed
  · exact (Forest.life_carry _ _).trans (hlife'.trans hlife)

/-! ## All frames -/

/-- The next frame can mount its resources, and is then ready. -/
theorem Ready.exists_mountAll (hwidth : extent.width ≠ 0) (hheight : extent.height ≠ 0)
    (hpos : 0 < images.length) (h : Ready extent images ids i s) :
    ∃ s₁, (mountAll names s).run.result = .ok (.ok s₁) ∧ Ready extent images ids i s₁ := by
  obtain ⟨⟨acquired, hlaid⟩, hworn, hs, hstocked, hundestroyed⟩ := h
  obtain ⟨s₁, hmount, hlaid₁, hstates⟩ := exists_next_mountAll hwidth hheight
    (List.ne_nil_of_length_pos hpos) hs hlaid
  obtain ⟨hs₁, hmounts, -, -, hcache⟩ := mountAll_keeps hmount hs
  refine ⟨s₁, hmount, ⟨acquired, hlaid₁⟩, fun j => ?_, hs₁, ?_, ?_⟩
  · rw [hstates]
    exact hworn j
  · rw [hcache]
    exact ⟨hstocked.tallied.of_mounts hmounts, hstocked.keys, hstocked.calls⟩
  · exact (destroyed_of_mounts hmounts).trans hundestroyed

/-- **Any number of frames goes through.** None releases anything, and each has twelve barriers. -/
theorem exists_frames (hwidth : extent.width ≠ 0) (hheight : extent.height ≠ 0)
    (hcount : settings.swapchainImageCount = images.length) (hpos : 0 < images.length)
    (dir : String) (count : Nat) {s₁ : RunState}
    (hmount : (mountAll names s).run.result = .ok (.ok s₁))
    (hs : Accounted s.forest s.device images) (hready : Ready extent images ids i s₁) :
    ∃ reports s', (framesFrom settings (shaders dir) names i (count + 1) s).run.result =
        .ok (.ok (reports, s')) ∧
      reports.length = count + 1 ∧ (∀ r ∈ reports, r.released = 0 ∧ r.plan.barrierCount = 12) ∧
      Ready extent images ids (i + (count + 1)) s' ∧
      s'.forest.life = s.forest.life + (count + 1) * names.length := by
  induction count generalizing i s s₁ with
  | zero =>
    obtain ⟨report, s', hframe, hreleased, hbarriers, hready', hlife⟩ :=
      exists_frame hcount hpos hmount hs hready
    refine ⟨[report], s', RunM.bind_ok_iff.2 ⟨_, hframe, rfl⟩, rfl, ?_, hready', by omega⟩
    exact List.forall_mem_singleton.2 ⟨hreleased, hbarriers⟩
  | succ count ih =>
    obtain ⟨report, s', hframe, hreleased, hbarriers, hready', hlife⟩ :=
      exists_frame hcount hpos hmount hs hready
    obtain ⟨s₂, hmount₂, hready₂⟩ := hready'.exists_mountAll hwidth hheight hpos
    obtain ⟨reports, s'', hframes, hlength, hall, hready'', hlife'⟩ :=
      ih hmount₂ hready'.accounted hready₂
    refine ⟨report :: reports, s'', RunM.bind_ok_iff.2 ⟨_, hframe, RunM.bind_ok_iff.2
      ⟨_, hframes, rfl⟩⟩, ?_, List.forall_mem_cons.2 ⟨⟨hreleased, hbarriers⟩, hall⟩, ?_, ?_⟩
    · rw [List.length_cons, hlength]
    · rwa [show i + (count + 1 + 1) = i + 1 + (count + 1) by omega]
    · rw [hlife', hlife, Nat.succ_mul (count + 1)]
      omega

end Sample

end FrameGraph
