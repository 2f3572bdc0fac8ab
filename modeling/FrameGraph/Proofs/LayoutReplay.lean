import FrameGraph.Proofs.World

/-!
# Replaying layouts over a run

`Replay` follows a run from its start, with any number of operations and frames in any order, and
carries the layout of every image along: a new image is in none, and a frame's barriers move it.
`Replay.sound` finds that the nodes are right about these layouts all along, and so every frame of
the run follows them: `matchesReplay`.
-/

set_option autoImplicit false

namespace FrameGraph

namespace World

variable {w : World} {f f' : Forest} {d d' : Headless} {spare : List (Handle .image)}
  {l : Layouts}

open Relation (ReflTransGen)

/-! ## Operations -/

theorem Sound.growsAll (hw : Sound ⟨f, d, spare⟩ l) {s : Forest × Headless}
    (h : ReflTransGen Grows (f, d) s) :
    Sound ⟨s.1, s.2, spare⟩ (l.renew [] d s.2) ∧ d.living ⊆ s.2.living := by
  induction h with
  | refl =>
    rw [Layouts.renew_of_subset (List.Subset.refl _)]
    exact ⟨hw, List.Subset.refl _⟩
  | tail _ hstep ih =>
    obtain ⟨hs, hsub⟩ := ih
    obtain ⟨hs', hsub'⟩ := hs.grows hstep
    rw [Layouts.renew_renew hsub hsub'] at hs'
    exact ⟨hs', List.Subset.trans hsub hsub'⟩

theorem Sound.releasesAll (hw : Sound ⟨f, d, spare⟩ l) {s : Forest × Headless}
    (h : ReflTransGen Releases (f, d) s) :
    Sound ⟨s.1, s.2, spare⟩ l ∧ s.2.living ⊆ d.living := by
  induction h with
  | refl => exact ⟨hw, List.Subset.refl _⟩
  | tail _ hstep ih =>
    obtain ⟨hs, hsub⟩ := ih
    obtain ⟨hs', hsub'⟩ := hs.releases hstep
    exact ⟨hs', List.Subset.trans hsub' hsub⟩

/-- A swapchain claims images that nobody claimed before. -/
theorem Sound.addSwapchain {name : String} {source : SwapchainImport}
    (hw : Sound ⟨f, d, spare⟩ l) (hnodup : source.images.Nodup) (hspare : source.images ⊆ spare) :
    Sound ⟨f.push (.ofSwapchain name source), d, spare.filter (· ∉ source.images)⟩
      (l.renew source.images d d) := by
  refine hw.push (fun h hh => (List.mem_filter.1 hh).1) (fun i h hi => ?_) (fun h hh => ?_) ?_
  · refine if_neg ?_
    rintro (hmem | ⟨hmem, hn⟩)
    · exact hw.notSpare i h hi (hspare hmem)
    · exact hn hmem
  · have hmem : h ∈ source.images := List.mem_of_mem_drop hh
    refine ⟨hw.spareKnown h (hspare hmem), fun hh => ?_, fun j hj => ?_⟩
    · exact of_decide_eq_true (List.mem_filter.1 hh).2 hmem
    · rcases claims_push hj with hj | ⟨rfl, -⟩
      · exact absurd (hspare hmem) (hw.notSpare j h hj)
      · rfl
  · exact .of_swapchain rfl hnodup fun h hh => if_pos (.inl (List.mem_of_mem_drop hh))

/-- **Every operation keeps the nodes right about the layouts.** -/
theorem Sound.operate {o : Operation} (hw : w.Sound l) (hnodup : o.images.Nodup)
    (hspare : o.images ⊆ w.spare) (ho : o.run w.forest w.device = .ok (f, d)) :
    Sound ⟨f, d, w.spare.filter (· ∉ o.images)⟩ (l.renew o.images w.device d) := by
  have hall : w.spare.filter (· ∉ ([] : List (Handle .image))) = w.spare :=
    List.filter_eq_self.2 fun h _ => by simp
  rcases o.run_cases ho with ⟨himages, hgrows⟩ | ⟨himages, hreleases⟩ |
    ⟨name, source, himages, -, rfl, rfl⟩
  · rw [himages, hall]
    exact (Sound.growsAll hw hgrows).1
  · obtain ⟨hs, hsub⟩ := Sound.releasesAll hw hreleases
    rw [himages, hall, Layouts.renew_of_subset hsub]
    exact hs
  · rw [himages] at hnodup hspare ⊢
    exact Sound.addSwapchain hw hnodup hspare

/-- An image made elsewhere takes a handle that nobody knows. -/
theorem Sound.mint (hw : w.Sound l) :
    Sound ⟨w.forest, w.device.externalImage.2, w.spare ++ [w.device.externalImage.1]⟩ l where
  owner := hw.owner
  known i h hi := Nat.le_succ_of_le (hw.known i h hi)
  notSpare i h hi hh := by
    rcases List.mem_append.1 hh with hh | hh
    · exact hw.notSpare i h hi hh
    · rw [List.mem_singleton] at hh
      subst hh
      exact absurd (hw.known i _ hi) (Nat.not_succ_le_self _)
  spareKnown h hh := by
    rcases List.mem_append.1 hh with hh | hh
    · exact Nat.le_succ_of_le (hw.spareKnown h hh)
    · rw [List.mem_singleton] at hh
      subst hh
      exact Nat.le_refl _
  livingKnown h hh := Nat.le_succ_of_le (hw.livingKnown h hh)
  node := hw.node

/-! ## Frames -/

theorem Sound.agrees (hw : w.Sound l) : w.forest.Agrees l where
  unique i j n m h hn hm himage himage' :=
    hw.owner i j h ⟨n, hn, Node.mem_claims_of_image himage _⟩
      ⟨m, hm, Node.mem_claims_of_image himage' _⟩
  layout i n h hn := (hw.node i n hn).layout h

section
variable {passes : List Pass} {shaders : Registry} {a : Analysis}
  (ha : (analyze passes w.forest shaders).result = .ok (a, f'))
include ha

/-- A frame changes no claim. -/
theorem claims_of_frame {i : Nat} {h : Handle .image} (hi : f'.Claims i h) :
    w.forest.Claims i h := by
  obtain ⟨n', hn', hh⟩ := hi
  obtain ⟨n, s, hn, rfl, -⟩ := exists_node_before ha hn'
  obtain ⟨-, -, -, rfl⟩ := analyze_ok_iff.1 ha
  refine ⟨n, hn, ?_⟩
  unfold Forest.children at hh ⊢
  rw [Forest.hierarchy_carry] at hh
  exact hh

/-- No barrier is on an image that a swapchain has not unfolded. -/
theorem applyAll_of_pending (hw : w.Sound l) {i : Nat} {n : Node} {source : SwapchainImport}
    {acquired : Nat} (hn : w.forest.nodes[i]? = some n)
    (hp : n.payload = .swapchain source acquired) {h : Handle .image}
    (hh : h ∈ source.images.drop (w.forest.children i).length) :
    l.applyAll a.transitions h = l h := by
  refine Layouts.applyAll_of_filter_nil (List.filter_eq_nil_iff.2 fun b hb hbh => ?_)
  obtain ⟨t, ht, himage⟩ := exists_timeline_of_mem_transitions ha hb
  obtain ⟨hm, -⟩ := node_of_mem_timelines ha ht
  rw [beq_iff_eq.1 hbh] at himage
  obtain rfl := hw.owner _ _ h ⟨n, hn, (Node.mem_claims_of_swapchain hp).2 hh⟩
    ⟨t.node, hm, Node.mem_claims_of_image himage _⟩
  rw [hn] at hm
  obtain rfl := Option.some.inj hm
  simp [Node.image?, hp] at himage

/-- **A frame keeps the nodes right about the layouts.** -/
theorem Sound.frame (hw : w.Sound l) :
    Sound ⟨f', w.device, w.spare⟩ (l.applyAll a.transitions) where
  owner i j h hi hj := hw.owner i j h (claims_of_frame ha hi) (claims_of_frame ha hj)
  known i h hi := hw.known i h (claims_of_frame ha hi)
  notSpare i h hi := hw.notSpare i h (claims_of_frame ha hi)
  spareKnown := hw.spareKnown
  livingKnown := hw.livingKnown
  node i n' hn' := by
    obtain ⟨n, s, hn, rfl, hlast⟩ := exists_node_before ha hn'
    have hnode := hw.node i n hn
    have hchildren : f'.children i = w.forest.children i := by
      obtain ⟨-, -, -, rfl⟩ := analyze_ok_iff.1 ha
      unfold Forest.children
      rw [Forest.hierarchy_carry]
    refine ⟨fun h himage hres => ?_, fun hkind hnone => ?_, hnode.nodup,
      fun source acquired hp h hh => ?_⟩
    · exact (matchesReplay_carried hw.agrees ha).layout i _ h hn' himage hres
    · rcases hlast with ⟨t, ht, rfl, -, -⟩ | ⟨rfl, -⟩
      · obtain ⟨hm, hbacked⟩ := node_of_mem_timelines ha ht
        rw [hn] at hm
        obtain rfl := Option.some.inj hm
        obtain ⟨h, himage⟩ := Node.exists_image hkind hbacked
        exact absurd (himage.symm.trans hnone) (Option.some_ne_none h)
      · exact hnode.bare hkind hnone
    · have hh : h ∈ source.images.drop (w.forest.children i).length := hchildren ▸ hh
      rw [applyAll_of_pending ha hw hn hp hh]
      exact hnode.pending source acquired hp h hh

end

end World

/-! ## Runs -/

/-- What a run has made of the resources, the device and the layouts of all images. It starts
without resources and with the images in any layouts. -/
inductive Replay : World → Layouts → Prop
  | start (l : Layouts) : Replay {} l
  /-- An image is made elsewhere. -/
  | mint {w : World} {l : Layouts} (hw : Replay w l) :
      Replay ⟨w.forest, w.device.externalImage.2, w.spare ++ [w.device.externalImage.1]⟩ l
  /-- An operation may bring in images made elsewhere, each once. Images that it makes or brings in
  are in no layout that matters. -/
  | operate {w : World} {l : Layouts} {o : Operation} {f : Forest} {d : Headless}
      (hw : Replay w l) (hnodup : o.images.Nodup) (hspare : o.images ⊆ w.spare)
      (ho : o.run w.forest w.device = .ok (f, d)) :
      Replay ⟨f, d, w.spare.filter (· ∉ o.images)⟩ (l.renew o.images w.device d)
  /-- A frame carries out its barriers. -/
  | frame {w : World} {l : Layouts} {passes : List Pass} {shaders : Registry} {a : Analysis}
      {f' : Forest} (hw : Replay w l)
      (ha : (analyze passes w.forest shaders).result = .ok (a, f')) :
      Replay ⟨f', w.device, w.spare⟩ (l.applyAll a.transitions)

theorem World.Sound.start (l : Layouts) : World.Sound {} l where
  owner i j h hi := by
    obtain ⟨n, hn, -⟩ := hi
    simp at hn
  known i h hi := by
    obtain ⟨n, hn, -⟩ := hi
    simp at hn
  notSpare i h hi := by simp
  spareKnown := by simp
  livingKnown := by simp [Headless.living]
  node i n hn := by simp at hn

theorem Replay.sound {w : World} {l : Layouts} (hr : Replay w l) : w.Sound l := by
  induction hr with
  | start l => exact .start l
  | mint _ ih => exact ih.mint
  | operate _ hnodup hspare ho ih => exact ih.operate hnodup hspare ho
  | frame _ ha ih => exact ih.frame ha

/-- **Every frame of every run follows the layouts of the replay.** -/
theorem matchesReplay {w : World} {l : Layouts} {passes : List Pass} {shaders : Registry}
    {a : Analysis} {f' : Forest} (hr : Replay w l)
    (ha : (analyze passes w.forest shaders).result = .ok (a, f')) :
    a.MatchesReplay passes w.forest f' l :=
  matchesReplay_of_agrees hr.sound.agrees ha

/-! ### A window shown twice -/

namespace Window

def source : SwapchainImport := ⟨[⟨1⟩], .b8g8r8a8Unorm, ⟨4, 4⟩⟩

/-- A window and a scene that is drawn anew in each frame, both mounted. -/
def forest : Forest where
  nodes := [
    { name := "window", residency := .swapchain, payload := .swapchain source 0, life := 1 },
    { name := "scene", residency := .dontCare, payload := .image {} (some ⟨3⟩) false, life := 2 },
    { name := "scene/scene"
      residency := .dontCare
      payload := .imageView (ImageDesc.defaultView {}) "scene" (some ⟨4⟩)
      parent := some 1
      life := 2 },
    { name := "window/0"
      residency := .swapchain
      payload := .image source.imageDesc (some ⟨1⟩) true
      parent := some 0
      life := 1 },
    { name := "window/0/window/0"
      residency := .swapchain
      payload := .imageView source.imageDesc.defaultView "window/0" (some ⟨2⟩)
      parent := some 3
      life := 1 }]
  life := 2

def device : Headless where
  lastHandle := 4
  created := { images := 1, imageViews := 2 }
  images := [(⟨3⟩, "scene")]
  imageViews := [(⟨2⟩, ⟨1⟩), (⟨4⟩, ⟨3⟩)]

/-- The scene is drawn, copied to the window and drawn over there. -/
def passes : List Pass :=
  [⟨"shade", .compute none, [.bound "scene" "Target" .write]⟩,
   ⟨"show", .copy, Use.copy "scene" "window"⟩,
   ⟨"overlay", .render, [.colorOutput "window"]⟩]

def uses : List PassUses :=
  [⟨[⟨1, .computeShader, .shaderWrite⟩], none⟩,
   ⟨[⟨1, .transfer, .transferRead⟩, ⟨3, .transfer, .transferWrite⟩], none⟩,
   ⟨[⟨3, .colorAttachmentOutput, .colorAttachmentWrite⟩],
    some { pass := 2
           attachments := [{ resource := "window", view := ⟨2⟩, role := .output, kind := .color
                             format := .b8g8r8a8Unorm, samples := .one, tracked := 3 }]
           color := [0]
           extent := ⟨4, 4⟩ }⟩]

def first : Analysis := .ofUses forest uses

def shown : Forest := forest.carry first.timelines

def second : Analysis := .ofUses shown uses

theorem analyze_forest_eq : (analyze passes forest {}).result = .ok (first, shown) := rfl

theorem analyze_shown_eq :
    (analyze passes shown {}).result = .ok (second, shown.carry second.timelines) := rfl

theorem exists_replay (l : Layouts) : ∃ l', Replay ⟨shown, device, []⟩ l' :=
  ⟨_, .frame (.operate (o := .mount "scene") (.operate (o := .mount "window")
    (.operate (o := .addImage "scene" {} .dontCare)
      (.operate (o := .addSwapchain "window" source) (.mint (.start l)) (by decide) (by decide) rfl)
      (by decide) (by decide) rfl) (by decide) (by decide) rfl) (by decide) (by decide) rfl)
    analyze_forest_eq⟩

end Window

theorem matchesReplay_window : ∃ l, Replay ⟨Window.shown, Window.device, []⟩ l ∧
    Window.second.MatchesReplay Window.passes Window.shown
      (Window.shown.carry Window.second.timelines) l := by
  obtain ⟨l, hr⟩ := Window.exists_replay fun _ => .general
  exact ⟨l, hr, matchesReplay hr Window.analyze_shown_eq⟩

end FrameGraph
