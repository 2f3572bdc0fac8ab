import FrameGraph.Proofs.SampleForest

/-!
# Mounting the sample frame

The first time that all resources of the sample frame are mounted, the swapchain unfolds and all
objects are made (`Sample.exists_first_mountAll`). Every later time finds them as they are
(`Sample.exists_next_mountAll`).
-/

set_option autoImplicit false

namespace FrameGraph.Sample

variable {extent : Extent} {images : List (Handle .image)} {acquired i : Nat} {ids : Nat → Nat}
  {f : Forest} {n m : Node} {s s' : RunState} {spare : List (Handle .image)}

/-- The names of the roots. -/
def names : List String := localNames ++ [swapchain]

theorem names_eq (extent : Extent) (images : List (Handle .image)) (acquired : Nat) :
    ((plainNodes extent images acquired).filter (·.isRoot)).map (·.name) = names := rfl

/-! ## What is there -/

theorem name_of_root (hm : m ∈ unfolded extent images acquired) (hparent : m.parent = none) :
    m.name ∈ names := by
  rcases List.mem_append.1 hm with hm | hm
  · rw [← names_eq extent images acquired]
    refine List.mem_map_of_mem (List.mem_filter.2 ⟨hm, ?_⟩)
    rw [Node.isRoot, hparent]
    rfl
  · obtain ⟨x, -, hm⟩ := List.mem_flatMap.1 hm
    simp only [shownNodes, List.mem_cons, List.not_mem_nil, or_false] at hm
    rcases hm with rfl | rfl <;> cases hparent

theorem exists_sketched
    (h : f.nodes.map Node.sketch = (unfolded extent images acquired).map .sketch)
    (hn : f.nodes[i]? = some n) :
    ∃ m ∈ unfolded extent images acquired, n.sketch = m.sketch := by
  have hi := congrArg (·[i]?) h
  simp only [List.getElem?_map, hn, Option.map_some] at hi
  obtain ⟨m, hm, hsketch⟩ := Option.map_eq_some_iff.1 hi.symm
  exact ⟨m, List.mem_of_getElem? hm, hsketch.symm⟩

theorem name_of_sketched
    (h : f.nodes.map Node.sketch = (unfolded extent images acquired).map .sketch)
    (hn : f.nodes[i]? = some n) (hparent : n.parent = none) : n.name ∈ names := by
  obtain ⟨m, hm, hsketch⟩ := exists_sketched h hn
  have hname : n.sketch.name = m.sketch.name := by rw [hsketch]
  have hup : n.sketch.parent = m.sketch.parent := by rw [hsketch]
  rw [show n.name = m.name from hname]
  exact name_of_root hm (hup.symm.trans hparent)

/-- When all names are mounted, all nodes have their objects. -/
theorem exists_laid (h : (mountAll names s).run.result = .ok (.ok s'))
    (hs : Accounted s.forest s.device spare)
    (hsketch : s'.forest.nodes.map Node.sketch = (unfolded extent images acquired).map .sketch) :
    ∃ ids, Laid extent images acquired ids s'.forest := by
  refine exists_backed hsketch (fun m => unused_of_mem_unfolded) fun n hn => ?_
  obtain ⟨i, hi⟩ := List.mem_iff_getElem?.1 hn
  obtain ⟨r, hr, hparent⟩ := Forest.exists_root (mountAll_keeps h hs).1.proper.wellFormed hi
  exact (mountAll_trees h hs hi hr (name_of_sketched hsketch hr hparent)).1

/-! ## What can be mounted -/

theorem mountable_local (hwidth : extent.width ≠ 0) (hheight : extent.height ≠ 0) {rest : List Node}
    (h : f.nodes.map Node.sketch = (localNodes extent ++ rest).map .sketch) :
    ∀ name ∈ localNames, f.Mountable name := by
  have hall : ∀ name ∈ localNames,
      (⟨localNodes extent ++ rest, 0⟩ : Forest).Mountable name := by
    have himage (i : Nat) (name : String) (desc : ImageDesc) :
        desc.width = extent.width → desc.height = extent.height →
        (localNodes extent ++ rest)[i]? = (imageNodes name desc i)[0]? →
        (⟨localNodes extent ++ rest, 0⟩ : Forest).Mountable name := fun hw hh hn =>
      ⟨i, _, hn, rfl, rfl, .inr ⟨hw ▸ hwidth, hh ▸ hheight⟩, fun hkind => by cases hkind⟩
    have hbuffer (i : Nat) (name : String) (residency : Residency) (desc : BufferDesc) :
        desc.size ≠ 0 → (localNodes extent ++ rest)[i]? = some (bufferNode name residency desc) →
        (⟨localNodes extent ++ rest, 0⟩ : Forest).Mountable name := fun hsize hn =>
      ⟨i, _, hn, rfl, rfl, hsize, fun hkind => by cases hkind⟩
    simp only [localNames, List.forall_mem_cons, List.not_mem_nil, false_implies, implies_true,
      and_true]
    exact ⟨himage 0 _ _ rfl rfl rfl, himage 2 _ _ rfl rfl rfl, himage 4 _ _ rfl rfl rfl,
      hbuffer 6 _ _ _ (by decide) rfl, hbuffer 7 _ _ _ (by decide) rfl,
      hbuffer 8 _ _ _ (by decide) rfl, hbuffer 9 _ _ _ (by decide) rfl,
      hbuffer 10 _ _ _ (by decide) rfl⟩
  exact fun name hname => (hall name hname).of_sketch h

/-! ## The first time -/

/-- None of the first names is that of an image of the swapchain. -/
theorem fresh_plainNodes (extent : Extent) (images : List (Handle .image)) (life : Nat) :
    Forest.FreshFrom ⟨plainNodes extent images acquired, life⟩ swapchain 0 := by
  have hnames : ∀ name ∈ (plainNodes extent images acquired).map (·.name),
      ¬ (swapchain.toList ++ ['/']).isPrefixOf name.toList = true := by
    show ∀ name ∈ ["albedo", "albedo/albedo", "normal", "normal/normal", "depth", "depth/depth",
      "camera", "light_upload", "lights", "instances", "draws", "swapchain"], _
    decide
  refine fun j _ => ⟨fun hmem => hnames _ hmem ?_, fun hmem => hnames _ hmem ?_⟩
  · rw [toList_shownName, List.isPrefixOf_iff_prefix]
    exact ⟨Nat.toDigits 10 j, by simp⟩
  · rw [toList_defaultViewName, toList_shownName, List.isPrefixOf_iff_prefix]
    exact ⟨Nat.toDigits 10 j ++ '/' :: (swapchain.toList ++ '/' :: Nat.toDigits 10 j), by simp⟩

theorem stateAt_of_outline
    (h : f.nodes.map Node.outline = (unfolded extent images acquired).map .outline) (i : Nat) :
    f.stateAt i = .undefined := by
  unfold Forest.stateAt
  cases hn : f.nodes[i]? with
  | none => rfl
  | some n =>
    obtain ⟨m, hm, hout⟩ := Forest.exists_node_of_outline
      (f := ⟨unfolded extent images acquired, 0⟩) h hn
    have hcurrent : n.outline.current = m.outline.current := by rw [hout]
    have hunused : m.unused.current = m.current := by
      rw [unused_of_mem_unfolded (List.mem_of_getElem? hm)]
    exact hcurrent.trans hunused.symm

/-- What the swapchain unfolds into does not depend on what else its node carries. -/
theorem windowNodes_eq (hname : n.name = swapchain) :
    swapchainNodes ⟨11, n⟩ (window extent images) 12 = windowNodes extent images := by
  refine List.flatMap_congr fun x _ => ?_
  simp only [shownNodes, hname, swapchainNode, Nat.add_comm 12]

/-- The swapchain unfolds when it is mounted for the first time. -/
theorem expandSwapchain_plain
    (hout : f.nodes.map Node.outline = (plainNodes extent images 0).map .outline) (life : Nat) :
    ∃ n, f.nodes[11]? = some n ∧ n.name = swapchain ∧ n.parent = none ∧
      n.payload = .swapchain (window extent images) 0 ∧
      (Forest.expandSwapchain ⟨f.nodes, life⟩ 11).result =
        .ok ⟨f.nodes ++ windowNodes extent images, life⟩ := by
  have hstart : (⟨plainNodes extent images 0, 0⟩ : Forest).nodes[11]? =
      some (swapchainNode extent images 0) := rfl
  obtain ⟨n, hn, hsame⟩ := Forest.exists_node_of_outline hout.symm hstart
  have hname : n.name = swapchain := (congrArg Node.name hsame).symm
  have hpayload : n.payload = .swapchain (window extent images) 0 := by
    have hbare : n.payload.bare = .swapchain (window extent images) 0 :=
      (congrArg Node.payload hsame).symm
    cases hp : n.payload <;> rw [hp] at hbare <;> cases hbare
    rfl
  refine ⟨n, hn, hname, (congrArg Node.parent hsame).symm, hpayload, ?_⟩
  -- names and parents are those of the start
  have hview {α : Type} (view : Node → α) (hv : ∀ n, view n.outline = view n) :
      f.nodes.map view = (plainNodes extent images 0).map view := by
    have h := congrArg (List.map view) hout
    simpa only [List.map_map, Function.comp_def, hv] using h
  have hchildren : Forest.children ⟨f.nodes, life⟩ 11 = [] := by
    rw [Forest.children, show Forest.hierarchy ⟨f.nodes, life⟩ =
      (plainNodes extent images 0).map (·.parent) from hview (·.parent) fun _ => rfl]
    rfl
  have hfresh : Forest.FreshFrom ⟨f.nodes, life⟩ n.name 0 := by
    have hnames := hview (·.name) fun _ => rfl
    rw [hname]
    unfold Forest.FreshFrom Forest.names
    rw [hnames]
    exact fresh_plainNodes extent images 0
  have hsize : Forest.size ⟨f.nodes, life⟩ = 12 := by
    have hlength := congrArg List.length (hview (·.name) fun _ => rfl)
    rwa [List.length_map, List.length_map] at hlength
  have hexpand :=
    Forest.expandSwapchain_of_fresh (f := ⟨f.nodes, life⟩) hn hpayload hchildren (hfresh.between _)
  rw [hsize, windowNodes_eq hname] at hexpand
  exact hexpand

/-- **The first mount of all resources goes through**: the swapchain unfolds, and every node gets
its object. -/
theorem exists_first_mountAll (hwidth : extent.width ≠ 0) (hheight : extent.height ≠ 0)
    (hs : Accounted s.forest s.device spare)
    (hstart : s.forest.nodes = plainNodes extent images 0) :
    ∃ s' ids, (mountAll names s).run.result = .ok (.ok s') ∧
      Laid extent images 0 ids s'.forest ∧ ∀ i, s'.forest.stateAt i = .undefined := by
  obtain ⟨t, ht, hout⟩ := exists_mountAll hs
    (mountable_local hwidth hheight (by rw [hstart, plainNodes]))
  rw [hstart] at hout
  have hproper := (mountAll_keeps ht hs).1.proper
  obtain ⟨n, hn, hname, hparent, hpayload, hexpand⟩ :=
    expandSwapchain_plain hout (t.forest.life + 1)
  have htop : t.forest.root 11 = 11 := Forest.root_of_top hn hparent
  have hp : t.forest.find swapchain = .ok ⟨11, n⟩ :=
    hname ▸ Forest.find_of_nodes hproper.wellFormed hn
  rw [← htop] at hexpand
  obtain ⟨g, d, hmount⟩ := hproper.exists_mount hp hexpand (fun m hm => by
    rw [htop, List.getElem?_append_left (List.getElem?_eq_some_iff.1 hn).1, hn] at hm
    obtain rfl := Option.some.inj hm
    rw [hpayload]
    trivial) t.device
  have hall : (mountAll names s).run.result = .ok (.ok { t with forest := g, device := d }) :=
    mountAll_concat_ok_iff.2 ⟨t, g, d, ht, hmount, rfl⟩
  have hfinal : g.nodes.map Node.outline = (unfolded extent images 0).map .outline := by
    rw [Forest.mount_outline hmount hp hexpand, List.map_append, hout, ← List.map_append]
    rfl
  obtain ⟨ids, hlaid⟩ := exists_laid hall hs
    (Forest.sketch_of_outline (f := ⟨unfolded extent images 0, 0⟩) hfinal)
  exact ⟨_, ids, hall, hlaid, stateAt_of_outline hfinal⟩

/-! ## Every later time -/

theorem Laid.sketch (h : Laid extent images acquired ids f) :
    f.nodes.map Node.sketch = (unfolded extent images acquired).map .sketch := by
  have hback (p : Payload) (id : Nat) : (p.back id).bare = p.bare := by cases p <;> rfl
  calc f.nodes.map Node.sketch
      = (f.nodes.map Node.unused).map Node.sketch := by
        rw [List.map_map]
        rfl
    _ = ((unfolded extent images acquired).zipIdx.map Prod.fst).map Node.sketch := by
        rw [h, backed, List.map_map, List.map_map]
        refine List.map_congr_left fun x _ => ?_
        simp only [Function.comp_apply, Node.sketch, Node.outline, hback]
    _ = (unfolded extent images acquired).map Node.sketch := by rw [List.zipIdx_map_fst]

/-- Nodes that have their objects keep them. -/
theorem Laid.of_retains {g : Forest} (h : Laid extent images acquired ids f) (hg : f.Retains g)
    (hlength : g.nodes.length = f.nodes.length) : Laid extent images acquired ids g := by
  refine Eq.trans (List.ext_getElem? fun i => ?_) h
  rw [List.getElem?_map, List.getElem?_map]
  cases hn : f.nodes[i]? with
  | none => rw [List.getElem?_eq_none (hlength ▸ List.getElem?_eq_none_iff.1 hn)]
  | some n =>
    obtain ⟨n', hn', hr⟩ := hg i n hn
    have hb : n.isBacked = true := by
      obtain ⟨m, -, rfl⟩ := h.exists_node hn
      unfold Node.isBacked Forest.dressed
      cases m.payload <;> rfl
    rw [hn', Option.map_some, Option.map_some, hr.unused_eq hb]

/-- **Every later mount of all resources goes through** and leaves the objects and states as they
are. -/
theorem exists_next_mountAll (hwidth : extent.width ≠ 0) (hheight : extent.height ≠ 0)
    (himages : images ≠ []) (hs : Accounted s.forest s.device spare)
    (h : Laid extent images acquired ids s.forest) :
    ∃ s', (mountAll names s).run.result = .ok (.ok s') ∧
      Laid extent images acquired ids s'.forest ∧
      ∀ i, s'.forest.stateAt i = s.forest.stateAt i := by
  have hlocal : ∀ name ∈ localNames, s.forest.Mountable name :=
    mountable_local hwidth hheight (h.sketch.trans (congrArg _ (List.append_assoc _ _ _)))
  have hswapchain : s.forest.Mountable swapchain := by
    refine ⟨11, _, h.node (m := swapchainNode extent images acquired) rfl, rfl, rfl, trivial,
      fun _ => ⟨12, ?_⟩⟩
    rw [h.children_swapchain]
    refine List.mem_map.2 ⟨0, List.mem_range.2 (List.length_pos_iff.2 himages), rfl⟩
  have hnames : ∀ name ∈ names, s.forest.Mountable name := fun name hname =>
    (List.mem_append.1 hname).elim (hlocal name) fun hlast =>
      List.mem_singleton.1 hlast ▸ hswapchain
  obtain ⟨s', hs', hout⟩ := exists_mountAll hs hnames
  have hlength := congrArg List.length hout
  rw [List.length_map, List.length_map] at hlength
  obtain ⟨-, hmounts, -⟩ := mountAll_keeps hs' hs
  refine ⟨s', hs', h.of_retains (retains_of_mounts hmounts) hlength, fun i => ?_⟩
  have hi := congrArg (fun l => (l[i]?).map Node.current) hout
  simp only [List.getElem?_map, Option.map_map] at hi
  exact congrArg (·.getD .undefined) hi

end FrameGraph.Sample
