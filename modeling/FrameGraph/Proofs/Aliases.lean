import FrameGraph.Proofs.Seats
import FrameGraph.Proofs.WellFormed

/-!
# What a name stands for

Accesses are recorded on buffers and images. A buffer or an image is accessed under its own name,
under that of any of its views, and under that of the swapchain from which it is acquired
(`Forest.StandsFor`). These are all the names under which its accesses are recorded
(`Forest.tracked_eq_ok_iff`), and each is a name of one node only.
-/

set_option autoImplicit false

namespace FrameGraph

namespace Forest

/-- Whether a name is one of those of the buffer or image at a position. -/
inductive StandsFor (f : Forest) (i : Nat) : String → Prop
  | itself {n : Node} (hn : f.nodes[i]? = some n) (htracked : n.IsTracked) : StandsFor f i n.name
  | view {j : Nat} {v : Node} (hv : f.nodes[j]? = some v) (hview : v.kind.isView = true)
      (hparent : v.parent = some i) : StandsFor f i v.name
  | acquired {j k : Nat} {s : Node} {source : SwapchainImport} (hs : f.nodes[j]? = some s)
      (hpayload : s.payload = .swapchain source k) (himage : (f.children j)[k]? = some i) :
      StandsFor f i s.name

variable {f : Forest} {i : Nat} {n : Node} {name : String} {p q : Place}

/-! ## Looking up -/

theorem tracked_of_view (h : f.resolve name = .ok q) (hview : q.node.kind.isView = true)
    (hparent : q.node.parent = some i) (hn : f.nodes[i]? = some n) :
    f.tracked name = .ok ⟨i, n⟩ := by
  obtain ⟨origin, horigin⟩ :=
    Option.isSome_iff_exists.1 (q.node.payload.isSome_origin.trans hview)
  have hplace : q.node.parent.bind f.place? = some ⟨i, n⟩ := by
    rw [hparent]
    exact place?_eq_some_iff.2 ⟨rfl, hn⟩
  refine Except.bind_eq_ok_iff.2 ⟨q, h, ?_⟩
  simp only [horigin, hplace]

theorem tracked_of_resolve (h : f.resolve name = .ok q) (hview : q.node.kind.isView = false) :
    f.tracked name = .ok q := by
  have horigin : q.node.payload.origin? = none :=
    Option.isNone_iff_eq_none.1
      (Option.isSome_eq_false_iff.1 (q.node.payload.isSome_origin.trans hview))
  refine Except.bind_eq_ok_iff.2 ⟨q, h, ?_⟩
  simp only [horigin]

theorem find_of_nodes (hf : f.WellFormed) (hn : f.nodes[i]? = some n) :
    f.find n.name = .ok ⟨i, n⟩ := by
  rw [find, hf.find?_name hn]

/-- An image is seen through the view below it that has the name of its default view. -/
theorem view_of_default (hf : f.WellFormed) {j : Nat} {v : Node} (h : f.resolve name = .ok p)
    (hkind : p.node.kind = .image) (hv : f.nodes[j]? = some v) (hparent : v.parent = some p.index)
    (hname : v.name = defaultViewName p.node.name) : f.view name = .ok ⟨j, v⟩ := by
  have hmem : (⟨j, v⟩ : Place) ∈ (f.children p.index).filterMap f.place? :=
    List.mem_filterMap.2 ⟨j, mem_children_iff.2 ⟨v, hv, hparent⟩, place?_eq_some_iff.2 ⟨rfl, hv⟩⟩
  have hchild : ((f.children p.index).filterMap f.place?).find?
      (fun c => c.node.name == defaultViewName p.node.name) = some ⟨j, v⟩ := by
    cases hfound : ((f.children p.index).filterMap f.place?).find?
        (fun c => c.node.name == defaultViewName p.node.name) with
    | none => exact absurd hname (by simpa using List.find?_eq_none.1 hfound _ hmem)
    | some c =>
      -- no two nodes have the name of the view
      have hc : c.node.name = defaultViewName p.node.name := by
        simpa using List.find?_some hfound
      obtain ⟨k, -, hk⟩ := List.mem_filterMap.1 (List.mem_of_find?_eq_some hfound)
      obtain ⟨rfl, hm⟩ := place?_eq_some_iff.1 hk
      obtain rfl := hf.index_unique hv hm (hname.trans hc.symm)
      obtain rfl := Option.some.inj (hv.symm.trans hm)
      rfl
  refine Except.bind_eq_ok_iff.2 ⟨p, h, ?_⟩
  rw [hkind]
  dsimp only
  rw [hchild]

/-! ## The names of a node -/

/-- Only buffers and images have names under which they are accessed. -/
theorem StandsFor.exists_node (hs : f.Seated) (h : f.StandsFor i name) :
    ∃ n, f.nodes[i]? = some n ∧ n.IsTracked := by
  cases h with
  | itself hn htracked => exact ⟨_, hn, htracked⟩
  | view hv hview hparent =>
    obtain ⟨j, p, hparent', hp, htracked⟩ := (hs _ _ hv).exists_shown hview
    rw [hparent] at hparent'
    obtain rfl := Option.some.inj hparent'
    exact ⟨p, hp, htracked⟩
  | acquired hn hpayload himage =>
    obtain ⟨c, hc, -, -⟩ := hs.exists_child hn (List.mem_of_getElem? himage)
    exact ⟨c, hc, .inr (hs.kind_of_shown hn hpayload (List.mem_of_getElem? himage) hc)⟩

/-- Under each of its names the node is found. -/
theorem StandsFor.tracked (hf : f.WellFormed) (hs : f.Seated) (h : f.StandsFor i name)
    (hn : f.nodes[i]? = some n) : f.tracked name = .ok ⟨i, n⟩ := by
  cases h with
  | itself hn' htracked =>
    rw [hn] at hn'
    obtain rfl := Option.some.inj hn'
    have hkind : n.kind ≠ .swapchain ∧ n.kind.isView = false := by
      rcases htracked with hkind | hkind <;> simp [hkind, ResourceKind.isView]
    exact tracked_of_resolve (resolve_of_find (find_of_nodes hf hn) hkind.1) hkind.2
  | @view j v hv hview hparent =>
    have hkind : v.kind ≠ .swapchain := by
      intro hkind
      simp [hkind, ResourceKind.isView] at hview
    exact tracked_of_view (resolve_of_find (find_of_nodes hf hv) hkind) hview hparent hn
  | @acquired j k s source hsnode hpayload himage =>
    have hplace : ((f.children j)[k]?).bind f.place? = some ⟨i, n⟩ := by
      rw [himage]
      exact place?_eq_some_iff.2 ⟨rfl, hn⟩
    have hkind := hs.kind_of_shown hsnode hpayload (List.mem_of_getElem? himage) hn
    refine tracked_of_resolve (resolve_of_acquired (find_of_nodes hf hsnode) hpayload hplace) ?_
    simp [hkind, ResourceKind.isView]

/-- What is found under a name has that name. -/
theorem standsFor_of_tracked (hs : f.Seated) (h : f.tracked name = .ok p) :
    f.StandsFor p.index name := by
  obtain ⟨q, hq, -⟩ := Except.bind_eq_ok_iff.1 h
  have hqn := nodes_of_resolve hq
  rcases resolve_cases hq with ⟨hfind, hkind⟩ | ⟨o, source, acquired, ho, hpayload, himage⟩
  · obtain rfl := (nodes_of_find hfind).2
    by_cases hview : q.node.kind.isView = true
    · obtain ⟨j, m, hparent, hm, -⟩ := (hs _ _ hqn).exists_shown hview
      rw [tracked_of_view hq hview hparent hm] at h
      obtain rfl := Except.ok.inj h
      exact .view hqn hview hparent
    · rw [tracked_of_resolve hq (by simpa using hview)] at h
      obtain rfl := Except.ok.inj h
      refine .itself hqn ?_
      exact hs.isTracked (tracked_of_resolve hq (by simpa using hview))
  · obtain ⟨j, hj, hplace⟩ := Option.bind_eq_some_iff.1 himage
    obtain ⟨rfl, -⟩ := place?_eq_some_iff.1 hplace
    obtain ⟨hon, rfl⟩ := nodes_of_find ho
    have hkind := hs.kind_of_shown hon hpayload (List.mem_of_getElem? hj) hqn
    rw [tracked_of_resolve hq (by simp [hkind, ResourceKind.isView])] at h
    obtain rfl := Except.ok.inj h
    exact .acquired hon hpayload hj

/-- **The accesses under a name are recorded on the node that it stands for.** -/
theorem tracked_eq_ok_iff (hf : f.WellFormed) (hs : f.Seated) :
    f.tracked name = .ok p ↔ f.nodes[p.index]? = some p.node ∧ f.StandsFor p.index name :=
  ⟨fun h => ⟨nodes_of_tracked h, standsFor_of_tracked hs h⟩, fun h => h.2.tracked hf hs h.1⟩

/-- A name stands for one node at most. -/
theorem StandsFor.unique (hf : f.WellFormed) (hs : f.Seated) {j : Nat} (hi : f.StandsFor i name)
    (hj : f.StandsFor j name) : i = j := by
  obtain ⟨n, hn, -⟩ := hi.exists_node hs
  obtain ⟨m, hm, -⟩ := hj.exists_node hs
  have h := hi.tracked hf hs hn
  rw [hj.tracked hf hs hm] at h
  exact congrArg Place.index (Except.ok.inj h).symm

end Forest

end FrameGraph
