import FrameGraph.Proofs.SampleResources

/-!
# The forest of the sample frame

Once its resources are mounted, the forest of the sample frame is known up to the numbers of the
objects, the dates and the states (`Sample.Laid`). So are its lookups: the name of an image or a
buffer finds its node (`Laid.tracked`), and the swapchain stands for the image acquired from it
(`Laid.resolve_swapchain`).
-/

set_option autoImplicit false

namespace FrameGraph

/-- When the node at a position was last mounted. -/
def Forest.lifeAt (f : Forest) (i : Nat) : Nat := ((f.nodes[i]?).map (·.life)).getD 0

/-- The state that the node at a position carries. -/
def Forest.stateAt (f : Forest) (i : Nat) : AccessState :=
  ((f.nodes[i]?).map (·.current)).getD .undefined

/-- A node as it stands at a position, with the object of number `ids i`. -/
def Forest.dressed (f : Forest) (ids : Nat → Nat) (i : Nat) (m : Node) : Node :=
  { m with payload := m.payload.back (ids i), life := f.lifeAt i, current := f.stateAt i }

@[simp] theorem Forest.kind_dressed (f : Forest) (ids : Nat → Nat) (i : Nat) (m : Node) :
    (f.dressed ids i m).kind = m.kind := by
  unfold dressed Node.kind
  cases m.payload <;> rfl

theorem Forest.eq_dressed {f : Forest} {ids : Nat → Nat} {i : Nat} {n m : Node}
    (hn : f.nodes[i]? = some n) (h : n.unused = { m with payload := m.payload.back (ids i) }) :
    n = f.dressed ids i m := by
  have hlife : f.lifeAt i = n.life := by simp [lifeAt, hn]
  have hstate : f.stateAt i = n.current := by simp [stateAt, hn]
  calc n
      = { n.unused with life := n.life, current := n.current } := rfl
    _ = { m with payload := m.payload.back (ids i), life := n.life, current := n.current } := by
        rw [h]
    _ = f.dressed ids i m := by rw [dressed, hlife, hstate]

/-- A name of an image has its default view's handle. -/
theorem Forest.imageViewHandle_of_default {f : Forest} (hf : f.WellFormed) {name : String}
    {p : Place} {j : Nat} {v : Node} {desc : ImageViewDesc} {origin : String}
    {x : Handle .imageView} (h : f.resolve name = .ok p) (hkind : p.node.kind = .image)
    (hv : f.nodes[j]? = some v) (hparent : v.parent = some p.index)
    (hname : v.name = defaultViewName p.node.name)
    (hpayload : v.payload = .imageView desc origin (some x)) : f.imageViewHandle name = .ok x := by
  have hview := Forest.view_of_default hf h hkind hv hparent hname
  refine Except.bind_eq_ok_iff.2 ⟨_, hview, ?_⟩
  rw [hpayload]
  rfl

namespace Sample

variable {extent : Extent} {images : List (Handle .image)} {acquired i j : Nat}
  {ids : Nat → Nat} {f : Forest} {n m : Node} {image : Handle .image}

/-! ## The nodes of the window -/

def windowDesc (extent : Extent) : ImageDesc :=
  .twoD extent.width extent.height .b8g8r8a8Unorm (ImageUsage.colorAttachment ∪ .transferDst)

/-- The image of that number. -/
def imageNode (extent : Extent) (image : Handle .image) (j : Nat) : Node where
  name := shownName swapchain j
  residency := .swapchain
  payload := .image (windowDesc extent) (some image) true
  parent := some 11

/-- The view of the image of that number. -/
def viewNode (extent : Extent) (j : Nat) : Node where
  name := defaultViewName (shownName swapchain j)
  residency := .swapchain
  payload := .imageView (windowDesc extent).defaultView (shownName swapchain j) none
  parent := some (2 * j + 12)

theorem unfolded_image (hj : images[j]? = some image) :
    (unfolded extent images acquired)[2 * j + 12]? = some (imageNode extent image j) := by
  have hpair := (getElem?_flatMap_pair (fun x => imageNode extent x.1 x.2)
    (fun x => viewNode extent x.2) images.zipIdx j).1
  rw [List.getElem?_zipIdx, hj, Option.map_some, Option.map_some, Nat.zero_add] at hpair
  exact hpair

theorem unfolded_view (hj : images[j]? = some image) :
    (unfolded extent images acquired)[2 * j + 13]? = some (viewNode extent j) := by
  have hpair := (getElem?_flatMap_pair (fun x => imageNode extent x.1 x.2)
    (fun x => viewNode extent x.2) images.zipIdx j).2
  rw [List.getElem?_zipIdx, hj, Option.map_some, Option.map_some, Nat.zero_add] at hpair
  exact hpair

/-! ## What is laid out -/

/-- Whether the forest is that of the sample frame with all its objects, after some mounts and
frames. -/
def Laid (extent : Extent) (images : List (Handle .image)) (acquired : Nat) (ids : Nat → Nat)
    (f : Forest) : Prop :=
  f.nodes.map Node.unused = backed ids (unfolded extent images acquired)

namespace Laid

variable (h : Laid extent images acquired ids f)
include h

theorem exists_node (hn : f.nodes[i]? = some n) :
    ∃ m, (unfolded extent images acquired)[i]? = some m ∧ n = f.dressed ids i m := by
  have hi := congrArg (·[i]?) h
  simp only [List.getElem?_map, getElem?_backed, hn, Option.map_some] at hi
  obtain ⟨m, hm, hunused⟩ := Option.map_eq_some_iff.1 hi.symm
  exact ⟨m, hm, Forest.eq_dressed hn hunused.symm⟩

theorem node (hm : (unfolded extent images acquired)[i]? = some m) :
    f.nodes[i]? = some (f.dressed ids i m) := by
  have hi := congrArg (·[i]?) h
  simp only [List.getElem?_map, getElem?_backed, hm, Option.map_some] at hi
  obtain ⟨n, hn, hunused⟩ := Option.map_eq_some_iff.1 hi
  rw [hn, Forest.eq_dressed hn hunused]

theorem hierarchy : f.hierarchy = (unfolded extent images acquired).map (·.parent) :=
  calc f.hierarchy
      = (f.nodes.map Node.unused).map (·.parent) := by
        rw [List.map_map]
        rfl
    _ = ((unfolded extent images acquired).zipIdx.map Prod.fst).map (·.parent) := by
        rw [h, backed, List.map_map, List.map_map]
        rfl
    _ = (unfolded extent images acquired).map (·.parent) := by rw [List.zipIdx_map_fst]

/-! ## Lookups -/

theorem find (hf : f.WellFormed) (hm : (unfolded extent images acquired)[i]? = some m) :
    f.find m.name = .ok ⟨i, f.dressed ids i m⟩ :=
  Forest.find_of_nodes hf (h.node hm)

theorem resolve (hf : f.WellFormed) (hm : (unfolded extent images acquired)[i]? = some m)
    (hkind : m.kind ≠ .swapchain) : f.resolve m.name = .ok ⟨i, f.dressed ids i m⟩ :=
  Forest.resolve_of_find (h.find hf hm) (by simpa using hkind)

/-- **The name of an image or a buffer finds its node.** -/
theorem tracked (hf : f.WellFormed) (hm : (unfolded extent images acquired)[i]? = some m)
    (hkind : m.IsTracked) : f.tracked m.name = .ok ⟨i, f.dressed ids i m⟩ := by
  refine Forest.tracked_of_resolve (h.resolve hf hm ?_) ?_
  · rcases hkind with hkind | hkind <;> simp [hkind]
  · rcases hkind with hkind | hkind <;> simp [hkind, ResourceKind.isView]

/-- An image is drawn to through the view that follows it. -/
theorem imageViewHandle (hf : f.WellFormed) {v : Node} {desc : ImageViewDesc} {origin : String}
    (hm : (unfolded extent images acquired)[i]? = some m) (hkind : m.kind = .image)
    (hv : (unfolded extent images acquired)[i + 1]? = some v) (hparent : v.parent = some i)
    (hname : v.name = defaultViewName m.name) (hpayload : v.payload = .imageView desc origin none) :
    f.imageViewHandle m.name = .ok ⟨ids (i + 1)⟩ := by
  have hview : (f.dressed ids (i + 1) v).payload = .imageView desc origin (some ⟨ids (i + 1)⟩) := by
    simp [Forest.dressed, hpayload, Payload.back]
  exact Forest.imageViewHandle_of_default hf (h.resolve hf hm (by simp [hkind]))
    (by simpa using hkind) (h.node hv) hparent hname hview

end Laid

/-! ## The image acquired -/

/-- The parents of the nodes that a swapchain of `count` images unfolds into. -/
def windowParents (count : Nat) : Hierarchy :=
  (List.range count).flatMap fun j => [some 11, some (2 * j + 12)]

theorem map_parent_windowNodes (extent : Extent) (images : List (Handle .image)) :
    (windowNodes extent images).map (·.parent) = windowParents images.length := by
  have hmap : (windowNodes extent images).map (·.parent) =
      images.zipIdx.flatMap fun x => [some 11, some (2 * x.2 + 12)] := List.map_flatMap
  have hrange : (List.range images.length).flatMap (fun j => [some 11, some (2 * j + 12)]) =
      (images.zipIdx.map Prod.snd).flatMap fun j => [some 11, some (2 * j + 12)] := by
    rw [List.zipIdx_map_snd, List.range_eq_range']
  rw [hmap, windowParents, hrange, List.flatMap_map]

/-- The images of the window follow each other as the children of position 11. -/
theorem children_windowParents {h : Hierarchy} (hlength : h.length = 12)
    (hchildren : h.children 11 = []) (count : Nat) :
    Hierarchy.children (h ++ windowParents count) 11 = (List.range count).map (2 * · + 12) := by
  have hpairs : windowParents count = pairParents 11 h.length count := by
    simp only [windowParents, pairParents, hlength, Nat.add_comm]
  rw [hpairs, children_pairParents 11 count (by omega), hchildren, if_pos rfl, List.nil_append]
  simp only [hlength, Nat.add_comm]

theorem Laid.children_swapchain (h : Laid extent images acquired ids f) :
    f.children 11 = (List.range images.length).map (2 * · + 12) := by
  have hsplit : f.hierarchy =
      (plainNodes extent images acquired).map (·.parent) ++ windowParents images.length := by
    rw [h.hierarchy, ← map_parent_windowNodes extent, ← List.map_append]
    rfl
  rw [Forest.children, hsplit]
  exact children_windowParents rfl rfl _

namespace Laid

variable (h : Laid extent images acquired ids f) (hf : f.WellFormed)
include h hf

theorem find_swapchain :
    f.find swapchain = .ok ⟨11, f.dressed ids 11 (swapchainNode extent images acquired)⟩ :=
  h.find hf (m := swapchainNode extent images acquired) rfl

/-- **The swapchain stands for the image acquired from it.** -/
theorem resolve_swapchain (hj : images[acquired]? = some image) : f.resolve swapchain = .ok
    ⟨2 * acquired + 12, f.dressed ids (2 * acquired + 12) (imageNode extent image acquired)⟩ := by
  refine Forest.resolve_of_acquired (h.find_swapchain hf) rfl ?_
  have hlt : acquired < images.length := (List.getElem?_eq_some_iff.1 hj).1
  rw [h.children_swapchain, List.getElem?_map, List.getElem?_range hlt]
  exact Forest.place?_eq_some_iff.2 ⟨rfl, h.node (unfolded_image hj)⟩

theorem tracked_swapchain (hj : images[acquired]? = some image) : f.tracked swapchain =
    .ok ⟨2 * acquired + 12, f.dressed ids (2 * acquired + 12) (imageNode extent image acquired)⟩ :=
  Forest.tracked_of_resolve (h.resolve_swapchain hf hj) rfl

theorem imageViewHandle_swapchain (hj : images[acquired]? = some image) :
    f.imageViewHandle swapchain = .ok ⟨ids (2 * acquired + 13)⟩ :=
  Forest.imageViewHandle_of_default hf (h.resolve_swapchain hf hj) rfl (h.node (unfolded_view hj))
    rfl rfl rfl

/-- Another image may be acquired. -/
theorem acquire {next : Nat} (hnext : next < images.length) : ∃ f',
    f.acquire swapchain next = .ok f' ∧ Laid extent images next ids f' ∧ f'.life = f.life ∧
      ∀ (i : Nat) n', f'.nodes[i]? = some n' → ∃ n, f.nodes[i]? = some n ∧
        n'.parent = n.parent ∧ n'.life = n.life ∧ n'.current = n.current := by
  have hn := h.node (i := 11) (m := swapchainNode extent images acquired) rfl
  have hrun : f.acquire swapchain next = .ok (f.modify 11 fun n =>
      { n with payload := .swapchain (window extent images) next }) := by
    refine Except.bind_eq_ok_iff.2 ⟨_, h.find_swapchain hf, ?_⟩
    exact if_pos hnext
  refine ⟨_, hrun, ?_, rfl, fun i n' hn' => ?_⟩
  · refine List.ext_getElem? fun i => ?_
    have hi := congrArg (·[i]?) h
    simp only [List.getElem?_map, getElem?_backed] at hi ⊢
    rw [Forest.modify_eq_put hn]
    by_cases h11 : i = 11
    · subst h11
      rw [Forest.nodes_put_self hn]
      rfl
    · have hsame : (unfolded extent images next)[i]? = (unfolded extent images acquired)[i]? := by
        rw [show unfolded extent images next =
          (unfolded extent images acquired).set 11 (swapchainNode extent images next) from rfl]
        exact List.getElem?_set_ne (Ne.symm h11)
      rw [Forest.nodes_put_ne (Ne.symm h11), hsame]
      exact hi
  · rw [Forest.modify_eq_put hn] at hn'
    rcases Forest.nodes_put_cases hn hn' with hm | ⟨rfl, rfl⟩
    · exact ⟨n', hm, rfl, rfl, rfl⟩
    · exact ⟨_, hn, rfl, rfl, rfl⟩

end Laid

end Sample

end FrameGraph
