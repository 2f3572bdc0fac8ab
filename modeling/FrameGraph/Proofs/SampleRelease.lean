import FrameGraph.Proofs.SampleForest
import FrameGraph.Proofs.SampleMounts

/-!
# Releasing the resources of the sample

The resources of the sample own five buffers, three images and a view of each image, those of the
swapchain included (`Sample.Laid.kinds_owned`). A late release comes to all nine roots and leaves
nothing (`Sample.exists_release`).
-/

set_option autoImplicit false

namespace FrameGraph

/-! ## The kinds of objects -/

/-- The kind of the object that a node will own. -/
def Payload.makes? (p : Payload) : Option ObjectKind := (p.back 0).owned?.map (·.kind)

theorem Payload.kind_owned_back (p : Payload) (id : Nat) :
    (p.back id).owned?.map (·.kind) = p.makes? := by
  cases p with
  | image desc handle external => cases external <;> rfl
  | _ => rfl

theorem filterMap_backed (ids : Nat → Nat) (ns : List Node) :
    (backed ids ns).filterMap (fun n => n.payload.owned?.map (·.kind)) =
      ns.filterMap (·.payload.makes?) := by
  rw [backed, List.filterMap_map]
  calc ns.zipIdx.filterMap _
      = ns.zipIdx.filterMap ((·.payload.makes?) ∘ Prod.fst) :=
        List.filterMap_congr fun x _ => Payload.kind_owned_back x.1.payload (ids x.2)
    _ = ns.filterMap (·.payload.makes?) := by
        rw [← List.filterMap_map, List.zipIdx_map_fst]

namespace Sample

variable {extent : Extent} {images : List (Handle .image)} {acquired i life : Nat}
  {ids : Nat → Nat} {f : Forest} {n m : Node} {d : Headless} {spare : List (Handle .image)}
  {κ : ObjectKind}

theorem makes_windowNodes (extent : Extent) (images : List (Handle .image)) :
    (windowNodes extent images).filterMap (·.payload.makes?) =
      List.replicate images.length .imageView := by
  have hone (x : Handle .image × Nat) : (shownNodes ⟨11, swapchainNode extent images 0⟩
      (window extent images) (2 * x.2 + 12) x.1 x.2).filterMap (·.payload.makes?) =
        [.imageView] := rfl
  rw [windowNodes, List.filterMap_flatMap]
  simp only [hone, List.map_const', ← List.map_eq_flatMap, List.length_zipIdx]

/-- **What the resources own.** -/
theorem Laid.kinds_owned (h : Laid extent images acquired ids f) : f.owned.map (·.kind) =
    [.image, .imageView, .image, .imageView, .image, .imageView] ++
      List.replicate 5 .buffer ++ List.replicate images.length .imageView := by
  have hunused : f.owned.map (·.kind) =
      (f.nodes.map Node.unused).filterMap fun n => n.payload.owned?.map (·.kind) := by
    rw [Forest.owned, List.map_filterMap, List.filterMap_map]
    rfl
  rw [hunused, h, filterMap_backed, unfolded, List.filterMap_append, makes_windowNodes]
  rfl

/-- How many objects were made for the resources while nothing was destroyed. -/
theorem Laid.created (h : Laid extent images acquired ids f) (hl : Ledger f d spare)
    (hd : d.destroyed = []) : d.created.buffers = 5 ∧ d.created.images = 3 ∧
      d.created.imageViews = 3 + images.length := by
  have hcount (κ : ObjectKind) : d.created.count κ = (f.owned.map (·.kind)).count κ := by
    rw [hl.created_eq hd κ, List.count, List.countP_map]
    rfl
  simp only [h.kinds_owned, List.count_append, List.count_replicate] at hcount
  exact ⟨hcount .buffer, hcount .image, hcount .imageView⟩

/-! ## The roots -/

/-- The positions of the images, the buffers and the swapchain. -/
def rootPositions : List Nat := [0, 2, 4, 6, 7, 8, 9, 10, 11]

theorem Laid.mem_rootPositions_iff (h : Laid extent images acquired ids f)
    (hn : f.nodes[i]? = some n) : i ∈ rootPositions ↔ n.parent = none := by
  have hi := Forest.hierarchy_of_nodes hn
  rw [h.hierarchy, unfolded, List.map_append, map_parent_windowNodes] at hi
  have hplain : ∀ i < 12, i ∈ rootPositions ↔
      ((plainNodes extent images acquired).map (·.parent))[i]? = some none := by
    show ∀ i < 12, i ∈ rootPositions ↔ ([none, some 0, none, some 2, none, some 4, none, none,
      none, none, none, none] : Hierarchy)[i]? = some none
    decide
  rcases Nat.lt_or_ge i 12 with hlt | hge
  · rw [List.getElem?_append_left hlt] at hi
    rw [hplain i hlt, hi, Option.some.injEq]
  · have hle : ∀ i ∈ rootPositions, i ≤ 11 := by decide
    refine iff_of_false (fun hmem => Nat.not_le_of_lt hge (hle i hmem)) fun hparent => ?_
    rw [List.getElem?_append_right hge, hparent] at hi
    obtain ⟨j, -, hj⟩ := List.mem_flatMap.1 (List.mem_of_getElem? hi)
    simp at hj

theorem Laid.owns (h : Laid extent images acquired ids f)
    (hmakes : (unfolded extent images acquired)[i]?.bind (·.payload.makes?) = some κ) :
    ∃ x, f.Owns i x := by
  obtain ⟨m, hm, hmakes⟩ := Option.bind_eq_some_iff.1 hmakes
  rw [← Payload.kind_owned_back _ (ids i)] at hmakes
  obtain ⟨x, hx, -⟩ := Option.map_eq_some_iff.1 hmakes
  exact ⟨x, _, h.node hm, hx⟩

/-- Each root has an object in its tree: an image or a buffer is its own, and below the swapchain
there is the view of its first image. -/
theorem Laid.exists_owned (h : Laid extent images acquired ids f) (hf : f.WellFormed)
    (himages : images ≠ []) (hn : f.nodes[i]? = some n) (hi : i ∈ rootPositions) :
    ∃ k x, f.root k = i ∧ f.Owns k x := by
  have htop : f.root i = i := Forest.root_of_top hn ((h.mem_rootPositions_iff hn).1 hi)
  have hlocal {κ : ObjectKind}
      (hmakes : (unfolded extent images acquired)[i]?.bind (·.payload.makes?) = some κ) :
      ∃ k x, f.root k = i ∧ f.Owns k x :=
    let ⟨x, hx⟩ := h.owns hmakes
    ⟨i, x, htop, hx⟩
  simp only [rootPositions, List.mem_cons, List.not_mem_nil, or_false] at hi
  rcases hi with rfl | rfl | rfl | rfl | rfl | rfl | rfl | rfl | rfl
  case inr.inr.inr.inr.inr.inr.inr.inr =>
    obtain ⟨image, rest, rfl⟩ := List.exists_cons_of_ne_nil himages
    have hview := h.node (unfolded_view (j := 0) rfl)
    have himage := h.node (unfolded_image (j := 0) rfl)
    obtain ⟨x, hx⟩ := h.owns (i := 13) rfl
    refine ⟨13, x, ?_, hx⟩
    rw [Forest.root_of_parent hf hview rfl, Forest.root_of_parent hf himage rfl]
    exact htop
  all_goals exact hlocal rfl

/-- **A late release comes to nine roots.** -/
theorem Laid.length_expired (h : Laid extent images acquired ids f) (hf : f.WellFormed)
    (himages : images ≠ []) (hlife : ∀ (i : Nat) n, f.nodes[i]? = some n → n.life < life) :
    (f.expired life).length = 9 := by
  have hperm : (f.expired life).Perm rootPositions := by
    refine (List.perm_ext_iff_of_nodup (List.nodup_range.filter _) (by decide)).2 fun i => ?_
    constructor
    · intro hi
      obtain ⟨-, hi⟩ := List.mem_filter.1 hi
      obtain ⟨hany, -⟩ := Bool.and_eq_true_iff.1 hi
      obtain ⟨n, hn, hroot⟩ := (Option.any_eq_true _ _).1 hany
      obtain ⟨hparent, -⟩ := Bool.and_eq_true_iff.1 hroot
      exact (h.mem_rootPositions_iff hn).2 (Option.isNone_iff_eq_none.1 hparent)
    · intro hi
      obtain ⟨n, hn⟩ : ∃ n, f.nodes[i]? = some n := by
        have hlt : ∀ i ∈ rootPositions, i < 12 := by decide
        have hi' : i < (plainNodes extent images acquired).length := hlt i hi
        have hm : (unfolded extent images acquired)[i]? = _ :=
          (List.getElem?_append_left hi').trans (List.getElem?_eq_getElem hi')
        exact ⟨_, h.node hm⟩
      obtain ⟨k, x, rfl, hk⟩ := h.exists_owned hf himages hn hi
      exact (Forest.mem_expired hf hn (hlife _ n hn) hk).2
  exact hperm.length_eq

/-- **A late release goes through**: it releases nine roots and leaves no object. -/
theorem exists_release (h : Laid extent images acquired ids f) (hs : Accounted f d spare)
    (himages : images ≠ []) (hlife : f.life < life) :
    ∃ f' d', f.unmountExpired life d = .ok (9, f', d') ∧ d'.alive = [] ∧
      d'.created = d.created := by
  have hall (i : Nat) (n : Node) (hn : f.nodes[i]? = some n) : n.life < life :=
    Nat.lt_of_le_of_lt (hs.proper.dated i n hn).now hlife
  obtain ⟨⟨count, f', d'⟩, hrun⟩ := hs.ledger.exists_unmountExpired hs.proper.wellFormed life
  have hs' : Accounted f' d' spare := by
    refine hs.operate (o := .unmountExpired life) (List.nil_subset _) ?_
    exact Except.bind_eq_ok_iff.2 ⟨_, hrun, rfl⟩
  have hcount : count = 9 := by
    obtain ⟨s, -, hcount⟩ := Except.bind_eq_ok_iff.1 hrun
    cases hcount
    exact h.length_expired hs.proper.wellFormed himages hall
  subst hcount
  exact ⟨f', d', hrun, alive_of_unmountExpired hs.proper.wellFormed hs'.ledger hrun hall⟩

end Sample

end FrameGraph
