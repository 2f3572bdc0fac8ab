import FrameGraph.Proofs.Lives
import FrameGraph.Proofs.Sessions

/-!
# How the forest is built

What the positions in a forest mean to each other (`Forest.WellBuilt`), and the walks along them
that end (`Forest.WalksEnd`). All of it follows from what the small changes keep
(`Forest.Proper`), and so it holds of the forest of every session with the headless device, whether
its mounts go through or not (`wellBuilt_of_session`).
-/

set_option autoImplicit false

namespace FrameGraph

open Relation (ReflTransGen)

namespace Forest

/-- How nodes refer to each other, what hangs below what, and when it was mounted. -/
structure WellBuilt (f : Forest) : Prop where
  /-- A name finds the node that has it. -/
  found : ∀ (i : Nat) n, f.nodes[i]? = some n → f.find? n.name = some ⟨i, n⟩
  names : f.names.Nodup
  /-- The children are those that registration noted down with their parents. -/
  lists : f.hierarchy.childLists = (List.range f.size).map f.children
  count : ∀ i p : Nat, (f.children p).count i = if f.hierarchy[i]? = some (some p) then 1 else 0
  parent_lt : ∀ (i : Nat) n p, f.nodes[i]? = some n → n.parent = some p → p < i
  bufferView : ∀ (i : Nat) n desc origin handle, f.nodes[i]? = some n →
    n.payload = .bufferView desc origin handle → ∃ j p, n.parent = some j ∧
      f.find? origin = some ⟨j, p⟩ ∧ p.kind = .buffer ∧ n.residency = p.residency
  imageView : ∀ (i : Nat) n desc origin handle, f.nodes[i]? = some n →
    n.payload = .imageView desc origin handle → ∃ j p, n.parent = some j ∧
      f.find? origin = some ⟨j, p⟩ ∧ p.kind = .image ∧ n.residency = p.residency
  belowBuffer : ∀ (i : Nat) n, f.nodes[i]? = some n → n.kind = .buffer →
    ∀ j ∈ f.children i, ∃ c, f.nodes[j]? = some c ∧ c.kind = .bufferView
  belowImage : ∀ (i : Nat) n, f.nodes[i]? = some n → n.kind = .image →
    (∀ j ∈ f.children i, ∃ c, f.nodes[j]? = some c ∧ c.kind = .imageView) ∧
    ∃ j ∈ f.children i, ∃ c, f.nodes[j]? = some c ∧ c.name = defaultViewName n.name
  belowView : ∀ (i : Nat) n, f.nodes[i]? = some n → n.kind.isView = true → f.children i = []
  belowSwapchain : ∀ (i : Nat) n, f.nodes[i]? = some n → n.kind = .swapchain →
    ∀ j ∈ f.children i, ∃ c desc handle, f.nodes[j]? = some c ∧
      c.payload = .image desc (some handle) true
  lifeOfParent : ∀ (i : Nat) n j p, f.nodes[i]? = some n → n.parent = some j →
    f.nodes[j]? = some p → n.life ≤ p.life
  lifeOfRoot : ∀ (i : Nat) n, f.nodes[i]? = some n → n.isBacked = true →
    ∃ r, f.nodes[f.root i]? = some r ∧ n.life = r.life
  lifeNow : ∀ (i : Nat) n, f.nodes[i]? = some n → n.life ≤ f.life

/-- The walks along the forest from the node of a name end, whatever the device does, and the walk
that releases meets every node of the subtree once. -/
structure WalksEnd (f : Forest) : Prop where
  climb : ∀ name p, f.find name = .ok p → f.hierarchy.Climbs p.index (f.root p.index)
  mount : ∀ name p, f.find name = .ok p → ∀ (d : Headless) g,
    (expandSwapchain { f with life := f.life + 1 } (f.root p.index)).result = .ok g →
      MountLoop (g, d) [f.root p.index] (f.mount name d).result
  release : ∀ name p, f.find name = .ok p → ∀ d : Headless,
    ReleaseLoop (f, d) [p.index] (f.releaseSubtree d p.index)
  order : ∀ name p, f.find name = .ok p →
    f.hierarchy.Postorder [p.index] (f.subtree p.index).reverse
  nodup : ∀ name p, f.find name = .ok p → (f.subtree p.index).Nodup
  mem_iff : ∀ name p, f.find name = .ok p → ∀ j,
    j ∈ f.subtree p.index ↔ ReflTransGen f.hierarchy.Above p.index j

/-- What operations and frames keep of the resources. -/
structure Proper (f : Forest) : Prop where
  wellFormed : f.WellFormed
  related : f.Related
  furnished : f.Furnished
  founded : f.Founded
  dated : f.Dated

variable {f f' : Forest} {n : Node} {i j : Nat}

theorem Proper.empty : Proper {} := ⟨.empty, .empty, .empty, .empty, .empty⟩

theorem Proper.operate {o : Operation} {d d' : Headless} (hf : f.Proper)
    (h : o.run f d = .ok (f', d')) : f'.Proper where
  wellFormed := Operation.wellFormed h hf.wellFormed
  related := Operation.related h hf.related
  furnished := Operation.furnished h hf.furnished
  founded := Operation.founded h hf.wellFormed hf.founded
  dated := Operation.dated h hf.wellFormed hf.related hf.founded hf.dated

theorem Proper.frame {passes : List Pass} {shaders : Registry} {a : Analysis} (hf : f.Proper)
    (h : (analyze passes f shaders).result = .ok (a, f')) : f'.Proper where
  wellFormed := wellFormed_of_frame h hf.wellFormed
  related := related_of_frame h hf.related
  furnished := furnished_of_frame h hf.furnished
  founded := founded_of_frame h hf.founded
  dated := dated_of_frame h hf.dated

/-! ## References -/

/-- A view names the node above it, which holds nodes of its kind. -/
theorem Proper.exists_origin (hf : f.Proper) (hn : f.nodes[i]? = some n) {origin : String}
    (horigin : n.payload.origin? = some origin) : ∃ j p, n.parent = some j ∧
      f.find? origin = some ⟨j, p⟩ ∧ p.kind.holds n.kind = true ∧ n.residency = p.residency := by
  have hrelates := hf.related i n hn
  obtain ⟨j, p, hparent, hp, rfl, hresidency⟩ := hrelates.links origin horigin
  exact ⟨j, p, hparent, hf.wellFormed.find?_name hp, hrelates.seat.holds_of_parent hparent hp,
    hresidency.symm⟩

theorem Proper.exists_swapchain_image (hf : f.Proper) (hn : f.nodes[i]? = some n)
    (hkind : n.kind = .swapchain) (hj : j ∈ f.children i) : ∃ c desc handle,
      f.nodes[j]? = some c ∧ c.payload = .image desc (some handle) true := by
  obtain ⟨c, hc, hparent, -⟩ := hf.related.seated.exists_child hn hj
  have hexternal := (hf.related j c hc).shown i n hparent hn hkind
  have hbacked := (hf.founded j c hc).external hexternal
  unfold Node.isBacked at hbacked
  cases hp : c.payload with
  | image desc handle external =>
    rw [hp] at hexternal hbacked
    obtain ⟨b, rfl⟩ := Option.isSome_iff_exists.1 hbacked
    obtain rfl : external = true := hexternal
    exact ⟨c, desc, b, hc, hp⟩
  | _ =>
    rw [hp] at hexternal
    cases hexternal

/-! ## The whole -/

theorem Proper.wellBuilt (hf : f.Proper) : f.WellBuilt where
  found i n hn := hf.wellFormed.find?_name hn
  names := hf.wellFormed.names
  lists := by
    rw [Hierarchy.childLists_eq hf.wellFormed.ordered, length_hierarchy]
    rfl
  count i p := (Hierarchy.nodup_children f.hierarchy p).count.trans
    (if_congr Hierarchy.mem_children rfl rfl)
  parent_lt i n p hn hp := hf.wellFormed.ordered i p (by rw [hierarchy_of_nodes hn, hp])
  bufferView i n desc origin handle hn hp := by
    obtain ⟨j, p, hparent, hfind, hholds, hresidency⟩ :=
      hf.exists_origin hn (by rw [hp]; rfl)
    refine ⟨j, p, hparent, hfind, (ResourceKind.eq_buffer_iff hholds).2 ?_, hresidency⟩
    rw [Node.kind, hp]
    rfl
  imageView i n desc origin handle hn hp := by
    obtain ⟨j, p, hparent, hfind, hholds, hresidency⟩ :=
      hf.exists_origin hn (by rw [hp]; rfl)
    refine ⟨j, p, hparent, hfind, (ResourceKind.eq_image_iff hholds).2 ?_, hresidency⟩
    rw [Node.kind, hp]
    rfl
  belowBuffer i n hn hkind j hj := by
    obtain ⟨c, hc, -, hholds⟩ := hf.related.seated.exists_child hn hj
    exact ⟨c, hc, (ResourceKind.eq_buffer_iff hholds).1 hkind⟩
  belowImage i n hn hkind := by
    refine ⟨fun j hj => ?_, ?_⟩
    · obtain ⟨c, hc, -, hholds⟩ := hf.related.seated.exists_child hn hj
      exact ⟨c, hc, (ResourceKind.eq_image_iff hholds).1 hkind⟩
    · obtain ⟨j, v, hv, hview⟩ := hf.furnished i n hn hkind
      exact ⟨j, mem_children_iff.2 ⟨v, hv, hview.parent⟩, v, hv, hview.name⟩
  belowView i n hn hview := by
    refine List.eq_nil_iff_forall_not_mem.2 fun j hj => ?_
    obtain ⟨c, -, -, hholds⟩ := hf.related.seated.exists_child hn hj
    rw [ResourceKind.isView_of_holds hholds] at hview
    cases hview
  belowSwapchain i n hn hkind j hj := hf.exists_swapchain_image hn hkind hj
  lifeOfParent i n j p hn hparent hp := (hf.dated i n hn).parent j p hparent hp
  lifeOfRoot i n hn hb := by
    obtain ⟨r, hr, -⟩ := exists_root hf.wellFormed hn
    exact ⟨r, hr, (hf.dated i n hn).root hb r hr⟩
  lifeNow i n hn := (hf.dated i n hn).now

theorem Proper.walksEnd (hf : f.Proper) : f.WalksEnd where
  climb name p _ := Hierarchy.climbs_root hf.wellFormed.ordered p.index
  mount name p hp d g hg := by
    have hgrows : ReflTransGen Grows (f, d) (g, d) := .head (.clock f d) (expandSwapchain_grows hg)
    have hgf := wellFormed_of_growsAll hgrows hf.wellFormed
    rw [mount_of_expanded hp hg]
    exact mountLoop_subtree hgf d _
  release name p _ d := releaseLoop_subtree hf.wellFormed d p.index
  order name p _ := Hierarchy.postorder_subtree hf.wellFormed.ordered p.index
  nodup name p _ := Hierarchy.nodup_subtree hf.wellFormed.ordered p.index
  mem_iff name p _ j := Hierarchy.mem_subtree_iff hf.wellFormed.ordered

end Forest

/-- **The forest of a session is well built, and the walks along it end.** -/
theorem wellBuilt_of_session {Aside : ObjectCache × Headless → ObjectCache × Headless → Prop}
    {d : Headless} {s : Session Headless}
    (h : ReflTransGen (Session.Step Aside) { device := d } s) :
    s.forest.WellBuilt ∧ s.forest.WalksEnd := by
  have hproper : s.forest.Proper :=
    Session.forest_kept (fun ho hf => hf.operate ho) (fun ha hf => hf.frame ha) h .empty
  exact ⟨hproper.wellBuilt, hproper.walksEnd⟩

/-! ### A view that comes after the mount, and a buffer that cannot be made -/

namespace Studio

def window : SwapchainImport := ⟨[⟨1⟩, ⟨2⟩], .b8g8r8a8Unorm, ⟨4, 4⟩⟩

def shown (name : String) (image : Handle .image) : Node where
  name
  residency := .swapchain
  payload := .image window.imageDesc (some image) true
  parent := some 0
  life := 1

def viewOfShown (name image : String) (i : Nat) (view : Handle .imageView) : Node where
  name
  residency := .swapchain
  payload := .imageView window.imageDesc.defaultView image (some view)
  parent := some i
  life := 1

def session : Session Headless where
  forest := {
    nodes := [
      { name := "window", residency := .swapchain, payload := .swapchain window 0, life := 1 },
      shown "window/0" ⟨1⟩,
      viewOfShown "window/0/window/0" "window/0" 1 ⟨3⟩,
      shown "window/1" ⟨2⟩,
      viewOfShown "window/1/window/1" "window/1" 3 ⟨4⟩,
      { name := "canvas", residency := .transient, payload := .image {} (some ⟨5⟩) false, life := 2 },
      { name := "canvas/canvas"
        residency := .transient
        payload := .imageView (ImageDesc.defaultView {}) "canvas" (some ⟨6⟩)
        parent := some 5
        life := 2 },
      { name := "canvas/raw"
        residency := .transient
        payload := .imageView (ImageDesc.defaultView {}) "canvas" none
        parent := some 5 },
      { name := "void", residency := .persistent, payload := .buffer .empty none, life := 3 },
      { name := "void/all"
        residency := .persistent
        payload := .bufferView (.whole .r32Uint) "void" none
        parent := some 8 }]
    life := 3 }
  device := {
    lastHandle := 6
    created := { images := 1, imageViews := 3 }
    images := [(⟨5⟩, "canvas")]
    imageViews := [(⟨3⟩, ⟨1⟩), (⟨4⟩, ⟨2⟩), (⟨6⟩, ⟨5⟩)] }

/-- The last mount is refused. -/
theorem steps : ReflTransGen (Session.Step (δ := Headless) fun _ _ => False)
    { device := { lastHandle := 2 } } session :=
  .tail (.tail (.tail (.tail (.tail (.tail (.tail (.tail .refl
    (.operate (o := .addSwapchain "window" window) rfl))
    (.operate (o := .mount "window") rfl))
    (.operate (o := .addImage "canvas" {} .transient) rfl))
    (.operate (o := .mount "canvas") rfl))
    (.operate (o := .addImageView "canvas/raw" "canvas" (ImageDesc.defaultView {})) rfl))
    (.operate (o := .addBuffer "void" .empty .persistent) rfl))
    (.operate (o := .addBufferView "void/all" "void" (.whole .r32Uint)) rfl))
    (.operate (o := .mount "void/all") rfl)

end Studio

theorem wellBuilt_of_session_studio :
    ReflTransGen (Session.Step (δ := Headless) fun _ _ => False)
      { device := { lastHandle := 2 } } Studio.session ∧
    Studio.session.forest.WellBuilt ∧ Studio.session.forest.WalksEnd :=
  ⟨Studio.steps, wellBuilt_of_session Studio.steps⟩

end FrameGraph
