import FrameGraph.Proofs.Aliases
import FrameGraph.Proofs.Framebuffers
import FrameGraph.Proofs.Kinship

/-!
# The views that names stand for

A name is looked up twice where an image is attached: for the node on which its accesses are
recorded, and for the view through which it is seen. The view is one of that node
(`Forest.parent_of_view`), and its handle tells which (`Forest.HoldsViews.place_unique`).

An image that is named itself is seen through its default view, which has the format of the image
(`Forest.Depicted`). Operations and frames leave that as it is.
-/

set_option autoImplicit false

namespace FrameGraph

open Relation (ReflTransGen)

/-- The description of a view of an image. -/
def Node.imageViewDesc? (n : Node) : Option ImageViewDesc :=
  match n.payload with
  | .imageView desc _ _ => some desc
  | _ => none

namespace Forest

variable {f : Forest} {name name' : String} {p q q' : Place} {v : Handle .imageView}

/-! ## Views and what they show -/

/-- A name is that of a view, or of an image that is seen through its default view. -/
theorem view_cases (h : f.view name = .ok q) :
    f.resolve name = .ok q ∧ q.node.kind.isView = true ∨
    ∃ r, f.resolve name = .ok r ∧ r.node.kind = .image ∧ q.index ∈ f.children r.index ∧
      q.node.name = defaultViewName r.node.name := by
  obtain ⟨r, hr, h⟩ := Except.bind_eq_ok_iff.1 h
  split at h
  · next hkind =>
    obtain rfl := Except.ok.inj h
    exact .inl ⟨hr, by rw [hkind]; rfl⟩
  · next hkind =>
    obtain rfl := Except.ok.inj h
    exact .inl ⟨hr, by rw [hkind]; rfl⟩
  · next hkind =>
    dsimp only at h
    split at h
    · next child hchild =>
      obtain rfl := Except.ok.inj h
      obtain ⟨i, hi, hplace⟩ := List.mem_filterMap.1 (List.mem_of_find?_eq_some hchild)
      obtain ⟨rfl, -⟩ := place?_eq_some_iff.1 hplace
      exact .inr ⟨r, hr, hkind, hi, by simpa using List.find?_some hchild⟩
    · cases h
  · cases h

/-- What can be seen has a node on which its accesses are recorded. -/
theorem exists_tracked (h : f.view name = .ok q) : ∃ p, f.tracked name = .ok p := by
  obtain ⟨r, hr, -⟩ := Except.bind_eq_ok_iff.1 h
  cases horigin : r.node.payload.origin? with
  | none => exact ⟨r, Except.bind_eq_ok_iff.2 ⟨r, hr, by simp only [horigin]⟩⟩
  | some origin =>
    cases hparent : r.node.parent.bind f.place? with
    | none => exact ⟨r, Except.bind_eq_ok_iff.2 ⟨r, hr, by simp only [horigin, hparent]⟩⟩
    | some parent =>
      exact ⟨parent, Except.bind_eq_ok_iff.2 ⟨r, hr, by simp only [horigin, hparent]⟩⟩

/-- **The view that a name stands for is one of the node on which its accesses are recorded.** -/
theorem parent_of_view (hs : f.Seated) (hq : f.view name = .ok q) (hp : f.tracked name = .ok p) :
    q.node.parent = some p.index := by
  rcases view_cases hq with ⟨hr, hview⟩ | ⟨r, hr, hkind, hi, -⟩
  · obtain ⟨j, n, hparent, hn, -⟩ := (hs _ _ (nodes_of_resolve hr)).exists_shown hview
    rw [tracked_of_view hr hview hparent hn] at hp
    rw [← Except.ok.inj hp, hparent]
  · rw [tracked_of_resolve hr (by rw [hkind]; rfl)] at hp
    obtain rfl := Except.ok.inj hp
    obtain ⟨n, hn, hparent⟩ := mem_children_iff.1 hi
    rw [nodes_of_view hq] at hn
    rw [Option.some.inj hn, hparent]

theorem imageViewHandle_eq_ok_iff : f.imageViewHandle name = .ok v ↔
    ∃ q desc origin, f.view name = .ok q ∧ q.node.payload = .imageView desc origin (some v) := by
  constructor
  · intro h
    obtain ⟨q, hq, h⟩ := Except.bind_eq_ok_iff.1 h
    split at h
    · next desc origin handle hpayload =>
      cases handle with
      | none => cases h
      | some w =>
        obtain rfl := Except.ok.inj h
        exact ⟨q, desc, origin, hq, hpayload⟩
    · cases h
  · rintro ⟨q, desc, origin, hq, hpayload⟩
    refine Except.bind_eq_ok_iff.2 ⟨q, hq, ?_⟩
    rw [hpayload]
    rfl

theorem has_of_imageView {i : Nat} {n : Node} {desc : ImageViewDesc} {origin : String}
    (hn : f.nodes[i]? = some n) (hp : n.payload = .imageView desc origin (some v)) :
    f.Has i (.imageView v) := by
  have hobject : n.payload.object? = some (.imageView v) := by
    rw [hp]
    rfl
  exact ⟨n, hn, hobject⟩

/-- **A view tells on which node the accesses under its names are recorded.** -/
theorem HoldsViews.place_unique {d : Headless} (h : f.HoldsViews d) (hs : f.Seated)
    (hv : f.imageViewHandle name = .ok v) (hv' : f.imageViewHandle name' = .ok v)
    {p' : Place} (hp : f.tracked name = .ok p) (hp' : f.tracked name' = .ok p') : p = p' := by
  obtain ⟨q, desc, origin, hq, hpayload⟩ := imageViewHandle_eq_ok_iff.1 hv
  obtain ⟨q', desc', origin', hq', hpayload'⟩ := imageViewHandle_eq_ok_iff.1 hv'
  have hqn := nodes_of_view hq
  have hqn' := nodes_of_view hq'
  have hindex := h.owner _ _ _ (has_of_imageView hqn hpayload) (has_of_imageView hqn' hpayload') rfl
  rw [hindex, hqn'] at hqn
  have hparent := parent_of_view hs hq hp
  rw [← Option.some.inj hqn, parent_of_view hs hq' hp'] at hparent
  have hi : p'.index = p.index := Option.some.inj hparent
  have hpn := nodes_of_tracked hp
  rw [← hi, nodes_of_tracked hp'] at hpn
  cases p
  cases p'
  simp_all

/-! ## Default views -/

/-- Whether a node shows a whole image in the image's own format. -/
structure IsWholeView (v : Node) (n : Node) (i : Nat) : Prop extends IsDefaultView v n i where
  desc : v.imageViewDesc? = n.imageDesc?.map (·.defaultView)

/-- Whether every image has below it a default view that shows it whole. -/
def Depicted (f : Forest) : Prop := ∀ (i : Nat) n, f.nodes[i]? = some n →
  n.kind = .image → ∃ (j : Nat) (v : Node), f.nodes[j]? = some v ∧ IsWholeView v n i

end Forest

/-- Whether a node stays where it is and stays described as it is, whatever becomes of its
object. -/
structure Node.StaysDescribed (n n' : Node) : Prop extends n.Keeps n' where
  image : n'.imageDesc? = n.imageDesc?
  view : n'.imageViewDesc? = n.imageViewDesc?

namespace Node

variable {n n' : Node}

theorem imageDesc?_of_bare (h : n'.payload.bare = n.payload.bare) :
    n'.imageDesc? = n.imageDesc? := by
  unfold imageDesc?
  cases hp : n.payload <;> cases hp' : n'.payload <;> simp_all [Payload.bare]

theorem imageViewDesc?_of_bare (h : n'.payload.bare = n.payload.bare) :
    n'.imageViewDesc? = n.imageViewDesc? := by
  unfold imageViewDesc?
  cases hp : n.payload <;> cases hp' : n'.payload <;> simp_all [Payload.bare]

theorem StaysDescribed.refl (n : Node) : n.StaysDescribed n := ⟨.refl n, rfl, rfl⟩

/-- The object of a node may change without a change to its description. -/
theorem StaysDescribed.of_bare (hname : n'.name = n.name) (hresidency : n'.residency = n.residency)
    (hparent : n'.parent = n.parent) (h : n'.payload.bare = n.payload.bare) :
    n.StaysDescribed n' where
  name := hname
  residency := hresidency
  parent := hparent
  kind := kind_of_bare h
  image := imageDesc?_of_bare h
  view := imageViewDesc?_of_bare h

end Node

namespace Forest

variable {f f' : Forest} {n v : Node} {i : Nat}

theorem IsWholeView.mono (h : IsWholeView v n i) {n' v' : Node} (hv : v.StaysDescribed v')
    (hn : n.StaysDescribed n') : IsWholeView v' n' i where
  toIsDefaultView := h.toIsDefaultView.mono hv.toKeeps hn.toKeeps
  desc := by rw [hv.view, h.desc, hn.image]

/-- Where no node is added and descriptions stay, so do default views. -/
theorem Depicted.same (h : f.Depicted) (hsame : f'.hierarchy = f.hierarchy)
    (hf : ∀ (i : Nat) n, f.nodes[i]? = some n →
      ∃ n', f'.nodes[i]? = some n' ∧ n.StaysDescribed n') : f'.Depicted := by
  intro i n' hn' hkind
  obtain ⟨n, hn⟩ := exists_node_of_hierarchy hsame hn'
  obtain ⟨m, hm, hstays⟩ := hf i n hn
  rw [hn'] at hm
  obtain rfl := Option.some.inj hm
  obtain ⟨j, v, hv, hview⟩ := h i n hn (hstays.kind.symm.trans hkind)
  obtain ⟨v', hv', hvstays⟩ := hf j v hv
  exact ⟨j, v', hv', hview.mono hvstays hstays⟩

theorem Depicted.empty : Depicted {} := by
  intro i n hn
  simp at hn

theorem Depicted.push (h : f.Depicted) (hkind : n.kind ≠ .image) : (f.push n).Depicted := by
  intro i m hm himage
  rcases nodes_push_cases hm with hm | ⟨-, rfl⟩
  · obtain ⟨j, v, hv, hview⟩ := h i m hm himage
    exact ⟨j, v, nodes_push_of_some hv, hview⟩
  · exact absurd himage hkind

/-- An image may be added together with its default view. -/
theorem Depicted.push_pair (h : f.Depicted) (hview : IsWholeView v n f.size) :
    ((f.push n).push v).Depicted := by
  intro i m hm himage
  rcases nodes_push_cases hm with hm | ⟨-, rfl⟩
  · rcases nodes_push_cases hm with hm | ⟨rfl, rfl⟩
    · obtain ⟨j, w, hw, hwview⟩ := h i m hm himage
      exact ⟨j, w, nodes_push_of_some (nodes_push_of_some hw), hwview⟩
    · exact ⟨_, v, nodes_push_size, hview⟩
  · rw [hview.kind] at himage
    cases himage

theorem Depicted.put (h : f.Depicted) {n' : Node} (hn : f.nodes[i]? = some n)
    (hstays : n.StaysDescribed n') : (f.put i n').Depicted := by
  refine h.same (hierarchy_put hn hstays.parent) fun j m hm => ?_
  obtain ⟨m', hm', rfl | ⟨rfl, rfl⟩⟩ := exists_node_put n' hn hm
  · exact ⟨m', hm', .refl m'⟩
  · exact ⟨m', hm', hstays⟩

end Forest

/-! ### Operations and frames -/

section
variable {δ : Type} [Device δ] {f f' : Forest} {d d' : δ}

theorem Forest.Depicted.addImage {name : String} {desc : ImageDesc} {residency : Residency}
    (hf : f.Depicted) (h : f.addImage name desc residency = .ok f') : f'.Depicted := by
  obtain ⟨g, hg, h⟩ := Except.bind_eq_ok_iff.1 h
  obtain ⟨rfl, hfresh⟩ := Forest.insert_ok hg
  obtain ⟨p, hp, h⟩ := Except.bind_eq_ok_iff.1 h
  obtain ⟨hn, hname, -⟩ := Forest.origin_ok hp
  obtain ⟨rfl, -⟩ := Forest.insert_ok h
  have hi : p.index = f.size := by
    rcases Forest.nodes_push_cases hn with hn | ⟨hi, -⟩
    · exact absurd (List.mem_map.2 ⟨p.node, List.mem_of_getElem? hn, hname⟩) hfresh
    · exact hi
  exact hf.push_pair ⟨⟨rfl, congrArg some hi, rfl⟩, rfl⟩

theorem Forest.Depicted.addSwapchainImage {p : Place} {desc : ImageDesc} {image : Handle .image}
    {k : Nat} (hf : f.Depicted) (h : f.addSwapchainImage p desc image k = .ok f') :
    f'.Depicted := by
  obtain ⟨g, hg, h⟩ := Except.bind_eq_ok_iff.1 h
  obtain ⟨rfl, -⟩ := Forest.insert_ok hg
  obtain ⟨rfl, -⟩ := Forest.insert_ok h
  exact hf.push_pair ⟨⟨rfl, rfl, rfl⟩, rfl⟩

theorem Forest.Depicted.expandSwapchain {i : Nat} (hf : f.Depicted)
    (h : (f.expandSwapchain i).result = .ok f') : f'.Depicted := by
  rcases expandSwapchain_ok h with rfl | ⟨n, source, acquired, -, -, -, h⟩
  · exact hf
  · exact foldlM_inv (P := Forest.Depicted) (fun _ _ _ hg hstep => hg.addSwapchainImage hstep) h hf

theorem Forest.Depicted.mountNodes {is : List Nat} {r : Except DeviceError Unit}
    (hf : f.Depicted) (h : f.mountNodes d is = .ok (r, f', d')) : f'.Depicted := by
  induction is generalizing f d with
  | nil =>
    cases h
    exact hf
  | cons i is ih =>
    obtain ⟨⟨out, g, c⟩, hg, h⟩ := Except.bind_eq_ok_iff.1 h
    have hstep : g.Depicted := by
      rcases mountNode_ok hg with ⟨rfl, -⟩ | ⟨n, outcome, hn, hrealize, rfl⟩
      · exact hf
      · exact hf.put hn (.of_bare rfl rfl rfl (bare_of_realize hrealize))
    cases out with
    | ok u => exact ih hstep h
    | error e =>
      cases h
      exact hstep

theorem Releases.depicted {s s' : Forest × δ} (h : Releases s s') (hs : s.1.Depicted) :
    s'.1.Depicted := by
  obtain ⟨h⟩ := h
  rcases releaseNode_ok h with ⟨rfl, -⟩ | ⟨n, payload, hn, hrelease, rfl⟩
  · exact hs
  · exact hs.put hn (.of_bare rfl rfl rfl (bare_of_release hrelease))

/-- **Every operation leaves images with default views that show them whole.** -/
theorem Operation.depicted {o : Operation} (h : o.run f d = .ok (f', d')) (hf : f.Depicted) :
    f'.Depicted := by
  cases o with
  | addBuffer name desc residency =>
    obtain ⟨g, hg, h⟩ := Except.bind_eq_ok_iff.1 h
    cases h
    obtain ⟨n, rfl, -, hkind⟩ := addBuffer_ok hg
    exact hf.push (by simp [hkind])
  | addBufferView name origin desc =>
    obtain ⟨g, hg, h⟩ := Except.bind_eq_ok_iff.1 h
    cases h
    obtain ⟨n, rfl, -, hkind⟩ := addBufferView_ok hg
    exact hf.push (by simp [hkind])
  | addImage name desc residency =>
    obtain ⟨g, hg, h⟩ := Except.bind_eq_ok_iff.1 h
    cases h
    exact hf.addImage hg
  | addImageView name origin desc =>
    obtain ⟨g, hg, h⟩ := Except.bind_eq_ok_iff.1 h
    cases h
    obtain ⟨v, -, -, rfl, -, hkind, -⟩ := addImageView_ok hg
    exact hf.push (by simp [hkind])
  | addSwapchain name source =>
    obtain ⟨g, hg, h⟩ := Except.bind_eq_ok_iff.1 h
    cases h
    obtain ⟨rfl, -⟩ := addSwapchain_ok hg
    exact hf.push (by simp [Node.ofSwapchain, Node.kind, Payload.kind])
  | acquire name index =>
    obtain ⟨g, hg, h⟩ := Except.bind_eq_ok_iff.1 h
    cases h
    obtain ⟨i, n, source, acquired, hn, -, hp, -, rfl⟩ := acquire_ok hg
    refine hf.put hn ⟨⟨rfl, rfl, rfl, ?_⟩, ?_, ?_⟩
    · rw [Node.kind, Node.kind, hp]
      rfl
    · rw [Node.imageDesc?, Node.imageDesc?, hp]
    · rw [Node.imageViewDesc?, Node.imageViewDesc?, hp]
  | mount name =>
    obtain ⟨⟨r, s⟩, hs, h⟩ := Except.bind_eq_ok_iff.1 h
    cases h
    obtain ⟨p, g, -, hg, hmount⟩ := mount_ok hs
    have hclock : Forest.Depicted { f with life := f.life + 1 } := hf
    exact (hclock.expandSwapchain hg).mountNodes hmount
  | unmount name life =>
    obtain ⟨⟨r, s⟩, hs, h⟩ := Except.bind_eq_ok_iff.1 h
    cases h
    exact kept_by_all (P := fun s : Forest × δ => s.1.Depicted) (fun _ _ => Releases.depicted)
      (unmount_releases hs) hf
  | unmountExpired life =>
    obtain ⟨⟨r, s⟩, hs, h⟩ := Except.bind_eq_ok_iff.1 h
    cases h
    exact kept_by_all (P := fun s : Forest × δ => s.1.Depicted) (fun _ _ => Releases.depicted)
      (unmountExpired_releases hs) hf

end

/-- A frame changes no descriptions. -/
theorem depicted_of_frame {passes : List Pass} {f f' : Forest} {shaders : Registry} {a : Analysis}
    (h : (analyze passes f shaders).result = .ok (a, f')) (hf : f.Depicted) : f'.Depicted := by
  obtain ⟨-, -, -, rfl⟩ := analyze_ok_iff.1 h
  refine hf.same (f.hierarchy_carry _) fun i n hn => ?_
  obtain ⟨s, hs, -⟩ := Forest.exists_carry a.timelines hn
  exact ⟨_, hs, .of_bare rfl rfl rfl rfl⟩

namespace Session

variable {s : Session Headless}

/-- The views that nodes hold in a session are alive and held once. -/
theorem holdsViews_of_steps (h : ReflTransGen (Step Headless.Aside) { device := {} } s) :
    s.forest.HoldsViews s.device := by
  obtain ⟨r, -, rfl, hrecorded⟩ := exists_recorded h
  exact hrecorded.holds

end Session

end FrameGraph
