import FrameGraph.Proofs.Objects
import FrameGraph.Proofs.Seats
import FrameGraph.Proofs.Traversals

/-!
# What a node tells of its tree

A view names the node that it hangs below and is kept as long as that node, and what hangs below a
swapchain is an image made elsewhere, of which there are no others (`Forest.Related`). An image is
never without its default view (`Forest.Furnished`). So the tree of a buffer or of an image holds no
more than its views, and the tree of a swapchain no more than its images and theirs
(`Related.place_in_tree`).

An image and its default view are two nodes, and a swapchain is unfolded into pairs of them
(`Forest.Unfolds`), so that the second invariant holds between operations and not within them.
-/

set_option autoImplicit false

namespace FrameGraph

open Relation (ReflTransGen)

@[simp] theorem Payload.origin?_bare (p : Payload) : p.bare.origin? = p.origin? := by
  cases p <;> rfl

theorem Payload.kind_of_isExternal {p : Payload} (h : p.isExternal = true) : p.kind = .image := by
  cases p with
  | image desc handle external => rfl
  | buffer desc handle => cases h
  | bufferView desc origin handle => cases h
  | imageView desc origin handle => cases h
  | swapchain source acquired => cases h

theorem Payload.isExternal_of_kind {p : Payload} (h : p.kind ≠ .image) : p.isExternal = false := by
  by_contra hexternal
  exact h (kind_of_isExternal (by simpa using hexternal))

theorem ResourceKind.eq_buffer_iff {above below : ResourceKind} (h : above.holds below = true) :
    above = .buffer ↔ below = .bufferView := by
  rcases eq_of_holds h with ⟨rfl, rfl⟩ | ⟨rfl, rfl⟩ | ⟨rfl, rfl⟩ <;> simp

theorem ResourceKind.eq_image_iff {above below : ResourceKind} (h : above.holds below = true) :
    above = .image ↔ below = .imageView := by
  rcases eq_of_holds h with ⟨rfl, rfl⟩ | ⟨rfl, rfl⟩ | ⟨rfl, rfl⟩ <;> simp

theorem ResourceKind.isView_of_holds {above below : ResourceKind}
    (h : above.holds below = true) : above.isView = false := by
  rcases eq_of_holds h with ⟨rfl, -⟩ | ⟨rfl, -⟩ | ⟨rfl, -⟩
  · rfl
  · rfl
  · rfl

/-- Whether a node stays the resource that it is, and a view of what it shows. -/
structure Node.Stays (n n' : Node) : Prop extends n.Keeps n' where
  origin : n'.payload.origin? = n.payload.origin?
  external : n'.payload.isExternal = n.payload.isExternal

theorem Node.Stays.refl (n : Node) : n.Stays n := ⟨.refl n, rfl, rfl⟩

/-- The object of a node may change without a change to what the node is. -/
theorem Node.Stays.of_bare {n n' : Node} (hname : n'.name = n.name)
    (hresidency : n'.residency = n.residency) (hparent : n'.parent = n.parent)
    (hbare : n'.payload.bare = n.payload.bare) : n.Stays n' where
  name := hname
  residency := hresidency
  parent := hparent
  kind := kind_of_bare hbare
  origin := by rw [← Payload.origin?_bare, hbare, Payload.origin?_bare]
  external := by rw [← Payload.isExternal_bare, hbare, Payload.isExternal_bare]

/-- What a node tells of the node that it hangs below. -/
structure Forest.Relates (f : Forest) (n : Node) : Prop where
  seat : f.Seats n
  links : f.Links n
  shown : ∀ j s, n.parent = some j → f.nodes[j]? = some s → s.kind = .swapchain →
    n.payload.isExternal = true
  external : n.payload.isExternal = true → n.parent ≠ none

def Forest.Related (f : Forest) : Prop := ∀ (i : Nat) n, f.nodes[i]? = some n → f.Relates n

/-- Whether every image has its default view below it. -/
def Forest.Furnished (f : Forest) : Prop := ∀ (i : Nat) n, f.nodes[i]? = some n →
  n.kind = .image → ∃ (j : Nat) (v : Node), f.nodes[j]? = some v ∧ IsDefaultView v n i

/-- A swapchain at `i` gets one more image as a child, with the image's default view. -/
inductive Forest.Unfolds (i : Nat) : Forest → Forest → Prop
  | image {f : Forest} {n v : Node} (hparent : n.parent = some i)
      (hview : IsDefaultView v n f.size) : Unfolds i f ((f.push n).push v)

namespace Forest

variable {f f' : Forest} {n n' v : Node} {i j : Nat}

/-! ## What hangs below what -/

theorem Links.mono (h : f.Links n) (hn : n.Stays n') (hf : f.KeepsNodes f') : f'.Links n' := by
  intro origin horigin
  rw [hn.origin] at horigin
  obtain ⟨j, p, hparent, hp, hname, hresidency⟩ := h origin horigin
  obtain ⟨p', hp', hk⟩ := hf j p hp
  refine ⟨j, p', hn.parent.trans hparent, hp', hk.name.trans hname, ?_⟩
  rw [hk.residency, hresidency, hn.residency]

theorem Relates.mono (h : f.Relates n) (hn : n.Stays n') (hf : f.KeepsNodes f') :
    f'.Relates n' where
  seat := h.seat.mono hn.toKeeps hf
  links := h.links.mono hn hf
  shown := by
    intro j s' hparent hs' hswapchain
    rw [hn.parent] at hparent
    rw [hn.external]
    cases h.seat with
    | root hroot =>
      rw [hroot] at hparent
      cases hparent
    | below hbelow hs _ =>
      rw [hbelow] at hparent
      obtain rfl := Option.some.inj hparent
      obtain ⟨t, ht, hk⟩ := hf _ _ hs
      rw [hs'] at ht
      obtain rfl := Option.some.inj ht
      exact h.shown _ _ hbelow hs (hk.kind.symm.trans hswapchain)
  external hexternal := by
    rw [hn.parent]
    exact h.external (hn.external.symm.trans hexternal)

/-- It is enough to look at the nodes that are new. -/
theorem Related.mono (h : f.Related) (hf : ∀ (i : Nat) n, f.nodes[i]? = some n →
      ∃ n', f'.nodes[i]? = some n' ∧ n.Stays n')
    (hnew : ∀ (i : Nat) n', f'.nodes[i]? = some n' → f.nodes[i]? = none → f'.Relates n') :
    f'.Related := by
  have hkeeps : f.KeepsNodes f' := by
    intro i n hn
    obtain ⟨n', hn', hs⟩ := hf i n hn
    exact ⟨n', hn', hs.toKeeps⟩
  intro i n' hn'
  cases hn : f.nodes[i]? with
  | none => exact hnew i n' hn' hn
  | some n =>
    obtain ⟨m, hm, hs⟩ := hf i n hn
    rw [hn'] at hm
    obtain rfl := Option.some.inj hm
    exact (h i n hn).mono hs hkeeps

theorem Related.push (h : f.Related) (hn : f.Relates n) : (f.push n).Related := by
  refine h.mono (fun i m hm => ⟨m, nodes_push_of_some hm, .refl m⟩) fun i m hm hnone => ?_
  rcases nodes_push_cases hm with hm | ⟨-, rfl⟩
  · rw [hnone] at hm
    cases hm
  · exact hn.mono (.refl _) keepsNodes_push

theorem Related.put (h : f.Related) (hn : f.nodes[i]? = some n) (hs : n.Stays n') :
    (f.put i n').Related := by
  refine h.mono (fun j m hm => ?_) fun j m hm hnone => ?_
  · obtain ⟨m', hm', rfl | ⟨rfl, rfl⟩⟩ := exists_node_put n' hn hm
    · exact ⟨m', hm', .refl m'⟩
    · exact ⟨m', hm', hs⟩
  · rcases nodes_put_cases hn hm with hm | ⟨rfl, -⟩
    · rw [hnone] at hm
      cases hm
    · rw [hnone] at hn
      cases hn

theorem Related.empty : Related {} := by
  intro i n hn
  simp at hn

theorem Related.seated (h : f.Related) : f.Seated := fun i n hn => (h i n hn).seat

theorem root_of_parent (hf : f.WellFormed) (hn : f.nodes[i]? = some n)
    (hparent : n.parent = some j) : f.root i = f.root j :=
  Hierarchy.root_of_parent hf.ordered (by rw [hierarchy_of_nodes hn, hparent])

theorem root_of_top (hn : f.nodes[i]? = some n) (hparent : n.parent = none) : f.root i = i :=
  Hierarchy.root_of_top fun p => by
    rw [hierarchy_of_nodes hn, hparent]
    simp

theorem exists_root (hf : f.WellFormed) (hn : f.nodes[i]? = some n) :
    ∃ r, f.nodes[f.root i]? = some r ∧ r.parent = none := by
  obtain ⟨hi, -⟩ := List.getElem?_eq_some_iff.1 hn
  have hle : f.root i ≤ i := Hierarchy.root_le hf.ordered i
  have hr := List.getElem?_eq_getElem (Nat.lt_of_le_of_lt hle hi)
  refine ⟨_, hr, Option.eq_none_iff_forall_not_mem.2 fun p hp => ?_⟩
  have htop := (Hierarchy.climbs_root hf.ordered i).top_of p
  exact htop ((hierarchy_of_nodes hr).trans (congrArg some hp))

/-- What is no view hangs below something only as an image of a swapchain. -/
theorem Related.isRoot (h : f.Related) (hn : f.nodes[i]? = some n)
    (hview : n.kind.isView = false) (hexternal : n.payload.isExternal = false) :
    n.parent = none := by
  have hrel := h i n hn
  cases hrel.seat with
  | root hparent => exact hparent
  | below hparent hp hholds =>
    rcases ResourceKind.eq_of_holds hholds with ⟨-, hkind⟩ | ⟨-, hkind⟩ | ⟨hswapchain, -⟩
    · simp [hkind, ResourceKind.isView] at hview
    · simp [hkind, ResourceKind.isView] at hview
    · rw [hrel.shown _ _ hparent hp hswapchain] at hexternal
      cases hexternal

/-- What hangs below anything but a swapchain is a view. -/
theorem Related.isView_of_parent (h : f.Related) {p : Node} (hn : f.nodes[i]? = some n)
    (hparent : n.parent = some j) (hp : f.nodes[j]? = some p) (hkind : p.kind ≠ .swapchain) :
    n.kind.isView = true := by
  have hholds := (h i n hn).seat.holds_of_parent hparent hp
  rcases ResourceKind.eq_of_holds hholds with ⟨-, hview⟩ | ⟨-, hview⟩ | ⟨hswapchain, -⟩
  · rw [hview]
    rfl
  · rw [hview]
    rfl
  · exact absurd hswapchain hkind

/-- An image made elsewhere hangs below a swapchain, which is a root. -/
theorem Related.kind_root_of_external (h : f.Related) (hf : f.WellFormed)
    (hn : f.nodes[i]? = some n) (hexternal : n.payload.isExternal = true) :
    ∃ s, f.nodes[f.root i]? = some s ∧ s.kind = .swapchain := by
  cases (h i n hn).seat with
  | root hroot => exact absurd hroot ((h i n hn).external hexternal)
  | @below j s hbelow hs hholds =>
    have hswapchain : s.kind = .swapchain := by
      have himage := Payload.kind_of_isExternal hexternal
      rcases ResourceKind.eq_of_holds hholds with ⟨-, hkind⟩ | ⟨-, hkind⟩ | ⟨hkind, -⟩
      · cases hkind.symm.trans himage
      · cases hkind.symm.trans himage
      · exact hkind
    have hsroot := h.isRoot hs (by rw [hswapchain]; rfl)
      (Payload.isExternal_of_kind (by rw [← Node.kind, hswapchain]; decide))
    rw [root_of_parent hf hn hbelow, root_of_top hs hsroot]
    exact ⟨s, hs, hswapchain⟩

/-- **A tree without a swapchain holds no more than a root and its views.** -/
theorem Related.place_in_tree (h : f.Related) (hf : f.WellFormed) {r : Node}
    (hn : f.nodes[i]? = some n) (hr : f.nodes[f.root i]? = some r) (hkind : r.kind ≠ .swapchain) :
    f.root i = i ∨ n.parent = some (f.root i) := by
  cases (h i n hn).seat with
  | root hparent => exact .inl (root_of_top hn hparent)
  | @below j p hparent hp hholds =>
    rw [root_of_parent hf hn hparent] at hr ⊢
    by_cases hroot : p.parent = none
    · exact .inr (by rw [hparent, root_of_top hp hroot])
    · have hexternal : p.payload.isExternal = true := by
        by_contra hinside
        exact hroot (h.isRoot hp (ResourceKind.isView_of_holds hholds) (by simpa using hinside))
      obtain ⟨s, hs, hswapchain⟩ := h.kind_root_of_external hf hp hexternal
      rw [hr] at hs
      obtain rfl := Option.some.inj hs
      exact absurd hswapchain hkind

/-! ## Default views -/

theorem IsDefaultView.mono (h : IsDefaultView v n i) {v' : Node} (hv : v.Keeps v')
    (hn : n.Keeps n') : IsDefaultView v' n' i where
  kind := hv.kind.trans h.kind
  parent := hv.parent.trans h.parent
  name := by rw [hv.name, h.name, hn.name]

/-- It is enough to look at the images that are new. -/
theorem Furnished.mono (h : f.Furnished) (hf : f.KeepsNodes f')
    (hnew : ∀ (i : Nat) n', f'.nodes[i]? = some n' → f.nodes[i]? = none → n'.kind = .image →
      ∃ (j : Nat) (v : Node), f'.nodes[j]? = some v ∧ IsDefaultView v n' i) : f'.Furnished := by
  intro i n' hn' hkind
  cases hn : f.nodes[i]? with
  | none => exact hnew i n' hn' hn hkind
  | some n =>
    obtain ⟨m, hm, hk⟩ := hf i n hn
    rw [hn'] at hm
    obtain rfl := Option.some.inj hm
    obtain ⟨j, v, hv, hview⟩ := h i n hn (hk.kind.symm.trans hkind)
    obtain ⟨v', hv', hkv⟩ := hf j v hv
    exact ⟨j, v', hv', hview.mono hkv hk⟩

theorem Furnished.empty : Furnished {} := by
  intro i n hn
  simp at hn

theorem Furnished.push (h : f.Furnished) (hkind : n.kind ≠ .image) : (f.push n).Furnished := by
  refine h.mono keepsNodes_push fun i m hm hnone himage => ?_
  rcases nodes_push_cases hm with hm | ⟨-, rfl⟩
  · rw [hnone] at hm
    cases hm
  · exact absurd himage hkind

/-- An image may be added together with its default view. -/
theorem Furnished.push_pair (h : f.Furnished) (hview : IsDefaultView v n f.size) :
    ((f.push n).push v).Furnished := by
  intro i m hm himage
  rcases nodes_push_cases hm with hm | ⟨-, rfl⟩
  · rcases nodes_push_cases hm with hm | ⟨rfl, rfl⟩
    · obtain ⟨j, w, hw, hwview⟩ := h i m hm himage
      exact ⟨j, w, nodes_push_of_some (nodes_push_of_some hw), hwview⟩
    · exact ⟨_, v, nodes_push_size, hview⟩
  · rw [hview.kind] at himage
    cases himage

theorem exists_node_of_hierarchy (h : f'.hierarchy = f.hierarchy) (hn' : f'.nodes[i]? = some n') :
    ∃ n, f.nodes[i]? = some n := by
  have hi := hierarchy_of_nodes hn'
  rw [h, hierarchy, List.getElem?_map] at hi
  obtain ⟨n, hn, -⟩ := Option.map_eq_some_iff.1 hi
  exact ⟨n, hn⟩

/-- Without new nodes there is nothing to look at. -/
theorem Furnished.same (h : f.Furnished) (hf : f.KeepsNodes f')
    (hsame : f'.hierarchy = f.hierarchy) : f'.Furnished := by
  refine h.mono hf fun i n' hn' hnone => ?_
  obtain ⟨n, hn⟩ := exists_node_of_hierarchy hsame hn'
  rw [hnone] at hn
  cases hn

theorem Furnished.unfolds {g : Forest} (hg : g.Furnished) (h : Unfolds i g f) : f.Furnished := by
  obtain ⟨-, hview⟩ := h
  exact hg.push_pair hview

end Forest

/-! ## Operations -/

section
variable {δ : Type} [Device δ] {f f' : Forest} {d d' : δ}

/-- A swapchain is unfolded into its images, and nothing else is. -/
theorem expandSwapchain_unfolds {i : Nat} (h : (f.expandSwapchain i).result = .ok f') :
    f' = f ∨ (∃ n, f.nodes[i]? = some n ∧ n.kind = .swapchain) ∧
      ReflTransGen (Forest.Unfolds i) f f' := by
  rcases expandSwapchain_ok h with rfl | ⟨n, source, acquired, hn, hp, -, h⟩
  · exact .inl rfl
  · refine .inr ⟨⟨n, hn, by rw [Node.kind, hp]; rfl⟩, ?_⟩
    refine foldlM_inv (P := fun g => ReflTransGen (Forest.Unfolds i) f g)
      (fun g x g' hg hstep => hg.tail ?_) h .refl
    obtain ⟨m, v, rfl, -, -, -, hparent, -, -, hview⟩ := addSwapchainImage_ok hstep
    exact .image hparent hview

theorem Grows.related {s s' : Forest × δ} (h : Grows s s') (hs : s.1.Related) : s'.1.Related := by
  cases h with
  | clock f d =>
    exact fun i n hn => (hs i n hn).mono (.refl n) fun j p hp => ⟨p, hp, .refl p⟩
  | register d h =>
    refine hs.push ⟨h.seat, h.links, fun j s hj hn hswapchain => ?_, fun hexternal => ?_⟩
    · obtain ⟨p, hp, hkind⟩ := h.parent j hj
      rw [hn] at hp
      obtain rfl := Option.some.inj hp
      exact absurd hswapchain hkind
    · rw [Payload.isExternal_of_inside h.inside] at hexternal
      cases hexternal
  | unfold d h =>
    obtain ⟨desc, hpayload⟩ := h.payload
    obtain ⟨p, source, acquired, hp, hswapchain, -⟩ := h.source
    refine hs.push ⟨.below h.parent hp ?_, fun origin horigin => ?_, fun _ _ _ _ _ => ?_,
      fun _ => ?_⟩
    · rw [Node.kind, Node.kind, hpayload, hswapchain]
      rfl
    · rw [hpayload] at horigin
      cases horigin
    · rw [hpayload]
      rfl
    · rw [h.parent]
      exact Option.some_ne_none _
  | acquire d index hn hp =>
    refine hs.put hn ⟨⟨rfl, rfl, rfl, ?_⟩, ?_, ?_⟩
    · rw [Node.kind, Node.kind, hp]
      rfl
    · rw [hp]
      rfl
    · rw [hp]
      rfl
  | mountNode h =>
    rcases mountNode_ok h with ⟨rfl, rfl⟩ | ⟨m, outcome, hm, hrealize, rfl⟩
    · exact hs
    · exact hs.put hm (.of_bare rfl rfl rfl (bare_of_realize hrealize))

theorem Releases.related {s s' : Forest × δ} (h : Releases s s') (hs : s.1.Related) :
    s'.1.Related := by
  obtain ⟨h⟩ := h
  rcases releaseNode_ok h with ⟨rfl, rfl⟩ | ⟨m, payload, hm, hrelease, rfl⟩
  · exact hs
  · exact hs.put hm (.of_bare rfl rfl rfl (bare_of_release hrelease))

theorem related_of_growsAll (h : ReflTransGen Grows (f, d) (f', d')) (hf : f.Related) :
    f'.Related :=
  kept_by_all (P := fun s => s.1.Related) (fun _ _ => Grows.related) h hf

/-- **Every operation keeps what nodes tell of each other.** -/
theorem Operation.related {o : Operation} (h : o.run f d = .ok (f', d')) (hf : f.Related) :
    f'.Related := by
  rcases o.run_cases h with ⟨-, hgrows⟩ | ⟨-, hreleases⟩ | ⟨name, source, -, -, rfl, -⟩
  · exact related_of_growsAll hgrows hf
  · exact kept_by_all (P := fun s => s.1.Related) (fun _ _ => Releases.related) hreleases hf
  · refine hf.push ⟨.root rfl rfl, fun origin horigin => ?_, fun j s hj => ?_, fun hexternal => ?_⟩
    · cases horigin
    · cases hj
    · cases hexternal

theorem keepsNodes_of_growsAll (h : ReflTransGen Grows (f, d) (f', d')) : f.KeepsNodes f' := by
  intro i n hn
  obtain ⟨n', hn', hk, -⟩ := exists_node_of_growsAll h hn
  exact ⟨n', hn', hk⟩

theorem furnished_of_releasesAll (h : ReflTransGen Releases (f, d) (f', d')) (hf : f.Furnished) :
    f'.Furnished := by
  refine hf.same (fun i n hn => ?_) (hierarchy_of_releasesAll h)
  obtain ⟨n', hn', hk, -⟩ := exists_node_of_releasesAll h hn
  exact ⟨n', hn', hk⟩

theorem furnished_of_mount {name : String} {r : Except DeviceError Unit}
    (h : (f.mount name d).result = .ok (r, f', d')) (hf : f.Furnished) : f'.Furnished := by
  obtain ⟨p, g, -, hg, h⟩ := mount_ok h
  have hfurnished : g.Furnished := by
    rcases expandSwapchain_unfolds hg with rfl | ⟨-, hunfolds⟩
    · exact hf
    · exact kept_by_all (fun _ _ hstep hs => hs.unfolds hstep) hunfolds hf
  exact hfurnished.same (keepsNodes_of_growsAll (mountNodes_grows h)) (mountNodes_hierarchy h)

/-- **Every operation leaves no image without its default view.** -/
theorem Operation.furnished {o : Operation} (h : o.run f d = .ok (f', d')) (hf : f.Furnished) :
    f'.Furnished := by
  rcases o.run_whole h with ⟨-, halters, -⟩ | ⟨-, hreleases⟩ | ⟨name, r, -, hmount⟩
  · cases halters with
    | add _ hkind => exact hf.push hkind
    | addImage _ _ hview => exact hf.push_pair hview
    | addSwapchain source _ => exact hf.push (by simp [Node.ofSwapchain, Node.kind, Payload.kind])
    | acquire index hn hp =>
      refine hf.same (Forest.keepsNodes_put hn ⟨rfl, rfl, rfl, ?_⟩) (Forest.hierarchy_put hn rfl)
      rw [Node.kind, Node.kind, hp]
      rfl
  · exact furnished_of_releasesAll hreleases hf
  · exact furnished_of_mount hmount hf

end

/-! ## Frames -/

section
variable {passes : List Pass} {f f' : Forest} {shaders : Registry} {a : Analysis}

/-- **Every frame keeps what nodes tell of each other.** -/
theorem related_of_frame (h : (analyze passes f shaders).result = .ok (a, f'))
    (hf : f.Related) : f'.Related := by
  obtain ⟨-, -, -, rfl⟩ := analyze_ok_iff.1 h
  refine hf.mono (fun i n hn => ?_) fun i n' hn' hnone => ?_
  · obtain ⟨s, hs, -⟩ := Forest.exists_carry a.timelines hn
    exact ⟨_, hs, .of_bare rfl rfl rfl rfl⟩
  · obtain ⟨n, hn⟩ := Forest.exists_of_nodes_carry hn'
    rw [hnone] at hn
    cases hn

/-- **Every frame leaves no image without its default view.** -/
theorem furnished_of_frame (h : (analyze passes f shaders).result = .ok (a, f'))
    (hf : f.Furnished) : f'.Furnished := by
  obtain ⟨-, -, -, rfl⟩ := analyze_ok_iff.1 h
  exact hf.same (f.retains_carry _).keepsNodes (f.hierarchy_carry _)

end

end FrameGraph
