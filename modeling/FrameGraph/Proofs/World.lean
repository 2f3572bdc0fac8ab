import FrameGraph.Proofs.HeadlessImages
import FrameGraph.Proofs.Layouts

/-!
# Who stands for an image

An image of the headless device is claimed by one node: the one that made it, or the swapchain that
it was imported with and, once that is unfolded, the swapchain's child. `World.Sound` says this of
all images together with what the nodes tell of the images' layouts. Each small change keeps it
(`Sound.grows`, `Sound.releases`), an image that is made along the way being new to everyone.
-/

set_option autoImplicit false

namespace FrameGraph

/-- The resources, the device, and the images made elsewhere that belong to no swapchain yet. -/
structure World where
  forest : Forest := {}
  device : Headless := {}
  spare : List (Handle .image) := []

/-- The images that a node stands for or, as a swapchain with `k` children, will unfold into. -/
def Node.claims (n : Node) (k : Nat) : List (Handle .image) :=
  match n.payload with
  | .image _ h _ => h.toList
  | .swapchain source _ => source.images.drop k
  | _ => []

/-- Whether the node at a position claims an image. -/
def Forest.Claims (f : Forest) (i : Nat) (h : Handle .image) : Prop :=
  ∃ n, f.nodes[i]? = some n ∧ h ∈ n.claims (f.children i).length

/-- Whether a node is right about the layouts of its images. -/
structure Node.Sound (n : Node) (k : Nat) (l : Layouts) : Prop where
  layout : ∀ h, n.image? = some h → n.residency ≠ .dontCare → n.current.layout = l h
  bare : n.kind = .image → n.image? = none → n.current.layout = .undefined
  nodup : ∀ source acquired, n.payload = .swapchain source acquired → source.images.Nodup
  pending : ∀ source acquired, n.payload = .swapchain source acquired →
    ∀ h ∈ source.images.drop k, l h = .undefined

/-- Whether every image is claimed once and every node is right about the layouts. -/
structure World.Sound (w : World) (l : Layouts) : Prop where
  owner : ∀ i j h, w.forest.Claims i h → w.forest.Claims j h → i = j
  known : ∀ i h, w.forest.Claims i h → h.id ≤ w.device.lastHandle
  notSpare : ∀ i h, w.forest.Claims i h → h ∉ w.spare
  spareKnown : ∀ h ∈ w.spare, h.id ≤ w.device.lastHandle
  livingKnown : ∀ h ∈ w.device.living, h.id ≤ w.device.lastHandle
  node : ∀ (i : Nat) n, w.forest.nodes[i]? = some n → n.Sound (w.forest.children i).length l

namespace Node

variable {n : Node} {k k' : Nat} {h : Handle .image} {l l' : Layouts}

theorem mem_claims_of_image (himage : n.image? = some h) (k : Nat) : h ∈ n.claims k := by
  obtain ⟨desc, external, hp⟩ := image?_eq_some_iff.1 himage
  simp [claims, hp]

theorem mem_claims_of_swapchain {source : SwapchainImport} {acquired : Nat}
    (hp : n.payload = .swapchain source acquired) : h ∈ n.claims k ↔ h ∈ source.images.drop k := by
  simp [claims, hp]

/-- With more children a swapchain has fewer images to unfold into. -/
theorem claims_mono (hk : k ≤ k') (hh : h ∈ n.claims k') : h ∈ n.claims k := by
  unfold claims at hh ⊢
  split at hh
  · exact hh
  · exact List.drop_subset_drop_left _ hk hh
  · exact hh

/-- A node speaks only of the images that it claims. -/
theorem Sound.mono (hn : n.Sound k l) (hk : k ≤ k') (hl : ∀ h ∈ n.claims k, l' h = l h) :
    n.Sound k' l' where
  layout h himage hres := by
    rw [hl h (mem_claims_of_image himage k)]
    exact hn.layout h himage hres
  bare := hn.bare
  nodup := hn.nodup
  pending source acquired hp h hh := by
    have hh := List.drop_subset_drop_left _ hk hh
    rw [hl h ((mem_claims_of_swapchain hp).2 hh)]
    exact hn.pending source acquired hp h hh

/-- Nothing is asked of a node that is neither an image nor a swapchain. -/
theorem Sound.of_plain (himage : n.kind ≠ .image) (hswapchain : n.kind ≠ .swapchain) :
    n.Sound k l where
  layout h hh := absurd (by
    obtain ⟨desc, external, hp⟩ := image?_eq_some_iff.1 hh
    rw [kind, hp]
    rfl) himage
  bare hkind := absurd hkind himage
  nodup source acquired hp := absurd (by rw [kind, hp]; rfl) hswapchain
  pending source acquired hp := absurd (by rw [kind, hp]; rfl) hswapchain

theorem Sound.of_image {desc : ImageDesc} {external : Bool}
    (hp : n.payload = .image desc (some h) external)
    (hlayout : n.residency ≠ .dontCare → n.current.layout = l h) : n.Sound k l where
  layout h' himage hres := by
    rw [image?, hp] at himage
    obtain rfl := Option.some.inj himage
    exact hlayout hres
  bare _ hnone := by
    rw [image?, hp] at hnone
    cases hnone
  nodup _ _ hp' := by
    rw [hp] at hp'
    cases hp'
  pending _ _ hp' := by
    rw [hp] at hp'
    cases hp'

theorem Sound.of_bare {desc : ImageDesc} {external : Bool}
    (hp : n.payload = .image desc none external) (hlayout : n.current.layout = .undefined) :
    n.Sound k l where
  layout h' himage := by
    rw [image?, hp] at himage
    cases himage
  bare _ _ := hlayout
  nodup _ _ hp' := by
    rw [hp] at hp'
    cases hp'
  pending _ _ hp' := by
    rw [hp] at hp'
    cases hp'

theorem Sound.of_swapchain {source : SwapchainImport} {acquired : Nat}
    (hp : n.payload = .swapchain source acquired) (hnodup : source.images.Nodup)
    (hpending : ∀ h ∈ source.images.drop k, l h = .undefined) : n.Sound k l where
  layout h' himage := by
    rw [image?, hp] at himage
    cases himage
  bare hkind := by
    rw [kind, hp] at hkind
    cases hkind
  nodup _ _ hp' := by
    rw [hp] at hp'
    cases hp'
    exact hnodup
  pending _ _ hp' := by
    rw [hp] at hp'
    cases hp'
    exact hpending

theorem kind_of_mem_claims (hh : h ∈ n.claims k) : n.kind = .image ∨ n.kind = .swapchain := by
  unfold claims at hh
  unfold kind
  split at hh
  · next hp => exact .inl (by rw [hp]; rfl)
  · next hp => exact .inr (by rw [hp]; rfl)
  · cases hh

end Node

variable {f f' : Forest} {d d' : Headless} {spare spare' : List (Handle .image)} {l l' : Layouts}
  {n n' : Node} {i j : Nat} {h : Handle .image}

/-! ## Changing a node -/

namespace World

theorem claims_put (hn : f.nodes[i]? = some n) (hparent : n'.parent = n.parent)
    (hj : (f.put i n').Claims j h) :
    f.Claims j h ∨ j = i ∧ h ∈ n'.claims (f.children i).length := by
  obtain ⟨m, hm, hh⟩ := hj
  rw [Forest.children_put hn hparent] at hh
  rcases Forest.nodes_put_cases hn hm with hm | ⟨rfl, rfl⟩
  · exact .inl ⟨m, hm, hh⟩
  · exact .inr ⟨rfl, hh⟩

/-- A node may change if it claims nothing new but images that the device has made meanwhile. -/
theorem Sound.put (hw : Sound ⟨f, d, spare⟩ l) (hn : f.nodes[i]? = some n)
    (hparent : n'.parent = n.parent) (hd : d.lastHandle ≤ d'.lastHandle)
    (hliving : ∀ h ∈ d'.living, h.id ≤ d'.lastHandle)
    (hl : ∀ h : Handle .image, h.id ≤ d.lastHandle → l' h = l h)
    (hclaims : ∀ h ∈ n'.claims (f.children i).length,
      h ∈ n.claims (f.children i).length ∨ d.lastHandle < h.id ∧ h.id ≤ d'.lastHandle)
    (hnode : n'.Sound (f.children i).length l') : Sound ⟨f.put i n', d', spare⟩ l' := by
  have hback {j : Nat} {h : Handle .image} (hj : (f.put i n').Claims j h) :
      f.Claims j h ∨ j = i ∧ d.lastHandle < h.id ∧ h.id ≤ d'.lastHandle := by
    rcases claims_put hn hparent hj with hj | ⟨rfl, hh⟩
    · exact .inl hj
    · rcases hclaims h hh with hh | hh
      · exact .inl ⟨n, hn, hh⟩
      · exact .inr ⟨rfl, hh⟩
  refine ⟨fun j k h hj hk => ?_, fun j h hj => ?_, fun j h hj hh => ?_, fun h hh => ?_, hliving,
    fun j m hm => ?_⟩
  · rcases hback hj with hj | ⟨rfl, hj, -⟩
    · rcases hback hk with hk | ⟨-, hk, -⟩
      · exact hw.owner j k h hj hk
      · exact absurd (hw.known j h hj) (Nat.not_le_of_lt hk)
    · rcases hback hk with hk | ⟨rfl, -, -⟩
      · exact absurd (hw.known k h hk) (Nat.not_le_of_lt hj)
      · rfl
  · rcases hback hj with hj | ⟨-, -, hj⟩
    · exact Nat.le_trans (hw.known j h hj) hd
    · exact hj
  · rcases hback hj with hj | ⟨-, hj, -⟩
    · exact hw.notSpare j h hj hh
    · exact absurd (hw.spareKnown h hh) (Nat.not_le_of_lt hj)
  · exact Nat.le_trans (hw.spareKnown h hh) hd
  · show m.Sound ((f.put i n').children j).length l'
    rw [Forest.children_put hn hparent]
    rcases Forest.nodes_put_cases hn hm with hm | ⟨rfl, rfl⟩
    · exact (hw.node j m hm).mono (Nat.le_refl _) fun h hh => hl h (hw.known j h ⟨m, hm, hh⟩)
    · exact hnode

/-! ## Adding a node -/

theorem claims_push (hj : (f.push n').Claims j h) : f.Claims j h ∨
    j = f.size ∧ h ∈ n'.claims ((f.push n').children f.size).length := by
  obtain ⟨m, hm, hh⟩ := hj
  rcases Forest.nodes_push_cases hm with hm | ⟨rfl, rfl⟩
  · refine .inl ⟨m, hm, Node.claims_mono ?_ hh⟩
    rw [Forest.children_push, List.length_append]
    exact Nat.le_add_right _ _
  · exact .inr ⟨rfl, hh⟩

/-- A node may be added if nothing that it claims is claimed elsewhere. -/
theorem Sound.push (hw : Sound ⟨f, d, spare⟩ l) (hspare : ∀ h ∈ spare', h ∈ spare)
    (hl : ∀ i h, f.Claims i h → l' h = l h)
    (hclaims : ∀ h ∈ n'.claims ((f.push n').children f.size).length,
      h.id ≤ d.lastHandle ∧ h ∉ spare' ∧ ∀ j, (f.push n').Claims j h → j = f.size)
    (hnode : n'.Sound ((f.push n').children f.size).length l') :
    Sound ⟨f.push n', d, spare'⟩ l' := by
  refine ⟨fun j k h hj hk => ?_, fun j h hj => ?_, fun j h hj hh => ?_,
    fun h hh => hw.spareKnown h (hspare h hh), hw.livingKnown, fun j m hm => ?_⟩
  · rcases claims_push hj with hj' | ⟨rfl, hj'⟩
    · rcases claims_push hk with hk' | ⟨rfl, hk'⟩
      · exact hw.owner j k h hj' hk'
      · exact (hclaims h hk').2.2 j hj
    · exact ((hclaims h hj').2.2 k hk).symm
  · rcases claims_push hj with hj | ⟨-, hj⟩
    · exact hw.known j h hj
    · exact (hclaims h hj).1
  · rcases claims_push hj with hj | ⟨-, hj⟩
    · exact hw.notSpare j h hj (hspare h hh)
    · exact (hclaims h hj).2.1 hh
  · show m.Sound ((f.push n').children j).length l'
    rcases Forest.nodes_push_cases hm with hm | ⟨rfl, rfl⟩
    · refine (hw.node j m hm).mono ?_ fun h hh => hl j h ⟨m, hm, hh⟩
      rw [Forest.children_push, List.length_append]
      exact Nat.le_add_right _ _
    · exact hnode

end World

/-! ## Small changes -/

/-- Images that are brought in, and images made between `d` and `d'`, are in no layout that
matters. -/
def Layouts.renew (l : Layouts) (images : List (Handle .image)) (d d' : Headless) : Layouts :=
  fun h => if h ∈ images ∨ h ∈ d'.living ∧ h ∉ d.living then .undefined else l h

theorem Layouts.renew_of_subset (hd : d'.living ⊆ d.living) : l.renew [] d d' = l := by
  funext h
  refine if_neg ?_
  rintro (hh | ⟨hh, hn⟩)
  · cases hh
  · exact hn (hd hh)

theorem Layouts.renew_of_known (hd : d'.living = d.living ++ [⟨d.lastHandle + 1⟩])
    (hh : h.id ≤ d.lastHandle) : l.renew [] d d' h = l h := by
  refine if_neg ?_
  rintro (hmem | ⟨hmem, hn⟩)
  · cases hmem
  · rw [hd, List.mem_append, List.mem_singleton] at hmem
    rcases hmem with hmem | rfl
    · exact hn hmem
    · exact absurd hh (Nat.not_succ_le_self _)

/-- An image that is made now was never given out before. -/
theorem Layouts.renew_made (hknown : ∀ h ∈ d.living, h.id ≤ d.lastHandle)
    (hd : d'.living = d.living ++ [⟨d.lastHandle + 1⟩]) :
    l.renew [] d d' ⟨d.lastHandle + 1⟩ = .undefined := by
  refine if_pos (.inr ⟨?_, fun hmem => ?_⟩)
  · rw [hd]
    simp
  · exact absurd (hknown _ hmem) (Nat.not_succ_le_self _)

/-- What is made in two steps is what is made in both together. -/
theorem Layouts.renew_renew {d'' : Headless} (hd : d.living ⊆ d'.living)
    (hd' : d'.living ⊆ d''.living) : (l.renew [] d d').renew [] d' d'' = l.renew [] d d'' := by
  funext h
  have hh := @hd h
  have hh' := @hd' h
  simp only [renew, List.not_mem_nil, false_or]
  grind

namespace Node

theorem claims_of_not_backed (hb : n.isBacked = false) (k : Nat) : n.claims k = [] := by
  unfold isBacked Payload.isBacked at hb
  unfold claims
  split
  · next hp =>
    rw [hp] at hb
    simpa using hb
  · next hp =>
    rw [hp] at hb
    cases hb
  · rfl

theorem Sound.of_not_backed (hb : n.isBacked = false) (hcurrent : n.current = .undefined)
    (k : Nat) : n.Sound k l where
  layout h himage := by
    have := mem_claims_of_image himage k
    rw [claims_of_not_backed hb] at this
    cases this
  bare _ _ := by rw [hcurrent]; rfl
  nodup source acquired hp := by
    rw [isBacked, hp] at hb
    cases hb
  pending source acquired hp := by
    rw [isBacked, hp] at hb
    cases hb

end Node

/-- A member of a list without repetition does not come again behind its place. -/
theorem not_mem_drop_succ {α : Type} {xs : List α} {x : α} {k : Nat} (hxs : xs.Nodup)
    (hx : xs[k]? = some x) : x ∉ xs.drop (k + 1) := by
  obtain ⟨hk, rfl⟩ := List.getElem?_eq_some_iff.1 hx
  have hdrop : (xs.drop k).Nodup := hxs.sublist (List.drop_sublist k xs)
  rw [List.drop_eq_getElem_cons hk] at hdrop
  exact (List.nodup_cons.1 hdrop).1

namespace World

theorem Sound.register (hw : Sound ⟨f, d, spare⟩ l) (h : f.Registers n) :
    Sound ⟨f.push n, d, spare⟩ l := by
  refine hw.push (fun h hh => hh) (fun _ _ _ => rfl) (fun h' hh => ?_)
    (.of_not_backed h.isBacked h.current _)
  rw [Node.claims_of_not_backed h.isBacked] at hh
  cases hh

/-- The claim to an image passes from its swapchain to the node that shows it. -/
theorem Sound.unfold (hw : Sound ⟨f, d, spare⟩ l) (hs : f.Shows n i h) :
    Sound ⟨f.push n, d, spare⟩ l := by
  obtain ⟨s, source, acquired, hn, hp, himage⟩ := hs.source
  obtain ⟨desc, hpayload⟩ := hs.payload
  have hnode := hw.node i s hn
  have hdrop : h ∈ source.images.drop (f.children i).length := by
    refine List.mem_of_getElem? (i := 0) ?_
    rw [List.getElem?_drop, Nat.add_zero, himage]
  have hclaim : f.Claims i h := ⟨s, hn, (Node.mem_claims_of_swapchain hp).2 hdrop⟩
  have hclaims (k : Nat) : n.claims k = [h] := by simp [Node.claims, hpayload]
  refine hw.push (fun h hh => hh) (fun _ _ _ => rfl) (fun h' hh => ?_) ?_
  · rw [hclaims, List.mem_singleton] at hh
    subst hh
    refine ⟨hw.known i h' hclaim, hw.notSpare i h' hclaim, fun j hj => ?_⟩
    rcases claims_push hj with hj' | ⟨rfl, -⟩
    · -- only the swapchain could claim it, but it has one child more now
      obtain rfl := hw.owner j i h' hj' hclaim
      obtain ⟨m, hm, hh⟩ := hj
      rw [Forest.nodes_push_of_some hn] at hm
      obtain rfl := Option.some.inj hm
      rw [Node.mem_claims_of_swapchain hp, Forest.children_push, hs.parent, if_pos rfl,
        List.length_append, List.length_singleton] at hh
      exact absurd hh (not_mem_drop_succ (hnode.nodup source acquired hp) himage)
    · rfl
  · refine .of_image hpayload fun _ => ?_
    rw [hs.current, hnode.pending source acquired hp h hdrop]
    rfl

/-- A node may change without a change to what it claims and tells of layouts. -/
theorem Sound.put_same (hw : Sound ⟨f, d, spare⟩ l) (hn : f.nodes[i]? = some n)
    (hparent : n'.parent = n.parent) (hd : d.lastHandle ≤ d'.lastHandle)
    (hliving : d'.living ⊆ d.living)
    (hclaims : ∀ k, ∀ h ∈ n'.claims k, h ∈ n.claims k) (hnode : ∀ k, n.Sound k l → n'.Sound k l) :
    Sound ⟨f.put i n', d', spare⟩ l :=
  hw.put hn hparent hd (fun h hh => Nat.le_trans (hw.livingKnown h (hliving hh)) hd)
    (fun _ _ => rfl) (fun h hh => .inl (hclaims _ h hh)) (hnode _ (hw.node i n hn))

/-- A node may become one that claims nothing. -/
theorem Sound.put_plain (hw : Sound ⟨f, d, spare⟩ l) (hn : f.nodes[i]? = some n)
    (hparent : n'.parent = n.parent) (hd : d.lastHandle ≤ d'.lastHandle)
    (hliving : d'.living ⊆ d.living) (hplain : n'.payload.IsPlain) :
    Sound ⟨f.put i n', d', spare⟩ l := by
  refine hw.put_same hn hparent hd hliving (fun k h hh => ?_) fun k _ =>
    .of_plain hplain.1 hplain.2
  rcases Node.kind_of_mem_claims hh with hkind | hkind
  · exact absurd hkind hplain.1
  · exact absurd hkind hplain.2

theorem Sound.acquire {source : SwapchainImport} {acquired : Nat} (hw : Sound ⟨f, d, spare⟩ l)
    (hn : f.nodes[i]? = some n) (hp : n.payload = .swapchain source acquired) (index : Nat) :
    Sound ⟨f.put i { n with payload := .swapchain source index }, d, spare⟩ l := by
  refine hw.put_same hn rfl (Nat.le_refl _) (List.Subset.refl _) (fun k h hh => ?_) fun k hk => ?_
  · exact (Node.mem_claims_of_swapchain hp).2 hh
  · exact .of_swapchain rfl (hk.nodup _ _ hp) (hk.pending _ _ hp)

/-- An image node without an image may get the one that the device makes for it. -/
theorem Sound.put_made {desc : ImageDesc} {external : Bool} (hw : Sound ⟨f, d, spare⟩ l)
    (hn : f.nodes[i]? = some n) (hp : n.payload = .image desc none external)
    (hlast : d'.lastHandle = d.lastHandle + 1)
    (hliving : d'.living = d.living ++ [⟨d.lastHandle + 1⟩]) (life : Nat) :
    Sound ⟨f.put i { n with payload := .image desc (some ⟨d.lastHandle + 1⟩) external, life }, d',
      spare⟩ (l.renew [] d d') := by
  refine hw.put hn rfl (hlast ▸ Nat.le_succ _) (fun h hh => ?_)
    (fun h hh => Layouts.renew_of_known hliving hh) (fun h hh => ?_)
    (.of_image rfl fun _ => ?_)
  · rw [hliving, List.mem_append, List.mem_singleton] at hh
    rcases hh with hh | rfl
    · exact Nat.le_trans (hw.livingKnown h hh) (hlast ▸ Nat.le_succ _)
    · exact Nat.le_of_eq hlast.symm
  · obtain rfl : h = ⟨d.lastHandle + 1⟩ := by simpa [Node.claims] using hh
    exact .inr ⟨Nat.lt_succ_self _, Nat.le_of_eq hlast.symm⟩
  · rw [Layouts.renew_made hw.livingKnown hliving]
    exact (hw.node i n hn).bare (by rw [Node.kind, hp]; rfl) (by rw [Node.image?, hp])

theorem Sound.mountNode {r : Except DeviceError Unit} (hw : Sound ⟨f, d, spare⟩ l)
    (h : f.mountNode d i = .ok (r, f', d')) :
    Sound ⟨f', d', spare⟩ (l.renew [] d d') ∧ d.living ⊆ d'.living := by
  rcases mountNode_ok h with ⟨rfl, rfl⟩ | ⟨n, outcome, hn, hrealize, rfl⟩
  · rw [Layouts.renew_of_subset (List.Subset.refl _)]
    exact ⟨hw, List.Subset.refl _⟩
  · rcases realize_cases hrealize with ⟨desc, external, hp, hmade, hlast, hliving⟩ |
      ⟨⟨hlast, hliving⟩, hsame⟩
    · rw [hmade]
      refine ⟨hw.put_made hn hp hlast hliving _, ?_⟩
      rw [hliving]
      exact List.subset_append_left _ _
    · have hsub : d'.living ⊆ d.living := by rw [hliving]; exact List.Subset.refl _
      rw [Layouts.renew_of_subset hsub]
      refine ⟨?_, by rw [hliving]; exact List.Subset.refl _⟩
      rcases hsame with hsame | hplain
      · rw [hsame]
        exact hw.put_same hn rfl hlast hsub (fun k h hh => hh) fun k hk => ⟨hk.1, hk.2, hk.3, hk.4⟩
      · exact hw.put_plain hn rfl hlast hsub hplain

theorem Sound.grows (hw : Sound ⟨f, d, spare⟩ l) (h : Grows (f, d) (f', d')) :
    Sound ⟨f', d', spare⟩ (l.renew [] d d') ∧ d.living ⊆ d'.living := by
  cases h with
  | clock =>
    rw [Layouts.renew_of_subset (List.Subset.refl _)]
    exact ⟨⟨hw.1, hw.2, hw.3, hw.4, hw.5, hw.6⟩, List.Subset.refl _⟩
  | register _ h =>
    rw [Layouts.renew_of_subset (List.Subset.refl _)]
    exact ⟨hw.register h, List.Subset.refl _⟩
  | unfold _ h =>
    rw [Layouts.renew_of_subset (List.Subset.refl _)]
    exact ⟨hw.unfold h, List.Subset.refl _⟩
  | acquire _ index hn hp =>
    rw [Layouts.renew_of_subset (List.Subset.refl _)]
    exact ⟨hw.acquire hn hp index, List.Subset.refl _⟩
  | mountNode h => exact hw.mountNode h

theorem Sound.releases (hw : Sound ⟨f, d, spare⟩ l) (h : Releases (f, d) (f', d')) :
    Sound ⟨f', d', spare⟩ l ∧ d'.living ⊆ d.living := by
  obtain ⟨h⟩ := h
  rcases releaseNode_ok h with ⟨rfl, rfl⟩ | ⟨n, payload, hn, hrelease, rfl⟩
  · exact ⟨hw, List.Subset.refl _⟩
  · obtain ⟨hlast, hliving, hcases⟩ := release_cases hrelease
    refine ⟨?_, hliving⟩
    have hlast := Nat.le_of_eq hlast.symm
    rcases hcases with ⟨desc, handle, hp, rfl⟩ | ⟨rfl, hforgets⟩ | hplain
    · refine hw.put_same hn rfl hlast hliving (fun k h hh => ?_) fun k _ => .of_bare rfl ?_
      · cases hh
      · simp [hp, Payload.forgetsState, AccessState.undefined]
    · rw [hforgets]
      exact hw.put_same hn rfl hlast hliving (fun k h hh => hh) fun k hk => ⟨hk.1, hk.2, hk.3, hk.4⟩
    · exact hw.put_plain hn rfl hlast hliving hplain

end World

end FrameGraph
