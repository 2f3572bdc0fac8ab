import FrameGraph.Proofs.Lookups

/-!
# The images of a swapchain stay

A swapchain has no children until its name is mounted (`Forest.Reached.mount_mem`). That one mount
gives it all of its images, each with its default view (`Forest.ShowsImages`). What a forest has of
a swapchain then stays (`Forest.KeepsImages`): no operation and no frame adds a child, changes a
handle or destroys an image that was made elsewhere (`swapchain_unfolds_once`).
-/

set_option autoImplicit false

namespace FrameGraph

open Relation (ReflTransGen)

namespace Forest

/-! ## One child for each image -/

/-- Whether a swapchain has one child for each of its images, with the handle of the image and a
default view of its own below it. -/
structure ShowsImages (f : Forest) (i : Nat) (name : String) (source : SwapchainImport) : Prop
    extends f.Unfolded i name source where
  view : ∀ (k j : Nat), (f.children i)[k]? = some j → ∃ (l : Nat) (v : Node) (handle : _),
    f.nodes[l]? = some v ∧ v.parent = some j ∧ v.name = defaultViewName (shownName name k) ∧
      v.payload = .imageView source.imageDesc.defaultView (shownName name k) handle

variable {f f' f'' g : Forest} {n v : Node} {i j : Nat} {name : String} {source : SwapchainImport}
  {acquired : Nat}

/-- A whole view of an image is described as the image tells, and shows it by its name. -/
theorem IsWholeView.payload (h : IsWholeView v n j) (hn : f.nodes[j]? = some n) (hv : f.Links v)
    {desc : ImageDesc} {handle : Option (Handle .image)} {external : Bool}
    (hp : n.payload = .image desc handle external) :
    ∃ shown, v.payload = .imageView desc.defaultView n.name shown := by
  have hkind := h.kind
  have hdesc := h.desc
  rw [Node.imageDesc?, hp, Option.map_some] at hdesc
  cases hpayload : v.payload with
  | imageView viewDesc origin shown =>
    rw [Node.imageViewDesc?, hpayload] at hdesc
    obtain rfl := Option.some.inj hdesc
    obtain ⟨k, p, hparent, hk, rfl, -⟩ := hv origin (by rw [hpayload]; rfl)
    obtain rfl := Option.some.inj (h.parent.symm.trans hparent)
    obtain rfl := Option.some.inj (hn.symm.trans hk)
    exact ⟨shown, rfl⟩
  | _ =>
    rw [Node.kind, hpayload] at hkind
    cases hkind

/-- **Images that are unfolded have their default views.** -/
theorem Unfolded.shows (h : f.Unfolded i name source) (hdepicted : f.Depicted)
    (hrelated : f.Related) : f.ShowsImages i name source where
  toUnfolded := h
  view k j hj := by
    obtain ⟨hk, -⟩ := List.getElem?_eq_some_iff.1 hj
    rw [h.length] at hk
    obtain ⟨m, hm, hname, hp⟩ := h.child k j _ hj (List.getElem?_eq_getElem hk)
    obtain ⟨l, v, hv, hview⟩ := hdepicted j m hm (by rw [Node.kind, hp]; rfl)
    obtain ⟨shown, hpayload⟩ := hview.payload hm (hrelated l v hv).links hp
    rw [← hname]
    exact ⟨l, v, shown, hv, hview.parent, hview.name, hpayload⟩

/-- A swapchain that was mounted has its images. -/
theorem Presents.unfolded {os : List Operation} (h : f.Presents os i name source acquired)
    (hmount : .mount name ∈ os) : f.Unfolded i name source :=
  h.images.resolve_right fun hnever => hnever.2 hmount

theorem Presents.children_ne_nil {os : List Operation} (h : f.Presents os i name source acquired)
    (hmount : .mount name ∈ os) : f.children i ≠ [] := by
  rw [← List.length_pos_iff, (h.unfolded hmount).length]
  exact Nat.zero_lt_of_lt h.inside

/-! ## Only its own mount unfolds a swapchain -/

/-- What has nothing below it is the root of itself only. -/
theorem eq_of_root_of_bare (hf : f.WellFormed) (hroot : f.root j = i) (hbare : f.children i = []) :
    j = i := by
  subst hroot
  have hbelow := (Hierarchy.climbs_iff.1 (Hierarchy.climbs_root hf.ordered j)).2
  rcases hbelow.cases_head with heq | ⟨c, hc, -⟩
  · exact heq.symm
  · have hmem : c ∈ f.children (f.root j) := hc
    rw [hbare] at hmem
    cases hmem

/-- What registers a node or acquires an image gives no swapchain a child. -/
theorem Alters.children_of_swapchain (h : f.Alters f') (hn : f.nodes[i]? = some n)
    (hkind : n.kind = .swapchain) : f'.children i = f.children i := by
  have hother {f : Forest} {n m : Node} (hm : f.Registers m) (hn : f.nodes[i]? = some n)
      (hkind : n.kind = .swapchain) : (f.push m).children i = f.children i := by
    rw [children_push, if_neg, List.append_nil]
    intro hparent
    obtain ⟨s, hs, hne⟩ := hm.parent i hparent
    obtain rfl := Option.some.inj (hn.symm.trans hs)
    exact hne hkind
  cases h with
  | add hm _ => exact hother hm hn hkind
  | addImage hm hv _ => rw [hother hv (nodes_push_of_some hn) hkind, hother hm hn hkind]
  | addSwapchain _ _ =>
    rw [children_push, if_neg (by simp [Node.ofSwapchain]), List.append_nil]
  | @acquire m j source' acquired' index hm _ =>
    exact children_put (m := { m with payload := .swapchain source' index }) hm rfl i

end Forest

section
variable {δ : Type} [Device δ] {f f' : Forest} {d d' : δ} {n : Node} {i : Nat}

/-- A mount gives children to the swapchain of that name only. -/
theorem children_of_mount {name : String} {r : Except DeviceError Unit} (hf : f.WellFormed)
    (h : (f.mount name d).result = .ok (r, f', d')) (hn : f.nodes[i]? = some n) :
    f'.children i = f.children i ∨ name = n.name := by
  obtain ⟨hi, -⟩ := List.getElem?_eq_some_iff.1 hn
  obtain ⟨p, g, hfind, hg, h⟩ := mount_ok h
  have hmounted : f'.children i = g.children i := by
    rw [Forest.children, Forest.children, mountNodes_hierarchy h]
  rw [hmounted]
  rcases expandSwapchain_ok hg with rfl | ⟨m, source, acquired, hm, hp, hbare, -⟩
  · exact .inl rfl
  · rw [Forest.expandSwapchain_eq hg hm hp hbare,
      Forest.children_extend_swapchainNodes (f := { f with life := f.life + 1 }) _ _ hi]
    -- What unfolds is the root of the node that is mounted; a bare root is that node itself.
    by_cases hroot : f.root p.index = i
    · obtain ⟨hnode, rfl⟩ := Forest.nodes_of_find hfind
      rw [Forest.eq_of_root_of_bare hf hroot (hroot ▸ hbare)] at hnode
      rw [Option.some.inj (hnode.symm.trans hn)]
      exact .inr rfl
    · rw [if_neg hroot, List.append_nil]
      exact .inl rfl

/-- **Only its own mount gives a swapchain children.** -/
theorem Operation.children_of_swapchain {o : Operation} (hf : f.WellFormed)
    (h : o.run f d = .ok (f', d')) (hn : f.nodes[i]? = some n) (hkind : n.kind = .swapchain) :
    f'.children i = f.children i ∨ o = .mount n.name := by
  rcases o.run_whole h with ⟨-, halters, -⟩ | ⟨-, hreleases⟩ | ⟨name, r, rfl, hr⟩
  · exact .inl (halters.children_of_swapchain hn hkind)
  · left
    rw [Forest.children, Forest.children]
    exact congrArg (Hierarchy.children · i) (hierarchy_of_releasesAll hreleases)
  · exact (children_of_mount hf hr hn).imp_right (congrArg Operation.mount)

/-- A swapchain that was brought in just now has no children. -/
theorem Operation.children_of_new {o : Operation} (hf : f.WellFormed)
    (h : o.run f d = .ok (f', d')) (hnone : f.nodes[i]? = none) (hn : f'.nodes[i]? = some n)
    (hkind : n.kind = .swapchain) : f'.children i = [] := by
  rcases Operation.run_swapchains h with ⟨hkeeps, -⟩ | ⟨name, source, -, -, -, rfl⟩ |
    ⟨j, m, source, acquired, index, -, hm, -, -, rfl⟩
  · exact absurd hkind (hkeeps.new i n hn hnone)
  · obtain rfl : i = f.size := by
      rcases Forest.nodes_push_cases hn with hn | ⟨hi, -⟩
      · cases hnone.symm.trans hn
      · exact hi
    rw [Forest.children_push, if_neg (by simp [Node.ofSwapchain]), List.append_nil,
      hf.children_size]
  · have hsame := Forest.hierarchy_put (m := { m with payload := .swapchain source index }) hm rfl
    obtain ⟨s, hs⟩ := Forest.exists_node_of_hierarchy hsame hn
    cases hnone.symm.trans hs

end

/-- **A swapchain with children was mounted.** -/
theorem Forest.Reached.mount_mem {δ : Type} [Device δ] {os : List Operation} {f : Forest} {n : Node}
    {i : Nat} (h : f.Reached δ os) (hn : f.nodes[i]? = some n) (hkind : n.kind = .swapchain)
    (hchildren : f.children i ≠ []) : .mount n.name ∈ os := by
  induction h generalizing n with
  | start => simp at hn
  | @operate os o f f' d d' hreached ho ih =>
    have hf := hreached.wellFormed
    cases hm : f.nodes[i]? with
    | none => exact absurd (Operation.children_of_new hf ho hm hn hkind) hchildren
    | some m =>
      obtain ⟨n', hn', hk, -⟩ := Operation.exists_node ho hm
      obtain rfl := Option.some.inj (hn.symm.trans hn')
      have hkind' : m.kind = .swapchain := hk.kind.symm.trans hkind
      rw [hk.name]
      rcases Operation.children_of_swapchain hf ho hm hkind' with hsame | rfl
      · exact List.mem_append_left _ (ih hm hkind' (hsame ▸ hchildren))
      · simp
  | @frame os passes f f' shaders a _ ha ih =>
    have hkeeps := keepsSwapchains_of_frame ha
    obtain ⟨-, -, -, rfl⟩ := analyze_ok_iff.1 ha
    have hsame := f.hierarchy_carry a.timelines
    obtain ⟨m, hm⟩ := Forest.exists_node_of_hierarchy hsame hn
    obtain ⟨n', hn', hk, -⟩ := hkeeps.kept i m hm
    obtain rfl := Option.some.inj (hn.symm.trans hn')
    rw [Forest.children, hsame] at hchildren
    rw [hk.name]
    exact ih hm (hk.kind.symm.trans hkind) hchildren

/-! ## What is unfolded stays -/

/-- Whether swapchains stay and, once they have children, have these. -/
structure Forest.KeepsImages (f f' : Forest) : Prop where
  swapchain : ∀ (i : Nat) n source acquired, f.nodes[i]? = some n →
    n.payload = .swapchain source acquired → ∃ n' acquired', f'.nodes[i]? = some n' ∧
      n'.name = n.name ∧ n'.payload = .swapchain source acquired'
  children : ∀ (i : Nat) n source acquired, f.nodes[i]? = some n →
    n.payload = .swapchain source acquired → f.children i ≠ [] → f'.children i = f.children i

namespace Forest

variable {f f' f'' : Forest}

theorem KeepsImages.refl (f : Forest) : f.KeepsImages f :=
  ⟨fun _ n _ acquired hn hp => ⟨n, acquired, hn, rfl, hp⟩, fun _ _ _ _ _ _ _ => rfl⟩

theorem KeepsImages.trans (h : f.KeepsImages f') (h' : f'.KeepsImages f'') :
    f.KeepsImages f'' where
  swapchain i n source acquired hn hp := by
    obtain ⟨n', acquired', hn', hname, hp'⟩ := h.swapchain i n source acquired hn hp
    obtain ⟨n'', acquired'', hn'', hname', hp''⟩ := h'.swapchain i n' source acquired' hn' hp'
    exact ⟨n'', acquired'', hn'', hname'.trans hname, hp''⟩
  children i n source acquired hn hp hchildren := by
    obtain ⟨n', acquired', hn', -, hp'⟩ := h.swapchain i n source acquired hn hp
    have hsame := h.children i n source acquired hn hp hchildren
    exact (h'.children i n' source acquired' hn' hp' (hsame ▸ hchildren)).trans hsame

theorem KeepsSwapchains.keepsImages (h : f.KeepsSwapchains f') : f.KeepsImages f' where
  swapchain i n source acquired hn hp := by
    obtain ⟨n', hn', hname, hp'⟩ := h.swapchain hn hp
    exact ⟨n', acquired, hn', hname, hp'⟩
  children i n source acquired hn hp hchildren :=
    (h.children i n source acquired hn hp).resolve_right fun hbare => hchildren hbare.1

end Forest

theorem Operation.keepsImages {δ : Type} [Device δ] {f f' : Forest} {d d' : δ} {o : Operation}
    (h : o.run f d = .ok (f', d')) : f.KeepsImages f' := by
  rcases Operation.run_swapchains h with ⟨hkeeps, -⟩ | ⟨name, source, -, -, -, rfl⟩ |
    ⟨j, m, source, acquired, index, -, hm, hp, -, rfl⟩
  · exact hkeeps.keepsImages
  · refine ⟨fun i n _ acquired hn hp => ?_, fun i n _ _ _ _ _ => ?_⟩
    · exact ⟨n, acquired, Forest.nodes_push_of_some hn, rfl, hp⟩
    · rw [Forest.children_push, if_neg (by simp [Node.ofSwapchain]), List.append_nil]
  · refine ⟨fun i n source' acquired' hn hp' => ?_, fun i _ _ _ _ _ _ => ?_⟩
    · obtain ⟨n', hn', rfl | ⟨rfl, rfl⟩⟩ :=
        Forest.exists_node_put { m with payload := .swapchain source index } hm hn
      · exact ⟨n', acquired', hn', rfl, hp'⟩
      · obtain ⟨rfl, -⟩ := Payload.swapchain.inj (hp.symm.trans hp')
        exact ⟨_, index, hn', rfl, rfl⟩
    · exact Forest.children_put (m := { m with payload := .swapchain source index }) hm rfl i

namespace World

variable {reuse : Bool} {os : List Operation} {w w' : World}

theorem Step.keepsImages (h : Step reuse w w') : w.forest.KeepsImages w'.forest := by
  cases h with
  | mint => exact .refl _
  | operate _ _ ho => exact Operation.keepsImages ho
  | frame ha => exact (keepsSwapchains_of_frame ha).keepsImages
  | compile hc =>
    obtain ⟨a, -, ha, -⟩ := compileFrame_ok_iff.1 hc
    exact (keepsSwapchains_of_frame ha).keepsImages

/-- **A run keeps the swapchains and what they have.** -/
theorem keepsImages_of_steps (h : ReflTransGen (Step reuse) w w') :
    w.forest.KeepsImages w'.forest :=
  kept_by_all (P := fun w' => w.forest.KeepsImages w'.forest)
    (fun _ _ hstep hw => hw.trans hstep.keepsImages) h (.refl _)

/-- **A run that goes on has a history that goes on.** -/
theorem Ran.extend (h : Ran reuse os w) (hlater : ReflTransGen (Step reuse) w w') :
    ∃ more, Ran reuse (os ++ more) w' := by
  induction hlater with
  | refl => exact ⟨[], by rwa [List.append_nil]⟩
  | tail _ hstep ih =>
    obtain ⟨more, h⟩ := ih
    cases hstep with
    | mint => exact ⟨more, h.mint⟩
    | operate himages hnodup ho =>
      have hnext := h.operate himages hnodup ho
      rw [List.append_assoc] at hnext
      exact ⟨_, hnext⟩
    | frame ha => exact ⟨more, h.frame ha⟩
    | compile hc => exact ⟨more, h.compile hc⟩

end World

/-- What was brought in is there. -/
theorem Forest.Reached.exists_swapchain {δ : Type} [Device δ] {os : List Operation} {f : Forest}
    {name : String} {source : SwapchainImport} (h : f.Reached δ os)
    (hadd : .addSwapchain name source ∈ os) : ∃ (i : Nat) (n : Node) (acquired : Nat),
      f.nodes[i]? = some n ∧ n.name = name ∧ n.payload = .swapchain source acquired := by
  induction h with
  | start => cases hadd
  | @operate os o f _ _ _ _ ho ih =>
    rcases List.mem_append.1 hadd with hadd | hadd
    · obtain ⟨i, n, acquired, hn, rfl, hp⟩ := ih hadd
      obtain ⟨n', acquired', hn', hname, hp'⟩ :=
        (Operation.keepsImages ho).swapchain i n source acquired hn hp
      exact ⟨i, n', acquired', hn', hname, hp'⟩
    · obtain rfl := List.mem_singleton.1 hadd
      obtain ⟨g, hg, ho⟩ := Except.bind_eq_ok_iff.1 ho
      cases ho
      obtain ⟨rfl, -⟩ := addSwapchain_ok hg
      exact ⟨f.size, _, 0, Forest.nodes_push_size, rfl, rfl⟩
  | frame _ ha ih =>
    obtain ⟨i, n, acquired, hn, rfl, hp⟩ := ih hadd
    obtain ⟨n', hn', hname, hp'⟩ := (keepsSwapchains_of_frame ha).swapchain hn hp
    exact ⟨i, n', acquired, hn', hname, hp'⟩

/-- No image that was made elsewhere is destroyed. -/
theorem Ledger.outside_not_destroyed {f : Forest} {d : Headless} {spare : List (Handle .image)}
    (h : Ledger f d spare) {n : Node} {i acquired : Nat} {source : SwapchainImport}
    (hn : f.nodes[i]? = some n) (hp : n.payload = .swapchain source acquired)
    {image : Handle .image} (himage : image ∈ source.images) : .image image ∉ d.destroyed := by
  have houtside : d.IsOutside image :=
    h.outside i image ⟨n, hn, by simp only [Node.outside, hp, himage]⟩
  exact fun hdestroyed => houtside.2 _ (List.mem_append_right _ hdestroyed) rfl

/-- **A swapchain unfolds once and keeps its images.** It has no children before its name is mounted
and one for each image from then on, whatever the run goes on to do; none of the images is ever
destroyed. -/
theorem swapchain_unfolds_once {reuse : Bool} {os : List Operation} {w : World} {name : String}
    {source : SwapchainImport} (h : World.Ran reuse os w)
    (hadd : .addSwapchain name source ∈ os) :
    ∃ i, (.mount name ∉ os → w.forest.children i = []) ∧
      ∀ w', ReflTransGen (World.Step reuse) w w' →
        (∃ n acquired, w'.forest.nodes[i]? = some n ∧ n.name = name ∧
          n.payload = .swapchain source acquired) ∧
        (.mount name ∈ os → w'.forest.children i = w.forest.children i ∧
          w'.forest.ShowsImages i name source) ∧
        ∀ image ∈ source.images, .image image ∉ w'.device.destroyed := by
  obtain ⟨i, n, acquired, hn, rfl, hp⟩ := h.reached.exists_swapchain hadd
  refine ⟨i, fun hnever => ?_, fun w' hlater => ?_⟩
  · by_contra hchildren
    exact hnever (h.reached.mount_mem hn (by rw [Node.kind, hp]; rfl) hchildren)
  · have hkeeps := World.keepsImages_of_steps hlater
    obtain ⟨n', acquired', hn', hname, hp'⟩ := hkeeps.swapchain i n source acquired hn hp
    obtain ⟨more, h'⟩ := h.extend hlater
    have hintact := (World.Intact.empty.run h'.run).1
    refine ⟨⟨n', acquired', hn', hname, hp'⟩, fun hmount => ⟨?_, ?_⟩, fun image himage => ?_⟩
    · have hpresents := h.reached.follows.presents i n source acquired hn hp
      exact hkeeps.children i n source acquired hn hp (hpresents.children_ne_nil hmount)
    · have hpresents := h'.reached.follows.presents i n' source acquired' hn' hp'
      rw [hname] at hpresents
      exact (hpresents.unfolded (List.mem_append_left _ hmount)).shows
        (h'.reached.kept .empty Operation.depicted depicted_of_frame) h'.reached.related
    · exact hintact.ledger.outside_not_destroyed hn' hp' himage

/-! ### A window after everything has expired -/

namespace Atelier

/-- All views are released, and the images stay. -/
def bareForest : Forest where
  nodes := [
    { name := "window", residency := .swapchain, payload := .swapchain window 1, life := 2 },
    { name := "paint"
      residency := .persistent
      payload := .buffer (.uniform 16) none
      life := 3 },
    { name := "paint/raw"
      residency := .persistent
      payload := .bufferView (.whole .r8g8b8a8Unorm) "paint" none
      parent := some 1
      life := 3 },
    { name := "window/0"
      residency := .swapchain
      payload := .image window.imageDesc (some ⟨1⟩) true
      parent := some 0
      life := 2 },
    { name := "window/0/window/0"
      residency := .swapchain
      payload := .imageView window.imageDesc.defaultView "window/0" none
      parent := some 3
      life := 2 },
    { name := "window/1"
      residency := .swapchain
      payload := .image window.imageDesc (some ⟨2⟩) true
      parent := some 0
      life := 2 },
    { name := "window/1/window/1"
      residency := .swapchain
      payload := .imageView window.imageDesc.defaultView "window/1" none
      parent := some 5
      life := 2 }]
  life := 3

def bareDevice : Headless where
  lastHandle := 8
  created := { buffers := 1, bufferViews := 1, imageViews := 4 }
  destroyed := [.imageView ⟨4⟩, .imageView ⟨3⟩, .imageView ⟨6⟩, .imageView ⟨5⟩, .bufferView ⟨8⟩,
    .buffer ⟨7⟩]

theorem expired : World.Step false ⟨forest, device, []⟩ ⟨bareForest, bareDevice, []⟩ :=
  .operate (o := .unmountExpired 9) (by decide) (by decide) rfl

end Atelier

theorem swapchain_unfolds_once_atelier :
    World.Ran false Atelier.history ⟨Atelier.forest, Atelier.device, []⟩ ∧
    .addSwapchain "window" Atelier.window ∈ Atelier.history ∧
    ReflTransGen (World.Step false) ⟨Atelier.forest, Atelier.device, []⟩
      ⟨Atelier.bareForest, Atelier.bareDevice, []⟩ ∧
    ∃ i, Atelier.bareForest.children i = Atelier.forest.children i ∧
      Atelier.bareForest.ShowsImages i "window" Atelier.window ∧
      ∀ image ∈ Atelier.window.images, .image image ∉ Atelier.bareDevice.destroyed := by
  have hadd : .addSwapchain "window" Atelier.window ∈ Atelier.history := by simp [Atelier.history]
  obtain ⟨i, -, hlater⟩ := swapchain_unfolds_once Atelier.ran hadd
  obtain ⟨-, hmounted, hkept⟩ := hlater _ (.single Atelier.expired)
  obtain ⟨hchildren, himages⟩ := hmounted (by simp [Atelier.history])
  exact ⟨Atelier.ran, hadd, .single Atelier.expired, i, hchildren, himages, hkept⟩

end FrameGraph
