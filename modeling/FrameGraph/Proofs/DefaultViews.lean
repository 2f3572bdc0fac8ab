import FrameGraph.Proofs.SwapchainImages
import Mathlib.Algebra.GroupWithZero.Nat

/-!
# How far default views reach

Levels and layers of a view are numbered in one byte, those of an image are not. The default view of
an image starts at its first level and its first layer and goes on until one byte ends
(`ImageDesc.ReachedBy`). So it shows all of an image exactly if the image has at most 255 levels and
at most 255 layers (`ImageDesc.ReachedBy.whole`), and nothing that the image does not have.

In a session, every image has such a view, and every name that stands for the image is looked up as
that view (`default_views_reach`). Images of swapchains have one level and one layer, so that
their views leave nothing out.
-/

set_option autoImplicit false

namespace FrameGraph

open Relation (ReflTransGen)

/-! ## Levels and layers of a range -/

/-- Whether a level or a layer is one of the run. -/
def LevelRange.Has (r : LevelRange) (k : Nat) : Prop := r.base ≤ k ∧ k < r.base + r.count

theorem LevelRange.has_zero_iff {count k : Nat} : LevelRange.Has ⟨0, count⟩ k ↔ k < count := by
  constructor
  · rintro ⟨-, hk⟩
    simpa using hk
  · intro hk
    exact ⟨Nat.zero_le k, by simpa using hk⟩

/-- Whether a range takes in a level of a layer. -/
structure SubresourceRange.Covers (r : SubresourceRange) (level layer : Nat) : Prop where
  level : r.levels.Has level
  layer : r.layers.Has layer

namespace ImageDesc

/-- Whether a range takes in all levels of all layers of an image, and nothing else. -/
def IsWhole (d : ImageDesc) (r : SubresourceRange) : Prop := ∀ level layer,
  r.Covers level layer ↔ level < d.mipLevels ∧ layer < d.arrayLayers

/-- Whether a range takes in as much of an image as a view can. -/
structure ReachedBy (d : ImageDesc) (r : SubresourceRange) : Prop where
  aspect : r.aspect = d.aspect
  /-- The range starts at the first level. -/
  levels : r.levels = ⟨0, min d.mipLevels ImageViewDesc.maxLevel⟩
  /-- The range starts at the first layer. -/
  layers : r.layers = ⟨0, min d.arrayLayers ImageViewDesc.maxLevel⟩

variable {d : ImageDesc} {r : SubresourceRange} {level layer : Nat}

theorem reachedBy_defaultView (d : ImageDesc) : d.ReachedBy d.defaultView.subresourceRange :=
  ⟨rfl, rfl, rfl⟩

namespace ReachedBy

/-- Of the image, only what has a number above one byte is left out. -/
theorem covers_iff (h : d.ReachedBy r) : r.Covers level layer ↔
    (level < d.mipLevels ∧ layer < d.arrayLayers) ∧
      level < ImageViewDesc.maxLevel ∧ layer < ImageViewDesc.maxLevel := by
  constructor
  · rintro ⟨hlevel, hlayer⟩
    rw [h.levels, LevelRange.has_zero_iff, Nat.lt_min] at hlevel
    rw [h.layers, LevelRange.has_zero_iff, Nat.lt_min] at hlayer
    exact ⟨⟨hlevel.1, hlayer.1⟩, hlevel.2, hlayer.2⟩
  · rintro ⟨⟨hlevel, hlayer⟩, hlevel', hlayer'⟩
    constructor
    · rw [h.levels, LevelRange.has_zero_iff]
      exact Nat.lt_min.2 ⟨hlevel, hlevel'⟩
    · rw [h.layers, LevelRange.has_zero_iff]
      exact Nat.lt_min.2 ⟨hlayer, hlayer'⟩

/-- **A default view shows the whole image exactly if one byte counts its levels and its
layers.** -/
theorem whole (h : d.ReachedBy r) (hlevels : 1 ≤ d.mipLevels) (hlayers : 1 ≤ d.arrayLayers) :
    d.IsWhole r ↔
      d.mipLevels ≤ ImageViewDesc.maxLevel ∧ d.arrayLayers ≤ ImageViewDesc.maxLevel := by
  constructor
  · intro hwhole
    -- the last level of the first layer, and the last layer of the first level
    have hlevel := (hwhole (d.mipLevels - 1) 0).2 ⟨by omega, by omega⟩
    have hlayer := (hwhole 0 (d.arrayLayers - 1)).2 ⟨by omega, by omega⟩
    rw [h.covers_iff] at hlevel hlayer
    omega
  · rintro ⟨hmips, harray⟩ level layer
    rw [h.covers_iff]
    omega

end ReachedBy

end ImageDesc

/-! ## Images of swapchains -/

namespace Forest

variable {f : Forest} {os : List Operation} {n : Node} {i j : Nat}

/-- What hangs below something and is an image was made elsewhere. -/
theorem Related.external_below (hrelated : f.Related) (hn : f.nodes[i]? = some n)
    (hkind : n.kind = .image) (hparent : n.parent = some j) : n.payload.isExternal = true := by
  by_contra hinside
  have hroot := hrelated.isRoot hn (by rw [hkind]; rfl) (by simpa using hinside)
  rw [hparent] at hroot
  cases hroot

/-- Images of swapchains have one level and one layer. -/
theorem Follows.single_below (hf : f.Follows os) (hrelated : f.Related) {desc : ImageDesc}
    (hn : f.nodes[i]? = some n) (hdesc : n.imageDesc? = some desc) (hparent : n.parent = some j) :
    desc.mipLevels = 1 ∧ desc.arrayLayers = 1 := by
  have hkind : n.kind = .image := Node.kind_of_imageDesc (by simp [hdesc])
  have hexternal := hrelated.external_below hn hkind hparent
  obtain ⟨-, -, source, image, -, hp⟩ := hf.exists_showsAt hrelated hn hexternal
  rw [Node.imageDesc?, hp] at hdesc
  obtain rfl := Option.some.inj hdesc
  exact ⟨rfl, rfl⟩

/-- Whether a place is the companion view of an image, and the one that a name is looked up as. -/
structure SeenThrough (f : Forest) (asked : String) (p q : Place) : Prop
    extends IsWholeView q.node p.node p.index where
  view : f.view asked = .ok q

/-- Where images have their default views, names that stand for an image are seen through them. -/
theorem Depicted.exists_seenThrough (hf : f.Depicted) (hwf : f.WellFormed) {name : String}
    {p : Place} (hp : f.resolve name = .ok p) (hkind : p.node.kind = .image) :
    ∃ q, f.SeenThrough name p q := by
  obtain ⟨j, v, hv, hview⟩ := hf p.index p.node (nodes_of_resolve hp) hkind
  exact ⟨⟨j, v⟩, hview, view_of_default hwf hp hkind hv hview.parent hview.name⟩

theorem Reached.depicted {δ : Type} [Device δ] (h : f.Reached δ os) : f.Depicted :=
  h.kept .empty Operation.depicted depicted_of_frame

end Forest

/-! ## Sessions -/

/-- **A default view reaches from the first level and layer of its image to the 255th**, and shows
the whole image exactly if there are no more. In every session, on any device, each name that stands
for an image is looked up as that view; an image of a swapchain is always whole in it. -/
theorem default_views_reach :
    (∀ d : ImageDesc, 1 ≤ d.mipLevels → 1 ≤ d.arrayLayers →
      d.ReachedBy d.defaultView.subresourceRange ∧
        (d.IsWhole d.defaultView.subresourceRange ↔ d.mipLevels ≤ 255 ∧ d.arrayLayers ≤ 255)) ∧
    ∀ {δ : Type} [Device δ] {Aside : ObjectCache × δ → ObjectCache × δ → Prop} {device : δ}
      {s : Session δ}, ReflTransGen (Session.Step Aside) { device := device } s →
      ∀ (name : String) {p : Place} {desc : ImageDesc},
        s.forest.resolve name = .ok p → p.node.imageDesc? = some desc →
          ∃ q, s.forest.SeenThrough name p q ∧
            q.node.imageViewDesc? = some desc.defaultView ∧
            (p.node.parent ≠ none → desc.IsWhole desc.defaultView.subresourceRange) := by
  refine ⟨fun d hlevels hlayers => ?_, ?_⟩
  · have hreached := d.reachedBy_defaultView
    exact ⟨hreached, hreached.whole hlevels hlayers⟩
  · intro δ _ Aside device s hs name p desc hp hdesc
    obtain ⟨os, hreached⟩ := Session.exists_reached hs
    have hkind : p.node.kind = .image := Node.kind_of_imageDesc (by simp [hdesc])
    obtain ⟨q, hq⟩ := hreached.depicted.exists_seenThrough hreached.wellFormed hp hkind
    refine ⟨q, hq, ?_, fun hbelow => ?_⟩
    · rw [hq.desc, hdesc]
      rfl
    · obtain ⟨j, hparent⟩ := Option.ne_none_iff_exists'.1 hbelow
      obtain ⟨hlevels, hlayers⟩ := hreached.follows.single_below hreached.related
        (Forest.nodes_of_resolve hp) hdesc hparent
      refine (desc.reachedBy_defaultView.whole (by omega) (by omega)).2 ?_
      rw [hlevels, hlayers]
      decide

/-! ### An atlas beside a window -/

namespace Atlas

/-- An image with more layers than a view can count. -/
def pages : ImageDesc := { arrayLayers := 300, mipLevels := 2 }

def window : SwapchainImport := ⟨[⟨1⟩, ⟨2⟩], .b8g8r8a8Unorm, ⟨4, 4⟩⟩

def forest : Forest where
  nodes := [
    { name := "atlas", residency := .persistent, payload := .image pages none false },
    { name := "atlas/atlas"
      residency := .persistent
      payload := .imageView pages.defaultView "atlas" none
      parent := some 0 },
    { name := "window", residency := .swapchain, payload := .swapchain window 0, life := 1 },
    { name := "window/0"
      residency := .swapchain
      payload := .image window.imageDesc (some ⟨1⟩) true
      parent := some 2
      life := 1 },
    { name := "window/0/window/0"
      residency := .swapchain
      payload := .imageView window.imageDesc.defaultView "window/0" (some ⟨1⟩)
      parent := some 3
      life := 1 },
    { name := "window/1"
      residency := .swapchain
      payload := .image window.imageDesc (some ⟨2⟩) true
      parent := some 2
      life := 1 },
    { name := "window/1/window/1"
      residency := .swapchain
      payload := .imageView window.imageDesc.defaultView "window/1" (some ⟨2⟩)
      parent := some 5
      life := 1 }]
  life := 1

def device : Headless where
  lastHandle := 2
  created := { imageViews := 2 }
  imageViews := [(⟨1⟩, ⟨1⟩), (⟨2⟩, ⟨2⟩)]

theorem steps :
    ReflTransGen (Session.Step Headless.Aside) { device := {} } ⟨forest, {}, device⟩ :=
  ((ReflTransGen.single (.operate (o := .addImage "atlas" pages .persistent) rfl)).tail
    (.operate (o := .addSwapchain "window" window) rfl)).tail
    (.operate (o := .mount "window") rfl)

end Atlas

/-- The view of the atlas ends before the atlas does, and the view of the window is whole. -/
theorem default_views_reach_atlas :
    (1 ≤ Atlas.pages.mipLevels ∧ 1 ≤ Atlas.pages.arrayLayers ∧
      ¬ Atlas.pages.IsWhole Atlas.pages.defaultView.subresourceRange) ∧
    (∃ p q, Atlas.forest.resolve "atlas" = .ok p ∧ Atlas.forest.SeenThrough "atlas" p q ∧
      q.node.imageViewDesc? = some Atlas.pages.defaultView) ∧
    ∃ p, Atlas.forest.resolve "window" = .ok p ∧ p.node.parent = some 2 ∧
      p.node.imageDesc? = some Atlas.window.imageDesc ∧
      Atlas.window.imageDesc.IsWhole Atlas.window.imageDesc.defaultView.subresourceRange := by
  obtain ⟨hdesc, hsession⟩ := default_views_reach
  refine ⟨⟨by decide, by decide, ?_⟩, ?_, ?_⟩
  · intro hwhole
    have hfew := (hdesc Atlas.pages (by decide) (by decide)).2.1 hwhole
    exact absurd hfew (by decide)
  · obtain ⟨q, hq, hview, -⟩ := hsession Atlas.steps "atlas" rfl rfl
    exact ⟨_, q, rfl, hq, hview⟩
  · obtain ⟨q, -, -, hwhole⟩ := hsession Atlas.steps "window" rfl rfl
    exact ⟨_, rfl, rfl, rfl, hwhole (by decide)⟩

/-- A view cannot count 256 layers. -/
theorem not_forall_isWhole : ¬ ∀ d : ImageDesc,
    1 ≤ d.mipLevels ∧ d.mipLevels < 2 ^ 32 → 1 ≤ d.arrayLayers ∧ d.arrayLayers < 2 ^ 32 →
      d.IsWhole d.defaultView.subresourceRange := by
  intro h
  have hwhole := h { arrayLayers := 256 } (by decide) (by decide)
  obtain ⟨-, hlayer⟩ := (hwhole 0 255).2 (by decide)
  exact absurd hlayer.2 (by decide)

end FrameGraph
