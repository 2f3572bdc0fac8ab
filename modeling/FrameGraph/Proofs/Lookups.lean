import FrameGraph.Proofs.Swapchains
import FrameGraph.Proofs.Views

/-!
# Lookups

A name is looked up for an object and for a view of one, in different ways: the object is that of
the node on which the accesses under the name are recorded, and the view is searched by name below
it. Both go through the image that was acquired if the name is that of a swapchain. They agree in
every run (`lookups_agree`): the device has the view as one of the object and of nothing else.
-/

set_option autoImplicit false

namespace FrameGraph

/-- Whether the lookups in a world agree with each other, with the device and with the history. -/
structure World.Agrees (w : World) (os : List Operation) : Prop where
  image : ∀ name v h, w.forest.imageViewHandle name = .ok v → w.forest.imageHandle name = .ok h →
    (v, h) ∈ w.device.imageViews ∧ ∀ h', (v, h') ∈ w.device.imageViews → h' = h
  buffer : ∀ name v b, w.forest.bufferViewHandle name = .ok v →
    w.forest.bufferHandle name = .ok b →
      (v, b) ∈ w.device.bufferViews ∧ ∀ b', (v, b') ∈ w.device.bufferViews → b' = b
  /-- A swapchain that was mounted stands for the image acquired last. -/
  swapchain : ∀ name p source acquired, w.forest.find name = .ok p →
    p.node.payload = .swapchain source acquired → .mount name ∈ os →
      ∃ q image, (w.forest.children p.index)[lastAcquired name os]? = some q.index ∧
        source.images[lastAcquired name os]? = some image ∧ w.forest.resolve name = .ok q ∧
        q.node.name = shownName name (lastAcquired name os) ∧
        q.node.payload = .image source.imageDesc (some image) true
  /-- An image is seen through its default view, and so is a swapchain that was mounted. -/
  view : ∀ name p, w.forest.find name = .ok p →
    p.node.kind = .image ∨ p.node.kind = .swapchain ∧ .mount name ∈ os →
      ∃ q v, w.forest.resolve name = .ok q ∧ q.node.kind = .image ∧ w.forest.view name = .ok v ∧
        Forest.IsDefaultView v.node q.node q.index

namespace Forest

variable {f : Forest} {name : String}

theorem bufferViewHandle_ok {v : Handle .bufferView} (h : f.bufferViewHandle name = .ok v) :
    ∃ q desc origin, f.resolve name = .ok q ∧
      q.node.payload = .bufferView desc origin (some v) := by
  obtain ⟨q, hq, h⟩ := Except.bind_eq_ok_iff.1 h
  split at h
  · next desc origin handle hp =>
    cases handle with
    | none => cases h
    | some w =>
      obtain rfl := Except.ok.inj h
      exact ⟨q, desc, origin, hq, hp⟩
  · cases h

theorem imageHandle_ok {x : Handle .image} (h : f.imageHandle name = .ok x) :
    ∃ p desc external, f.tracked name = .ok p ∧ p.node.payload = .image desc (some x) external := by
  obtain ⟨p, hp, h⟩ := Except.bind_eq_ok_iff.1 h
  split at h
  · next desc handle external hpayload =>
    cases handle with
    | none => cases h
    | some y =>
      obtain rfl := Except.ok.inj h
      exact ⟨p, desc, external, hp, hpayload⟩
  · cases h

theorem bufferHandle_ok {b : Handle .buffer} (h : f.bufferHandle name = .ok b) :
    ∃ p desc, f.tracked name = .ok p ∧ p.node.payload = .buffer desc (some b) := by
  obtain ⟨p, hp, h⟩ := Except.bind_eq_ok_iff.1 h
  split at h
  · next desc handle hpayload =>
    cases handle with
    | none => cases h
    | some y =>
      obtain rfl := Except.ok.inj h
      exact ⟨p, desc, hp, hpayload⟩
  · cases h

/-- **A swapchain that was mounted stands for the image acquired last.** -/
theorem Follows.resolve_swapchain {os : List Operation} {p : Place} {source : SwapchainImport}
    {acquired : Nat} (hf : f.Follows os) (hp : f.find name = .ok p)
    (hpayload : p.node.payload = .swapchain source acquired) (hmount : .mount name ∈ os) :
    ∃ q image, (f.children p.index)[lastAcquired name os]? = some q.index ∧
      source.images[lastAcquired name os]? = some image ∧ f.resolve name = .ok q ∧
      q.node.name = shownName name (lastAcquired name os) ∧
      q.node.payload = .image source.imageDesc (some image) true := by
  obtain ⟨hn, hname⟩ := nodes_of_find hp
  have hpresents := hf.presents p.index p.node source acquired hn hpayload
  rw [hname] at hpresents
  have hunfolded : f.Unfolded p.index name source :=
    hpresents.images.resolve_right fun hnever => hnever.2 hmount
  have hlast : acquired = lastAcquired name os := hpresents.last
  have hinside := hpresents.inside
  subst hlast
  have himage := List.getElem?_eq_getElem hinside
  have hj := List.getElem?_eq_getElem (hunfolded.length.symm ▸ hinside)
  obtain ⟨m, hm, hmname, hmpayload⟩ := hunfolded.child _ _ _ hj himage
  refine ⟨⟨_, m⟩, _, hj, himage, ?_, hmname, hmpayload⟩
  refine resolve_of_acquired hp hpayload ?_
  rw [hj]
  exact place?_eq_some_iff.2 ⟨rfl, hm⟩

theorem Furnished.exists_view {q : Place} (hf : f.Furnished) (hwf : f.WellFormed)
    (hq : f.resolve name = .ok q) (hkind : q.node.kind = .image) :
    ∃ v, f.view name = .ok v ∧ IsDefaultView v.node q.node q.index := by
  obtain ⟨j, v, hv, hview⟩ := hf q.index q.node (nodes_of_resolve hq) hkind
  exact ⟨⟨j, v⟩, view_of_default hwf hq hkind hv hview.parent hview.name, hview⟩

end Forest

namespace Ledger

variable {f : Forest} {d : Headless} {spare : List (Handle .image)} {name : String}

/-- **The view of a name shows the object of the name**, on the device too, and nothing else. -/
theorem shows_tracked (hl : Ledger f d spare) (hs : f.Seated) {q p : Place} {v x : Object}
    (hq : f.view name = .ok q) (hp : f.tracked name = .ok p)
    (hv : q.node.payload.object? = some v) (hview : v.isView = true)
    (hx : p.node.payload.object? = some x) :
    (v, x) ∈ d.views ∧ ∀ y, (v, y) ∈ d.views → y = x := by
  have hqn := Forest.nodes_of_view hq
  have hparent := Forest.parent_of_view hs hq hp
  have hchild : q.index ∈ f.children p.index := Forest.mem_children_iff.2 ⟨q.node, hqn, hparent⟩
  have hmem : (v, x) ∈ d.views := by
    refine hl.mem_views_iff.2 ⟨hview, q.index, p.index, ⟨q.node, hqn, hv⟩, hchild, ?_⟩
    exact ⟨p.node, Forest.nodes_of_tracked hp, hx⟩
  exact ⟨hmem, fun y hy => hl.books.view_unique hy hmem⟩

theorem imageViewHandle_shows (hl : Ledger f d spare) (hs : f.Seated) {v : Handle .imageView}
    {x : Handle .image} (hv : f.imageViewHandle name = .ok v) (hx : f.imageHandle name = .ok x) :
    (v, x) ∈ d.imageViews ∧ ∀ y, (v, y) ∈ d.imageViews → y = x := by
  obtain ⟨q, desc, origin, hq, hqp⟩ := Forest.imageViewHandle_eq_ok_iff.1 hv
  obtain ⟨p, desc', external, hp, hpp⟩ := Forest.imageHandle_ok hx
  obtain ⟨hmem, honly⟩ := hl.shows_tracked hs hq hp (v := .imageView v) (x := .image x)
    (by rw [hqp]; rfl) rfl (by rw [hpp]; rfl)
  refine ⟨Headless.mem_views_image.1 hmem, fun y hy => ?_⟩
  have hsame := honly _ (Headless.mem_views_image.2 hy)
  cases hsame
  rfl

theorem bufferViewHandle_shows (hl : Ledger f d spare) (hs : f.Seated) {v : Handle .bufferView}
    {b : Handle .buffer} (hv : f.bufferViewHandle name = .ok v)
    (hb : f.bufferHandle name = .ok b) :
    (v, b) ∈ d.bufferViews ∧ ∀ c, (v, c) ∈ d.bufferViews → c = b := by
  obtain ⟨q, desc, origin, hq, hqp⟩ := Forest.bufferViewHandle_ok hv
  obtain ⟨p, desc', hp, hpp⟩ := Forest.bufferHandle_ok hb
  have hview : f.view name = .ok q := by
    refine Except.bind_eq_ok_iff.2 ⟨q, hq, ?_⟩
    rw [Node.kind, hqp]
    rfl
  obtain ⟨hmem, honly⟩ := hl.shows_tracked hs hview hp (v := .bufferView v) (x := .buffer b)
    (by rw [hqp]; rfl) rfl (by rw [hpp]; rfl)
  refine ⟨Headless.mem_views_buffer.1 hmem, fun c hc => ?_⟩
  have hsame := honly _ (Headless.mem_views_buffer.2 hc)
  cases hsame
  rfl

end Ledger

/-- **Lookups agree in every run**, with the device, and with the history of the run. -/
theorem lookups_agree {reuse : Bool} {os : List Operation} {w : World} (h : World.Ran reuse os w) :
    w.Agrees os := by
  have hintact := (World.Intact.empty.run h.run).1
  have hs := h.reached.related.seated
  have hfollows := h.reached.follows
  refine ⟨fun name v x => ?_, fun name v b => ?_, fun name p source acquired => ?_,
    fun name p hp hkind => ?_⟩
  · exact hintact.ledger.imageViewHandle_shows hs
  · exact hintact.ledger.bufferViewHandle_shows hs
  · exact hfollows.resolve_swapchain
  · have hresolve : ∃ q, w.forest.resolve name = .ok q ∧ q.node.kind = .image := by
      rcases hkind with hkind | ⟨hkind, hmount⟩
      · exact ⟨p, Forest.resolve_of_find hp (by simp [hkind]), hkind⟩
      · cases hpayload : p.node.payload with
        | swapchain source acquired =>
          obtain ⟨q, image, -, -, hq, -, himage⟩ :=
            hfollows.resolve_swapchain hp hpayload hmount
          exact ⟨q, hq, by rw [Node.kind, himage]; rfl⟩
        | _ =>
          rw [Node.kind, hpayload] at hkind
          cases hkind
    obtain ⟨q, hq, himage⟩ := hresolve
    obtain ⟨v, hv, hview⟩ := h.reached.furnished.exists_view hintact.wellFormed hq himage
    exact ⟨q, v, hq, himage, hv, hview⟩

/-! ### A window that is mounted twice -/

namespace Atelier

def window : SwapchainImport := ⟨[⟨1⟩, ⟨2⟩], .b8g8r8a8Unorm, ⟨4, 4⟩⟩

/-- The second image is acquired before the window has any. -/
def history : List Operation := [
  .addSwapchain "window" window,
  .acquire "window" 1,
  .addBuffer "paint" (.uniform 16) .persistent,
  .addBufferView "paint/raw" "paint" (.whole .r8g8b8a8Unorm),
  .mount "window",
  .unmount "window" 2,
  .mount "window/1",
  .mount "paint/raw"]

def forest : Forest where
  nodes := [
    { name := "window", residency := .swapchain, payload := .swapchain window 1, life := 2 },
    { name := "paint"
      residency := .persistent
      payload := .buffer (.uniform 16) (some ⟨7⟩)
      life := 3 },
    { name := "paint/raw"
      residency := .persistent
      payload := .bufferView (.whole .r8g8b8a8Unorm) "paint" (some ⟨8⟩)
      parent := some 1
      life := 3 },
    { name := "window/0"
      residency := .swapchain
      payload := .image window.imageDesc (some ⟨1⟩) true
      parent := some 0
      life := 2 },
    { name := "window/0/window/0"
      residency := .swapchain
      payload := .imageView window.imageDesc.defaultView "window/0" (some ⟨5⟩)
      parent := some 3
      life := 2 },
    { name := "window/1"
      residency := .swapchain
      payload := .image window.imageDesc (some ⟨2⟩) true
      parent := some 0
      life := 2 },
    { name := "window/1/window/1"
      residency := .swapchain
      payload := .imageView window.imageDesc.defaultView "window/1" (some ⟨6⟩)
      parent := some 5
      life := 2 }]
  life := 3

def device : Headless where
  lastHandle := 8
  created := { buffers := 1, bufferViews := 1, imageViews := 4 }
  buffers := [(⟨7⟩, "paint")]
  bufferViews := [(⟨8⟩, ⟨7⟩)]
  imageViews := [(⟨5⟩, ⟨1⟩), (⟨6⟩, ⟨2⟩)]
  destroyed := [.imageView ⟨4⟩, .imageView ⟨3⟩]

theorem ran : World.Ran false history ⟨forest, device, []⟩ :=
  .operate (.operate (.operate (.operate (.operate (.operate (.operate (.operate
    (.mint (.mint .start)) (by decide) (by decide) rfl) (by decide) (by decide) rfl) (by decide) (by decide) rfl)
    (by decide) (by decide) rfl) (by decide) (by decide) rfl) (by decide) (by decide) rfl)
    (by decide) (by decide) rfl) (by decide) (by decide) rfl

end Atelier

/-- The window stands for its second image, through the view that the second mount made. -/
theorem lookups_agree_atelier :
    World.Ran false Atelier.history ⟨Atelier.forest, Atelier.device, []⟩ ∧
    Atelier.forest.imageViewHandle "window" = .ok ⟨6⟩ ∧
    Atelier.forest.imageHandle "window" = .ok ⟨2⟩ ∧ (⟨6⟩, ⟨2⟩) ∈ Atelier.device.imageViews ∧
    Atelier.forest.bufferViewHandle "paint/raw" = .ok ⟨8⟩ ∧
    Atelier.forest.bufferHandle "paint/raw" = .ok ⟨7⟩ ∧ (⟨8⟩, ⟨7⟩) ∈ Atelier.device.bufferViews ∧
    ∃ q, Atelier.forest.resolve "window" = .ok q ∧ q.node.name = shownName "window" 1 := by
  have hall := lookups_agree Atelier.ran
  obtain ⟨hwindow, -⟩ := hall.image "window" ⟨6⟩ ⟨2⟩ rfl rfl
  obtain ⟨hpaint, -⟩ := hall.buffer "paint/raw" ⟨8⟩ ⟨7⟩ rfl rfl
  obtain ⟨q, image, -, -, hq, hname, -⟩ :=
    hall.swapchain "window" _ Atelier.window 1 rfl rfl (by simp [Atelier.history])
  exact ⟨Atelier.ran, rfl, rfl, hwindow, rfl, rfl, hpaint, q, hq, hname⟩

end FrameGraph
