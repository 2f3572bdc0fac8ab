import FrameGraph.Proofs.Swapchains

/-!
# No object is lost

At every point of a run the nodes account for all objects of the device: each buffer and image is
held by one node, each view by a node below the one that it shows, and what was made is alive or was
destroyed once (`balanced`).

Images made elsewhere are not the forest's. Swapchains that were imported with one and the same
image have a child each that holds it (`not_forall_holdsApart`), and nothing else is held twice
(`World.Balanced.owner`). So all handles are held apart as long as no image is imported twice.
-/

set_option autoImplicit false

namespace FrameGraph

open Relation (ReflTransGen)

/-- The images that a node, as a swapchain, was imported with. -/
def Node.imported (n : Node) : List (Handle .image) :=
  match n.payload with
  | .swapchain source _ => source.images
  | _ => []

namespace Forest

/-- The images made elsewhere that the swapchains were imported with. -/
def imported (f : Forest) : List (Handle .image) := f.nodes.flatMap Node.imported

/-- Whether a node is a swapchain's child for an image that the swapchain was imported with. -/
def Borrows (f : Forest) (i : Nat) (image : Handle .image) : Prop :=
  ∃ s k source, f.ShowsAt s k i source image

/-- Whether no handle is held by two nodes. -/
def HoldsApart (f : Forest) : Prop :=
  ∀ i j x y, f.Has i x → f.Has j y → x.id = y.id → i = j

end Forest

/-- Whether the nodes account for all objects of the device. -/
structure World.Balanced (w : World) : Prop where
  buffers : ∀ b, b ∈ w.device.buffers.map (·.1) ↔ ∃ i, w.forest.Has i (.buffer b)
  /-- Images made elsewhere are not the forest's. -/
  images : ∀ h, h ∈ w.device.images.map (·.1) ↔ ∃ i, w.forest.Owns i (.image h)
  bufferViews : ∀ v b, (v, b) ∈ w.device.bufferViews ↔
    ∃ i j, w.forest.Has i (.bufferView v) ∧ i ∈ w.forest.children j ∧ w.forest.Has j (.buffer b)
  imageViews : ∀ v h, (v, h) ∈ w.device.imageViews ↔
    ∃ i j, w.forest.Has i (.imageView v) ∧ i ∈ w.forest.children j ∧ w.forest.Has j (.image h)
  /-- No handle is held by two nodes but that of an image that swapchains were imported with. -/
  owner : ∀ i j x y, w.forest.Has i x → w.forest.Has j y → x.id = y.id → i = j ∨
    ∃ image, x = .image image ∧ y = .image image ∧ w.forest.Borrows i image ∧
      w.forest.Borrows j image
  parent : ∀ (i : Nat) n, w.forest.nodes[i]? = some n → n.payload.origin?.isSome →
    n.isBacked = true →
    ∃ (j : Nat) (m : Node), n.parent = some j ∧ w.forest.nodes[j]? = some m ∧ m.isBacked = true
  /-- No object is destroyed twice, and none is alive that was destroyed. -/
  distinct : (w.device.made.map (·.id)).Nodup
  createdBuffers : w.device.created.buffers =
    w.device.buffers.length + w.device.destroyed.countP (·.kind == .buffer)
  createdBufferViews : w.device.created.bufferViews =
    w.device.bufferViews.length + w.device.destroyed.countP (·.kind == .bufferView)
  createdImages : w.device.created.images =
    w.device.images.length + w.device.destroyed.countP (·.kind == .image)
  createdImageViews : w.device.created.imageViews =
    w.device.imageViews.length + w.device.destroyed.countP (·.kind == .imageView)

variable {reuse : Bool} {w : World}

/-! ## Reading the device -/

namespace Headless

variable {d d' : Headless}

theorem mem_alive_buffer {b : Handle .buffer} : .buffer b ∈ d.alive ↔ b ∈ d.buffers.map (·.1) := by
  simp [alive]

theorem mem_alive_image {h : Handle .image} : .image h ∈ d.alive ↔ h ∈ d.living := by
  simp [alive, living]

theorem countP_alive (d : Headless) :
    d.alive.countP (·.kind == .buffer) = d.buffers.length ∧
    d.alive.countP (·.kind == .bufferView) = d.bufferViews.length ∧
    d.alive.countP (·.kind == .image) = d.images.length ∧
    d.alive.countP (·.kind == .imageView) = d.imageViews.length := by
  simp [alive, List.countP_map, Function.comp_def, Destroyed.kind, beq_eq_decide]

end Headless

/-! ## Objects of nodes -/

namespace Node

variable {n : Node}

/-- A view that is mounted has a view's object. -/
theorem exists_view_of_isBacked (horigin : n.payload.origin?.isSome) (hbacked : n.isBacked = true) :
    ∃ v, n.payload.object? = some v ∧ v.isView = true := by
  unfold isBacked at hbacked
  cases hp : n.payload with
  | bufferView desc origin handle =>
    rw [hp] at hbacked
    obtain ⟨v, rfl⟩ := Option.isSome_iff_exists.1 hbacked
    exact ⟨.bufferView v, rfl, rfl⟩
  | imageView desc origin handle =>
    rw [hp] at hbacked
    obtain ⟨v, rfl⟩ := Option.isSome_iff_exists.1 hbacked
    exact ⟨.imageView v, rfl, rfl⟩
  | buffer desc handle => simp [hp, Payload.origin?] at horigin
  | image desc handle external => simp [hp, Payload.origin?] at horigin
  | swapchain source acquired => simp [hp, Payload.origin?] at horigin

theorem isBacked_of_object {x : Object} (h : n.payload.object? = some x) : n.isBacked = true := by
  unfold isBacked
  cases hp : n.payload with
  | swapchain source acquired => rfl
  | _ =>
    rw [hp] at h
    obtain ⟨a, rfl, -⟩ := Option.map_eq_some_iff.1 h
    rfl

end Node

/-! ## Images made elsewhere -/

/-- In a list without repetition each member stands in one place of one of the lists that it was
put together from. -/
theorem place_unique_of_nodup {α β : Type} {g : α → List β} {l : List α} (h : (l.flatMap g).Nodup)
    {i j k m : Nat} {a b : α} {x : β} (hi : l[i]? = some a) (hj : l[j]? = some b)
    (hk : (g a)[k]? = some x) (hm : (g b)[m]? = some x) : i = j ∧ k = m := by
  obtain ⟨hnodup, hdisjoint⟩ := List.nodup_flatMap.1 h
  have hother {i j : Nat} {a b : α} (hi : l[i]? = some a) (hj : l[j]? = some b) (ha : x ∈ g a)
      (hb : x ∈ g b) : ¬ i < j := by
    intro hlt
    obtain ⟨hi', rfl⟩ := List.getElem?_eq_some_iff.1 hi
    obtain ⟨hj', rfl⟩ := List.getElem?_eq_some_iff.1 hj
    exact List.pairwise_iff_getElem.1 hdisjoint i j hi' hj' hlt ha hb
  have ha := List.mem_of_getElem? hk
  have hb := List.mem_of_getElem? hm
  obtain rfl : i = j :=
    Nat.le_antisymm (Nat.not_lt.1 (hother hj hi hb ha)) (Nat.not_lt.1 (hother hi hj ha hb))
  obtain rfl := Option.some.inj (hi.symm.trans hj)
  obtain ⟨hk', rfl⟩ := List.getElem?_eq_some_iff.1 hk
  refine ⟨rfl, ?_⟩
  exact (List.getElem?_inj hk' (hnodup a (List.mem_of_getElem? hi))).1 (hk.trans hm.symm)

namespace Forest

variable {f : Forest} {i j : Nat} {image : Handle .image}

theorem Has.borrows {os : List Operation} (hf : f.Follows os) (hrelated : f.Related)
    (hx : f.Has i (.image image)) (hexternal : f.At i (·.payload.isExternal = true)) :
    f.Borrows i image := by
  obtain ⟨n, hn, hobject⟩ := hx
  obtain ⟨m, hm, hm'⟩ := hexternal
  obtain rfl := Option.some.inj (hn.symm.trans hm)
  obtain ⟨s, k, source, image', hshows, hp⟩ := hf.exists_showsAt hrelated hn hm'
  rw [hp] at hobject
  cases hobject
  exact ⟨s, k, source, hshows⟩

/-- An image that was imported once has one node. -/
theorem Borrows.unique (h : f.imported.Nodup) (hi : f.Borrows i image) (hj : f.Borrows j image) :
    i = j := by
  obtain ⟨s, k, source, ⟨n, acquired, hn, hp⟩, hchild, himage⟩ := hi
  obtain ⟨t, m, source', ⟨n', acquired', hn', hp'⟩, hchild', himage'⟩ := hj
  obtain ⟨rfl, rfl⟩ := place_unique_of_nodup h hn hn' (k := k) (m := m) (x := image)
    (by rw [Node.imported, hp]; exact himage) (by rw [Node.imported, hp']; exact himage')
  exact Option.some.inj (hchild.symm.trans hchild')

end Forest

/-- Without images that were imported twice, no handle is held by two nodes. -/
theorem World.Balanced.holdsApart (hw : w.Balanced) (h : w.forest.imported.Nodup) :
    w.forest.HoldsApart := by
  intro i j x y hi hj hid
  rcases hw.owner i j x y hi hj hid with heq | ⟨image, -, -, hi, hj⟩
  · exact heq
  · exact hi.unique h hj

/-! ## The balance of a run -/

/-- **Every run is balanced**, also one that imports an image more than once. -/
theorem World.balanced_of_run (hr : ReflTransGen (World.Step reuse) {} w) : w.Balanced := by
  have hl := (World.Intact.empty.run hr).1.ledger
  obtain ⟨os, hran⟩ := World.exists_ran hr
  obtain ⟨hbuffers, hbufferViews, himages, himageViews⟩ := w.device.countP_alive
  have hcount (k : ObjectKind) : w.device.created.count k =
      w.device.alive.countP (·.kind == k) + w.device.destroyed.countP (·.kind == k) := by
    rw [hl.books.created, Headless.made, List.countP_append]
  refine ⟨fun b => ?_, fun h => ?_, fun v b => ?_, fun v h => ?_, fun i j x y hi hj hid => ?_,
    fun i n hn horigin hbacked => ?_, hl.books.nodup, ?_, ?_, ?_, ?_⟩
  · rw [← Headless.mem_alive_buffer, hl.alive]
    exact exists_congr fun i => Forest.owns_buffer_iff
  · exact Headless.mem_alive_image.symm.trans (hl.alive _)
  · rw [← Headless.mem_views_buffer, hl.mem_views_iff]
    exact and_iff_right rfl
  · rw [← Headless.mem_views_image, hl.mem_views_iff]
    exact and_iff_right rfl
  · have hf := hran.reached.follows
    have hrelated := hran.reached.related
    rcases hl.owner_of_id hi hj hid with heq | ⟨image, rfl, rfl, hi', hj'⟩
    · exact .inl heq
    · exact .inr ⟨image, rfl, rfl, hi.borrows hf hrelated hi', hj.borrows hf hrelated hj'⟩
  · obtain ⟨v, hv, hview⟩ := Node.exists_view_of_isBacked horigin hbacked
    obtain ⟨j, y, hj, ⟨m, hm, hy⟩, -⟩ := hl.shows i v ⟨n, hn, hv⟩ hview
    obtain ⟨n', hn', hparent⟩ := Forest.mem_children_iff.1 hj
    rw [hn] at hn'
    obtain rfl := Option.some.inj hn'
    exact ⟨j, m, hparent, hm, Node.isBacked_of_object hy⟩
  · exact (hcount .buffer).trans (congrArg (· + _) hbuffers)
  · exact (hcount .bufferView).trans (congrArg (· + _) hbufferViews)
  · exact (hcount .image).trans (congrArg (· + _) himages)
  · exact (hcount .imageView).trans (congrArg (· + _) himageViews)

/-- **No object is lost and none is destroyed twice.** At every point of every run the nodes
account for all objects of the device, and no handle is held by two nodes if no image made elsewhere
was imported twice. -/
theorem balanced (hr : ReflTransGen (World.Step reuse) {} w) :
    w.Balanced ∧ (w.forest.imported.Nodup → w.forest.HoldsApart) :=
  have hw := World.balanced_of_run hr
  ⟨hw, hw.holdsApart⟩

/-! ### A window, a buffer that comes and goes, and one that cannot be made -/

namespace Lamps

def window : SwapchainImport := ⟨[⟨1⟩], .b8g8r8a8Unorm, ⟨4, 4⟩⟩

def graph : PassGraph := ⟨[⟨"clear", .render, [.colorOutput "window"]⟩], 0⟩

/-- The window in some state, the buffer after its release, and the buffer of no size. -/
def forest (shown : AccessState) : Forest where
  nodes := [
    { name := "window", residency := .swapchain, payload := .swapchain window 0, life := 1 },
    { name := "window/0"
      residency := .swapchain
      payload := .image window.imageDesc (some ⟨1⟩) true
      parent := some 0
      life := 1
      current := shown },
    { name := "window/0/window/0"
      residency := .swapchain
      payload := .imageView window.imageDesc.defaultView "window/0" (some ⟨2⟩)
      parent := some 1
      life := 1 },
    { name := "lamps", residency := .persistent, payload := .buffer (.uniform 64) none, life := 2 },
    { name := "lamps/all"
      residency := .persistent
      payload := .bufferView (.whole .r32Uint) "lamps" none
      parent := some 3
      life := 2 },
    { name := "shades", residency := .transient, payload := .buffer .empty none, life := 3 }]
  life := 3

def device : Headless where
  lastHandle := 4
  created := { buffers := 1, bufferViews := 1, imageViews := 1 }
  imageViews := [(⟨2⟩, ⟨1⟩)]
  destroyed := [.bufferView ⟨4⟩, .buffer ⟨3⟩]

/-- The mount of the buffer without a size fails. -/
theorem steps : ReflTransGen (World.Step false) {} ⟨forest .undefined, device, []⟩ :=
  .tail (.tail (.tail (.tail (.tail (.tail (.tail (.tail (.tail .refl (.mint _))
    (.operate (o := .addSwapchain "window" window) (by decide) (fun _ => by decide) rfl))
    (.operate (o := .mount "window") (by decide) (fun _ => by decide) rfl))
    (.operate (o := .addBuffer "lamps" (.uniform 64) .persistent) (by decide)
      (fun _ => by decide) rfl))
    (.operate (o := .addBufferView "lamps/all" "lamps" (.whole .r32Uint)) (by decide)
      (fun _ => by decide) rfl))
    (.operate (o := .mount "lamps") (by decide) (fun _ => by decide) rfl))
    (.operate (o := .addBuffer "shades" .empty .transient) (by decide) (fun _ => by decide) rfl))
    (.operate (o := .mount "shades") (by decide) (fun _ => by decide) rfl))
    (.operate (o := .unmount "lamps" 3) (by decide) (fun _ => by decide) rfl)

/-- The plan takes a render pass and a framebuffer from the device. -/
def compiled : World where
  forest := forest .present
  device := { device with
    lastHandle := 6
    created := { device.created with renderPasses := 1, framebuffers := 1 } }

theorem compile_eq : ∃ r cache, (compileFrame graph (forest .undefined) {} {} device).result =
    .ok (r, compiled.forest, cache, compiled.device) := ⟨_, _, rfl⟩

theorem step_compiled : World.Step false ⟨forest .undefined, device, []⟩ compiled := by
  obtain ⟨r, cache, h⟩ := compile_eq
  exact .compile h

end Lamps

theorem balanced_lamps : ReflTransGen (World.Step false) {} Lamps.compiled ∧
    Lamps.compiled.Balanced ∧ Lamps.compiled.forest.imported = [⟨1⟩] ∧
    Lamps.compiled.forest.HoldsApart := by
  have hr := Lamps.steps.tail Lamps.step_compiled
  obtain ⟨hbalanced, hholds⟩ := balanced hr
  exact ⟨hr, hbalanced, rfl, hholds (by decide)⟩

/-! ### A window and its mirror image -/

namespace Mirror

def window : SwapchainImport := ⟨[⟨1⟩], .b8g8r8a8Unorm, ⟨4, 4⟩⟩

/-- Two swapchains were imported with one image. -/
def forest : Forest where
  nodes := [
    { name := "window", residency := .swapchain, payload := .swapchain window 0, life := 1 },
    { name := "mirror", residency := .swapchain, payload := .swapchain window 0, life := 2 },
    { name := "window/0"
      residency := .swapchain
      payload := .image window.imageDesc (some ⟨1⟩) true
      parent := some 0
      life := 1 },
    { name := "window/0/window/0"
      residency := .swapchain
      payload := .imageView window.imageDesc.defaultView "window/0" (some ⟨2⟩)
      parent := some 2
      life := 1 },
    { name := "mirror/0"
      residency := .swapchain
      payload := .image window.imageDesc (some ⟨1⟩) true
      parent := some 1
      life := 2 },
    { name := "mirror/0/mirror/0"
      residency := .swapchain
      payload := .imageView window.imageDesc.defaultView "mirror/0" (some ⟨3⟩)
      parent := some 4
      life := 2 }]
  life := 2

def device : Headless where
  lastHandle := 3
  created := { imageViews := 2 }
  imageViews := [(⟨2⟩, ⟨1⟩), (⟨3⟩, ⟨1⟩)]

theorem steps : ReflTransGen (World.Step true) {} ⟨forest, device, [⟨1⟩]⟩ :=
  .tail (.tail (.tail (.tail (.tail .refl (.mint _))
    (.operate (o := .addSwapchain "window" window) (by decide) (by decide) rfl))
    (.operate (o := .addSwapchain "mirror" window) (by decide) (by decide) rfl))
    (.operate (o := .mount "window") (by decide) (by decide) rfl))
    (.operate (o := .mount "mirror") (by decide) (by decide) rfl)

end Mirror

/-- An image that was imported twice is held by two nodes. -/
theorem not_forall_holdsApart : ¬ ∀ w : World, ReflTransGen (World.Step true) {} w →
    w.forest.HoldsApart := by
  intro h
  have heq : 2 = 4 := h _ Mirror.steps 2 4 (.image ⟨1⟩) (.image ⟨1⟩)
    ⟨_, rfl, rfl⟩ ⟨_, rfl, rfl⟩ rfl
  exact absurd heq (by decide)

end FrameGraph
