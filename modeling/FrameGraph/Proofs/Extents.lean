import FrameGraph.Proofs.Formats

/-!
# Sizes of framebuffers

A framebuffer has one size, and each of its views shows some level of its image. The size is that of
the image of the first use, as the image is at its first level, whatever the other views show and at
which levels. So a framebuffer may be larger than what it draws into: it fits exactly if the image
of the first use is no larger than any view at its level (`framebuffer_extent`).
-/

set_option autoImplicit false

namespace FrameGraph

open Relation (ReflTransGen)

namespace Extent

/-- The size of a mip level. -/
def level (e : Extent) (n : Nat) : Extent := ⟨max 1 (e.width >>> n), max 1 (e.height >>> n)⟩

/-- Whether a size is at most another. -/
def Within (e e' : Extent) : Prop := e.width ≤ e'.width ∧ e.height ≤ e'.height

instance (e e' : Extent) : Decidable (e.Within e') :=
  inferInstanceAs (Decidable (_ ∧ _))

end Extent

namespace Forest

/-- The description of the view that a name stands for. -/
def shownView? (f : Forest) (name : String) : Option ImageViewDesc :=
  (f.view name).toOption.bind (·.node.imageViewDesc?)

/-- What the view that has a handle shows of its image at the level where it begins. -/
def viewExtent? (f : Forest) (v : Handle .imageView) : Option Extent := do
  let n ← f.nodes.find? (·.payload.object? = some (.imageView v))
  let view ← n.imageViewDesc?
  let p ← n.parent.bind f.place?
  let image ← p.node.imageDesc?
  return image.extent.level view.levels.base

end Forest

/-- Whether the framebuffers of a render pass are no larger than the views in them. -/
def RenderTarget.FitsViews (t : RenderTarget Attachment) (f : Forest) : Prop :=
  ∀ renderPass, ∀ v ∈ (t.framebufferDesc renderPass).attachments, ∃ e, f.viewExtent? v = some e ∧
    (t.framebufferDesc renderPass).extent.Within e

section
variable {f : Forest} {d : Headless} {use : Use} {uses : List Use} {ts : List Timeline} {k : Nat}
  {t : RenderTarget AttachmentUse} {x : AttachmentUse}

/-- The size of a view is that of its level in the image that is used. -/
theorem Collects.viewExtent?_eq (h : Collects f uses t) (hf : f.HoldsViews d) (hs : f.Seated)
    (hx : x ∈ t.attachments) (hview : f.imageViewHandle use.resource = .ok x.view) :
    ∃ image view, f.trackedImage? use.resource = some image ∧
      f.shownView? use.resource = some view ∧
      f.viewExtent? x.view = some (image.extent.level view.levels.base) := by
  obtain ⟨q, view, origin, hq, hpayload⟩ := Forest.imageViewHandle_eq_ok_iff.1 hview
  obtain ⟨p, hp⟩ := Forest.exists_tracked hq
  obtain ⟨image, hi, -⟩ := h.image_eq hf hs hx hview
  have himage := (Forest.trackedImage?_of_tracked hp).symm.trans hi
  have hdesc : q.node.imageViewDesc? = some view := by rw [Node.imageViewDesc?, hpayload]
  have hplace : q.node.parent.bind f.place? = some p := by
    rw [Forest.parent_of_view hs hq hp]
    exact Forest.place?_eq_some_iff.2 ⟨rfl, Forest.nodes_of_tracked hp⟩
  refine ⟨image, view, hi, ?_, ?_⟩
  · rw [Forest.shownView?, hq]
    exact hdesc
  · simp only [Forest.viewExtent?, hf.find?_eq hq hpayload, Option.bind_eq_bind, Option.bind_some,
      hdesc, hplace, himage]
    rfl

/-- **The size of a render pass is that of the image of the first use.** -/
theorem Collects.extent_eq (h : Collects f uses t) (hf : f.HoldsViews d) (hs : f.Seated)
    (huse : uses.head? = some use) :
    ∃ image, f.trackedImage? use.resource = some image ∧ t.extent = image.extent := by
  obtain ⟨x, hx, hattaches⟩ := h.head use huse
  obtain ⟨u, image, hu, himage, hextent⟩ := h.extent x hx
  exact ⟨image, (hf.trackedImage?_eq hs hattaches.view hu).trans himage, hextent⟩

/-- A render pass fits exactly if it is no larger than any view that is used. -/
theorem Collects.finish_fitsViews_iff (h : Collects f uses t) (hf : f.HoldsViews d)
    (hs : f.Seated) : (t.map (AttachmentUse.finish ts k)).FitsViews f ↔
      ∀ use ∈ uses, ∀ image view, f.trackedImage? use.resource = some image →
        f.shownView? use.resource = some view →
        t.extent.Within (image.extent.level view.levels.base) := by
  have hmem {v : Handle .imageView} {renderPass : Handle .renderPass} :
      v ∈ ((t.map (AttachmentUse.finish ts k)).framebufferDesc renderPass).attachments ↔
        ∃ x ∈ t.attachments, x.view = v := by
    show v ∈ (t.map (AttachmentUse.finish ts k)).attachments.map (·.view) ↔ _
    rw [RenderTarget.map_view_finish, List.mem_map]
  constructor
  · intro hfits use huse image view himage hshown
    obtain ⟨i, ⟨x, hx, hview⟩, -⟩ := h.held use huse
    have hx := List.mem_of_getElem? hx
    obtain ⟨image', view', himage', hshown', hextent⟩ := h.viewExtent?_eq hf hs hx hview
    obtain rfl := Option.some.inj (himage.symm.trans himage')
    obtain rfl := Option.some.inj (hshown.symm.trans hshown')
    obtain ⟨e, he, hwithin⟩ := hfits ⟨0⟩ x.view (hmem.2 ⟨x, hx, rfl⟩)
    obtain rfl := Option.some.inj (hextent.symm.trans he)
    exact hwithin
  · intro hfits renderPass v hv
    obtain ⟨x, hx, rfl⟩ := hmem.1 hv
    obtain ⟨use, hfirst, hattaches⟩ := h.first x hx
    obtain ⟨image, view, himage, hshown, hextent⟩ := h.viewExtent?_eq hf hs hx hattaches.view
    exact ⟨_, hextent, hfits use hfirst.mem image view himage hshown⟩

end

/-- **A framebuffer is as large as the image of the first use.** In any session on the headless
device, a render pass of an accepted frame has the size of the first level of the image that its
first use attaches. It fits all its views exactly if it is no larger than any of them at the level
where the view begins. -/
theorem framebuffer_extent {s : Session Headless}
    (hrun : ReflTransGen (Session.Step Headless.Aside) { device := {} } s) {passes : List Pass}
    {shaders : Registry} {a : Analysis} {f' : Forest}
    (h : (analyze passes s.forest shaders).result = .ok (a, f')) {k : Nat} {pass : Pass}
    (hpass : passes[k]? = some pass) (hkind : pass.kind = .render) :
    ∃ t, a.target? k = some t ∧
      (∀ use, pass.uses.head? = some use → ∃ image,
        s.forest.trackedImage? use.resource = some image ∧ t.extent = image.extent) ∧
      (t.FitsViews s.forest ↔ ∀ use ∈ pass.uses, ∀ image view,
        s.forest.trackedImage? use.resource = some image →
        s.forest.shownView? use.resource = some view →
        t.extent.Within (image.extent.level view.levels.base)) := by
  obtain ⟨t, hcollects, ht⟩ := exists_collects h hpass hkind
  have hf := Session.holdsViews_of_steps hrun
  have hs := Session.seated_kept hrun .empty
  exact ⟨_, ht, fun use huse => hcollects.extent_eq hf hs huse,
    hcollects.finish_fitsViews_iff hf hs⟩

/-! ### A canvas and its smaller level -/

namespace Vignette

def canvas : ImageDesc :=
  { width := 4, height := 4, mipLevels := 2, format := .b8g8r8a8Unorm, usage := .colorAttachment }

/-- The second level of the canvas. -/
def half : ImageViewDesc :=
  { ImageViewDesc.twoD .b8g8r8a8Unorm .color with levels := ⟨1, 1⟩ }

def session : Session Headless where
  forest := {
    nodes := [
      { name := "canvas"
        residency := .transient
        payload := .image canvas (some ⟨1⟩) false
        life := 1 },
      { name := "canvas/canvas"
        residency := .transient
        payload := .imageView canvas.defaultView "canvas" (some ⟨2⟩)
        parent := some 0
        life := 1 },
      { name := "canvas/half"
        residency := .transient
        payload := .imageView half "canvas" (some ⟨3⟩)
        parent := some 0
        life := 1 }]
    life := 1 }
  device := {
    lastHandle := 3
    created := { images := 1, imageViews := 2 }
    images := [(⟨1⟩, "canvas")]
    imageViews := [(⟨2⟩, ⟨1⟩), (⟨3⟩, ⟨1⟩)] }

theorem steps : ReflTransGen (Session.Step Headless.Aside) { device := {} } session :=
  .tail (.tail (.tail .refl
    (.operate (o := .addImage "canvas" canvas .transient) rfl))
    (.operate (o := .addImageView "canvas/half" "canvas" half) rfl))
    (.operate (o := .mount "canvas") rfl)

def fill : Pass := ⟨"fill", .render, [.colorOutput "canvas"]⟩

def shrink : Pass := ⟨"shrink", .render, [.colorOutput "canvas/half"]⟩

end Vignette

theorem framebuffer_extent_vignette :
    ReflTransGen (Session.Step Headless.Aside) { device := {} } Vignette.session ∧
    ∃ a f' t, (analyze [Vignette.fill] Vignette.session.forest {}).result = .ok (a, f') ∧
      a.target? 0 = some t ∧ t.extent = ⟨4, 4⟩ ∧ t.FitsViews Vignette.session.forest := by
  have h : (analyze [Vignette.fill] Vignette.session.forest {}).result = .ok (_, _) := rfl
  obtain ⟨t, ht, hextent, hfits⟩ := framebuffer_extent Vignette.steps h (k := 0) rfl rfl
  obtain ⟨image, himage, hsize⟩ := hextent (.colorOutput "canvas") rfl
  obtain rfl : Vignette.canvas = image := Option.some.inj himage
  refine ⟨Vignette.steps, _, _, t, h, ht, hsize, hfits.2 fun use huse image view himage hview => ?_⟩
  obtain rfl := List.mem_singleton.1 huse
  obtain rfl : Vignette.canvas = image := Option.some.inj himage
  obtain rfl : Vignette.canvas.defaultView = view := Option.some.inj hview
  rw [hsize]
  decide

/-- Only the second level of the canvas is drawn to, with a framebuffer of the size of the first. -/
theorem not_forall_fitsViews : ¬ ∀ (s : Session Headless) (passes : List Pass)
    (shaders : Registry) (a : Analysis) (f' : Forest) (k : Nat) (t : RenderTarget Attachment),
    ReflTransGen (Session.Step Headless.Aside) { device := {} } s →
    (analyze passes s.forest shaders).result = .ok (a, f') → a.target? k = some t →
    t.FitsViews s.forest := by
  intro h
  have hanalyze : (analyze [Vignette.shrink] Vignette.session.forest {}).result = .ok (_, _) := rfl
  obtain ⟨e, he, hwithin⟩ :=
    h _ _ _ _ _ 0 _ Vignette.steps hanalyze rfl ⟨0⟩ ⟨3⟩ List.mem_cons_self
  obtain rfl : (⟨2, 2⟩ : Extent) = e := Option.some.inj he
  revert hwithin
  decide

end FrameGraph
