import FrameGraph.Proofs.CarriedStates
import FrameGraph.Proofs.References
import FrameGraph.Proofs.Views

/-!
# Descriptions of render passes

What an accepted render pass is described by fits together (`RenderTarget.WellDescribed`): its
framebuffer has the view of each attachment once and in their order, and its subpass refers to
attachments that it has, in the layouts that they are in. A depth attachment has a depth or stencil
format even where an earlier use of another kind made it, because the view tells the image
(`Forest.HoldsViews.place_unique`).
-/

set_option autoImplicit false

namespace FrameGraph

open Relation (ReflTransGen)

/-- Whether the descriptions of a render pass and its framebuffer fit each other and the uses that
they come from. -/
structure RenderTarget.WellDescribed (t : RenderTarget Attachment) (f : Forest) (uses : List Use) :
    Prop where
  /-- A use has one attachment, which has the view that its name stands for. -/
  one : ∀ use ∈ uses, ∃ v, f.imageViewHandle use.resource = .ok v ∧
    t.attachments.countP (·.view == v) = 1
  /-- The framebuffer has the views of the attachments in their order. -/
  views : ∀ renderPass, (t.framebufferDesc renderPass).attachments = t.attachments.map (·.view)
  nodup : ∀ renderPass, (t.framebufferDesc renderPass).attachments.Nodup
  /-- A reference is to an attachment, in the layout that it is in during and after the pass. -/
  refs : ∀ subpass ∈ t.renderPassDesc.subpasses, ∀ slot, ∀ r ∈ subpass.refs slot, ∃ x d,
    t.attachments[r.attachment]? = some x ∧ t.renderPassDesc.attachments[r.attachment]? = some d ∧
      r.layout = x.layout ∧ r.layout = d.finalLayout ∧ r.layout ≠ .undefined
  /-- No slot refers to an attachment twice. -/
  once : ∀ subpass ∈ t.renderPassDesc.subpasses, ∀ slot,
    ((subpass.refs slot).map (·.attachment)).Nodup
  depth : ∀ subpass ∈ t.renderPassDesc.subpasses, ∀ r ∈ subpass.depthStencil, ∃ d,
    t.renderPassDesc.attachments[r.attachment]? = some d ∧ d.format.isDepthOrStencil = true

/-! ## Layouts -/

section
variable {f f' : Forest} {shaders : Registry} {passes : List Pass} {a : Analysis}

/-- An attachment is in one layout during and after its pass. -/
theorem layout_of_attachment (h : (analyze passes f shaders).result = .ok (a, f'))
    {target : RenderTarget Attachment} {x : Attachment} (htarget : target ∈ a.targets)
    (hx : x ∈ target.attachments) : x.finalLayout = x.layout ∧ x.layout ≠ .undefined := by
  obtain ⟨t, ht, -, hkind, e, he, -, hlayout, hfinal, -⟩ :=
    exists_entry_of_attachment h htarget hx
  refine ⟨hfinal.trans hlayout.symm, ?_⟩
  obtain ⟨uses, huses, rfl, -⟩ := analyze_ok_iff.1 h
  obtain ⟨-, hn, hentries⟩ := Timeline.mem_ofFrame_iff.1 ht
  rw [hentries] at he
  rw [hlayout]
  exact (layout_of_entry huses hn hkind he).1

end

/-! ## Depth attachments -/

theorem Use.isDepthOrStencil_of_slot {use : Use} (h : use.slot = .depth) :
    use.kind.isDepthOrStencil = true := by
  unfold slot at h
  split at h
  · split at h
    · next hkind => exact hkind
    · cases h
  · split at h <;> cases h

/-- What is declared to be depth or stencil has a format with depth or stencil. -/
theorem Usage.format_of_classify {shaders : Registry} {pass : Pass} {use : Use} {n : Node}
    {u : Usage} {desc : ImageDesc} (hkind : pass.kind = .render)
    (hdepth : use.kind.isDepthOrStencil = true) (hdesc : n.imageDesc? = some desc)
    (h : (classify shaders pass use n).result = .ok u) : desc.format.isDepthOrStencil = true := by
  have h := ofAttachment_of_classify hkind h
  unfold ofAttachment at h
  simp only [hdesc, hdepth, Bool.true_and] at h
  split at h
  · cases h
  · next hformat => simpa using hformat

section
variable {f : Forest} {d : Headless} {shaders : Registry} {pass : Pass} {index i : Nat}
  {r : PassUses} {t : RenderTarget AttachmentUse} {x : AttachmentUse} {use : Use}

/-- Names that stand for one view stand for one image. -/
theorem Forest.HoldsViews.trackedImage?_eq (hf : f.HoldsViews d) (hs : f.Seated)
    {name name' : String} {v : Handle .imageView} (hview : f.imageViewHandle name = .ok v)
    (hview' : f.imageViewHandle name' = .ok v) : f.trackedImage? name = f.trackedImage? name' := by
  obtain ⟨q, -, -, hq, -⟩ := Forest.imageViewHandle_eq_ok_iff.1 hview
  obtain ⟨q', -, -, hq', -⟩ := Forest.imageViewHandle_eq_ok_iff.1 hview'
  obtain ⟨p, hp⟩ := Forest.exists_tracked hq
  obtain ⟨p', hp'⟩ := Forest.exists_tracked hq'
  obtain rfl := hf.place_unique hs hview hview' hp hp'
  rw [Forest.trackedImage?_of_tracked hp, Forest.trackedImage?_of_tracked hp']

/-- Format and sample count of an attachment are those of the image of each use that has its
view. -/
theorem Collects.image_eq {uses : List Use} (h : Collects f uses t) (hf : f.HoldsViews d)
    (hs : f.Seated) (hx : x ∈ t.attachments)
    (hview : f.imageViewHandle use.resource = .ok x.view) : ∃ image,
      f.trackedImage? use.resource = some image ∧ x.format = image.format ∧
      x.samples = image.samples := by
  obtain ⟨first, -, hattaches⟩ := h.first x hx
  rw [hf.trackedImage?_eq hs hview hattaches.view]
  exact hattaches.exists_trackedImage

/-- **The depth attachment has a depth or stencil format.** -/
theorem Collects.format_of_depth (h : Collects f pass.uses t) (hf : f.HoldsViews d)
    (hs : f.Seated) (hkind : pass.kind = .render)
    (hr : (passUses f shaders index pass).result = .ok r) (hi : i ∈ t.places .depth) :
    ∃ x, t.attachments[i]? = some x ∧ x.format.isDepthOrStencil = true := by
  obtain ⟨use, huse, hslot, x, hx, hview⟩ := h.used .depth i hi
  obtain ⟨u, -, p, hp, -, hclassify, -⟩ := exists_right_of_mem (passUses_ok hr).1 huse
  obtain ⟨desc, hdesc, hformat, -⟩ := h.image_eq hf hs (List.mem_of_getElem? hx) hview
  rw [Forest.trackedImage?_of_tracked hp] at hdesc
  refine ⟨x, hx, ?_⟩
  rw [hformat]
  exact Usage.format_of_classify hkind (Use.isDepthOrStencil_of_slot hslot) hdesc hclassify

end

/-! ## References -/

section
variable {f f' : Forest} {shaders : Registry} {passes : List Pass} {a : Analysis} {k : Nat}
  {pass : Pass} {uses : List Use} {t : RenderTarget AttachmentUse} {ts : List Timeline}

/-- A use has one attachment. -/
theorem Collects.countP_view (h : Collects f uses t) {use : Use} (huse : use ∈ uses) :
    ∃ v, f.imageViewHandle use.resource = .ok v ∧
      (t.map (AttachmentUse.finish ts k)).attachments.countP (·.view == v) = 1 := by
  obtain ⟨i, ⟨x, hx, hview⟩, -⟩ := h.held use huse
  refine ⟨x.view, hview, ?_⟩
  have hone : ((t.map (AttachmentUse.finish ts k)).attachments.map (·.view)).count x.view = 1 := by
    rw [RenderTarget.map_view_finish]
    exact List.count_eq_one_of_mem h.views (List.mem_map_of_mem (List.mem_of_getElem? hx))
  rwa [List.count, List.countP_map] at hone

/-- A reference is to the attachment of a use of its slot, in the attachment's layout. -/
theorem Collects.exists_of_ref (h : Collects f uses t) {subpass : SubpassDesc}
    (hsubpass : subpass ∈ (t.map (AttachmentUse.finish ts k)).renderPassDesc.subpasses)
    {slot : AttachmentSlot} {r : AttachmentRef} (hr : r ∈ subpass.refs slot) :
    r.attachment ∈ t.places slot ∧ ∃ x, t.attachments[r.attachment]? = some x ∧
      r.layout = (x.finish ts k).layout := by
  rw [RenderTarget.refs_of_mem hsubpass, RenderTarget.places_map] at hr
  obtain ⟨i, hi, rfl⟩ := List.mem_map.1 hr
  obtain ⟨use, -, -, x, hx, -⟩ := h.used slot i hi
  refine ⟨hi, x, hx, ?_⟩
  simp [RenderTarget.ref, hx]

theorem Collects.nodup_refs (h : Collects f uses t) {subpass : SubpassDesc}
    (hsubpass : subpass ∈ (t.map (AttachmentUse.finish ts k)).renderPassDesc.subpasses)
    (slot : AttachmentSlot) : ((subpass.refs slot).map (·.attachment)).Nodup := by
  rw [RenderTarget.refs_of_mem hsubpass, RenderTarget.places_map, List.map_map]
  exact (List.map_id _).symm ▸ h.nodup slot

/-- The attachments are described one by one. -/
theorem getElem?_renderPassDesc {i : Nat} {x : AttachmentUse} (hx : t.attachments[i]? = some x) :
    (t.map (AttachmentUse.finish ts k)).renderPassDesc.attachments[i]? =
      some (x.finish ts k).desc := by
  show ((t.map (AttachmentUse.finish ts k)).attachments.map _)[i]? = _
  rw [List.getElem?_map, RenderTarget.getElem?_attachments_map, hx, Option.map_some,
    Option.map_some]

/-! ## Frames -/

theorem wellDescribed_of_frame {d : Headless} (hf : f.HoldsViews d) (hs : f.Seated)
    (h : (analyze passes f shaders).result = .ok (a, f')) (hpass : passes[k]? = some pass)
    (hkind : pass.kind = .render) :
    ∃ t, a.target? k = some t ∧ t.WellDescribed f pass.uses := by
  obtain ⟨t, hcollects, ht⟩ := exists_collects h hpass hkind
  refine ⟨_, ht, ?_⟩
  constructor
  case one => exact fun use huse => hcollects.countP_view huse
  case views => exact fun _ => rfl
  case nodup =>
    intro renderPass
    have hnodup := hcollects.views
    rwa [← RenderTarget.map_view_finish a.timelines k] at hnodup
  case refs =>
    intro subpass hsubpass slot r hr
    obtain ⟨-, x, hx, hlayout⟩ := hcollects.exists_of_ref hsubpass hr
    have hget : (t.map (AttachmentUse.finish a.timelines k)).attachments[r.attachment]? =
        some (x.finish a.timelines k) := by
      rw [RenderTarget.getElem?_attachments_map, hx, Option.map_some]
    obtain ⟨hfinal, hne⟩ :=
      layout_of_attachment h (List.mem_of_find?_eq_some ht) (List.mem_of_getElem? hget)
    exact ⟨_, _, hget, getElem?_renderPassDesc hx, hlayout, hlayout.trans hfinal.symm,
      hlayout ▸ hne⟩
  case once => exact fun subpass hsubpass slot => hcollects.nodup_refs hsubpass slot
  case depth =>
    intro subpass hsubpass r hr
    have hr : r ∈ subpass.refs .depth := by simpa [SubpassDesc.refs] using hr
    obtain ⟨hplace, x, hx, -⟩ := hcollects.exists_of_ref hsubpass hr
    obtain ⟨uses, huses, -, -⟩ := analyze_ok_iff.1 h
    obtain ⟨r, -, hok⟩ := (frameUses_ok huses).2 k pass hpass
    obtain ⟨y, hy, hformat⟩ := hcollects.format_of_depth hf hs hkind hok hplace
    obtain rfl := Option.some.inj (hx.symm.trans hy)
    refine ⟨_, getElem?_renderPassDesc hx, ?_⟩
    rw [AttachmentUse.format_desc_finish]
    exact hformat

end

/-- **Render passes are well described.** In any session on the headless device, every render pass
of an accepted frame has a description, and one of its framebuffer, that fit each other and what the
pass declares. -/
theorem renderPasses_wellDescribed {s : Session Headless}
    (hrun : ReflTransGen (Session.Step Headless.Aside) { device := {} } s) {passes : List Pass}
    {shaders : Registry} {a : Analysis} {f' : Forest}
    (h : (analyze passes s.forest shaders).result = .ok (a, f')) {k : Nat} {pass : Pass}
    (hpass : passes[k]? = some pass) (hkind : pass.kind = .render) :
    ∃ t, a.target? k = some t ∧ t.WellDescribed s.forest pass.uses :=
  wellDescribed_of_frame (Session.holdsViews_of_steps hrun) (Session.seated_kept hrun .empty) h
    hpass hkind

/-! ### A canvas under two views -/

namespace Atelier

def depth : ImageDesc := .twoD 1 1 .d24UnormS8Uint .depthStencilAttachment

/-- The canvas with its colors in another order. -/
def swapped : ImageViewDesc := .twoD .b8g8r8a8Unorm .color

def session : Session Headless where
  forest := {
    nodes := [
      { name := "canvas"
        residency := .transient
        payload := .image {} (some ⟨1⟩) false
        life := 1 },
      { name := "canvas/canvas"
        residency := .transient
        payload := .imageView (ImageDesc.defaultView {}) "canvas" (some ⟨2⟩)
        parent := some 0
        life := 1 },
      { name := "canvas/swapped"
        residency := .transient
        payload := .imageView swapped "canvas" (some ⟨3⟩)
        parent := some 0
        life := 1 },
      { name := "depth"
        residency := .transient
        payload := .image depth (some ⟨4⟩) false
        life := 2 },
      { name := "depth/depth"
        residency := .transient
        payload := .imageView depth.defaultView "depth" (some ⟨5⟩)
        parent := some 3
        life := 2 }]
    life := 2 }
  device := {
    lastHandle := 5
    created := { images := 2, imageViews := 3 }
    images := [(⟨1⟩, "canvas"), (⟨4⟩, "depth")]
    imageViews := [(⟨2⟩, ⟨1⟩), (⟨3⟩, ⟨1⟩), (⟨5⟩, ⟨4⟩)] }

theorem steps : ReflTransGen (Session.Step Headless.Aside) { device := {} } session :=
  .tail (.tail (.tail (.tail (.tail .refl
    (.operate (o := .addImage "canvas" {} .transient) rfl))
    (.operate (o := .addImageView "canvas/swapped" "canvas" swapped) rfl))
    (.operate (o := .addImage "depth" depth .transient) rfl))
    (.operate (o := .mount "canvas") rfl))
    (.operate (o := .mount "depth") rfl)

/-- The depth is read before it is declared to be the depth attachment. -/
def compose : Pass :=
  ⟨"compose", .render,
    [.bound "depth" "shadow" .read, .colorOutput "canvas/swapped", .depthStencilOutput "depth",
      .bound "canvas" "under" .read]⟩

end Atelier

theorem renderPasses_wellDescribed_atelier :
    ReflTransGen (Session.Step Headless.Aside) { device := {} } Atelier.session ∧
    ∃ a f' t, (analyze [Atelier.compose] Atelier.session.forest {}).result = .ok (a, f') ∧
      a.target? 0 = some t ∧ t.WellDescribed Atelier.session.forest Atelier.compose.uses := by
  have h : (analyze [Atelier.compose] Atelier.session.forest {}).result = .ok (_, _) := rfl
  obtain ⟨t, ht, hdescribed⟩ := renderPasses_wellDescribed Atelier.steps h (k := 0) rfl rfl
  exact ⟨Atelier.steps, _, _, t, h, ht, hdescribed⟩

end FrameGraph
