import FrameGraph.Proofs.Formats
import FrameGraph.Proofs.PermittedAccesses

/-!
# Kinds of attachments and formats of images

A use declares a kind, and an image has a format. A use that is declared as depth or stencil is a
fault unless the image has depth or stencil; so what a subpass refers to as depth always has it. A
use that is declared as color is no fault where the image has depth or stencil: if it writes, the
image is drawn to as color. So kinds and formats agree in a frame exactly if no such use is declared
(`kinds_agree_iff`).
-/

set_option autoImplicit false

namespace FrameGraph

open Relation (ReflTransGen)

/-- Whether a use writes color, if it is one of an attachment. -/
def Use.WritesColor (use : Use) : Prop := use.kind = .color ∧ use.mode.writes = true

instance (use : Use) : Decidable use.WritesColor := inferInstanceAs (Decidable (_ ∧ _))

/-- The accesses to a color attachment. -/
def AccessMask.color : AccessMask :=
  AccessMask.colorAttachmentRead ∪ AccessMask.colorAttachmentWrite

namespace RenderPassDesc

/-- Whether all attachments that are referred to in a slot have depth or stencil, or none of them
has. -/
def HasDepthIn (pass : RenderPassDesc) (slot : AttachmentSlot) (depth : Bool) : Prop :=
  ∀ subpass ∈ pass.subpasses, ∀ r ∈ subpass.refs slot,
    ∃ x, pass.attachments[r.attachment]? = some x ∧ x.format.isDepthOrStencil = depth

/-- Whether attachments are referred to as their formats are. -/
structure KindsAgree (pass : RenderPassDesc) : Prop where
  color : pass.HasDepthIn .color false
  depth : pass.HasDepthIn .depth true
  apart : ∀ subpass ∈ pass.subpasses, ∀ r ∈ subpass.refs .color, ∀ r' ∈ subpass.refs .depth,
    r.attachment ≠ r'.attachment

theorem KindsAgree.of_hasDepthIn {pass : RenderPassDesc} (hcolor : pass.HasDepthIn .color false)
    (hdepth : pass.HasDepthIn .depth true) : pass.KindsAgree where
  color := hcolor
  depth := hdepth
  apart subpass hsubpass r hr r' hr' hsame := by
    obtain ⟨x, hx, hnone⟩ := hcolor subpass hsubpass r hr
    obtain ⟨y, hy, hsome⟩ := hdepth subpass hsubpass r' hr'
    rw [hsame] at hx
    obtain rfl := Option.some.inj (hx.symm.trans hy)
    rw [hnone] at hsome
    cases hsome

end RenderPassDesc

/-- Whether a render pass writes color only to images without depth and stencil. -/
def Pass.ColorsFit (f : Forest) (pass : Pass) : Prop :=
  pass.kind = .render → ∀ use ∈ pass.uses, use.WritesColor → ∀ image,
    f.trackedImage? use.resource = some image → image.format.isDepthOrStencil = false

/-- Whether attachments are referred to, and images with depth or stencil are used, as their formats
are. -/
structure Analysis.KindsAgree (a : Analysis) (passes : List Pass) : Prop where
  attachments : ∀ (k : Nat) pass, passes[k]? = some pass → pass.kind = .render →
    ∃ t, a.target? k = some t ∧ t.renderPassDesc.KindsAgree
  images : ∀ t ∈ a.timelines, ∀ image, t.node.imageDesc? = some image →
    image.format.isDepthOrStencil = true → ∀ e ∈ t.entries,
      e.state.access.meets AccessMask.color = false ∧ e.state.layout ≠ .colorAttachment

/-! ## Accesses to color -/

namespace Usage

section
variable {pass : String} {use : Use} {n : Node} {u : Usage}

/-- What is drawn to is written as depth or as color, and used as a color attachment in the second
case only. -/
theorem color_ofOutput (h : ofOutput pass use = .ok u) :
    (u.access.meets AccessMask.color = true ↔ use.WritesColor) ∧
      (use.kind.isDepthOrStencil = true ∨ use.WritesColor) := by
  unfold ofOutput at h
  dsimp only at h
  split at h
  · next hdepth =>
    have hnot : ¬ use.WritesColor := fun hcolor => by rw [hcolor.1] at hdepth; cases hdepth
    refine ⟨iff_of_false ?_ hnot, .inl hdepth⟩
    split at h
    · cases h
      decide
    · cases h
      decide
    · cases h
  · split at h
    · next hkind =>
      split at h
      · next hmode =>
        cases h
        have hcolor : use.WritesColor := ⟨hkind, by rw [hmode]; rfl⟩
        exact ⟨iff_of_true (by decide) hcolor, .inr hcolor⟩
      · next hmode =>
        cases h
        have hcolor : use.WritesColor := ⟨hkind, by rw [hmode]; rfl⟩
        exact ⟨iff_of_true (by decide) hcolor, .inr hcolor⟩
      · cases h
    · cases h

theorem writesColor_of_classify {shaders : Registry} {pass : Pass} (hkind : pass.kind = .render)
    (hslot : use.slot = .color) (h : (classify shaders pass use n).result = .ok u) :
    use.WritesColor := by
  obtain ⟨houtput, hcolor⟩ : use.isOutput = true ∧ use.kind.isDepthOrStencil = false := by
    unfold Use.slot at hslot
    split at hslot
    · next houtput =>
      split at hslot
      · cases hslot
      · next hcolor => exact ⟨houtput, Bool.eq_false_iff.2 hcolor⟩
    · split at hslot <;> cases hslot
  have h := ofAttachment_of_classify hkind h
  unfold ofAttachment at h
  split at h
  · cases h
  · rw [hcolor, Bool.false_and, if_neg Bool.false_ne_true, if_pos houtput] at h
    exact (color_ofOutput h).2.resolve_left (Bool.eq_false_iff.1 hcolor)

theorem color_ofInput (hkind : use.kind = .color ∨ use.kind.isDepthOrStencil = true) :
    (ofInput use).access.meets AccessMask.color = true ↔ use.WritesColor := by
  unfold ofInput Use.WritesColor
  dsimp only
  rcases hkind with hkind | hdepth
  · rw [hkind]
    cases use.mode with
    | read => decide
    | write => decide
    | readWrite => decide
  · have hne : use.kind ≠ .color := fun hkind => by rw [hkind] at hdepth; cases hdepth
    refine iff_of_false ?_ fun hcolor => hne hcolor.1
    rw [hdepth]
    cases use.mode with
    | read => decide
    | write => decide
    | readWrite => decide

theorem color_ofAttachment (h : ofAttachment pass use n = .ok u) :
    u.access.meets AccessMask.color = true ↔ use.WritesColor := by
  unfold ofAttachment at h
  split at h
  · cases h
  · split at h
    · cases h
    · split at h
      · exact (color_ofOutput h).1
      · split at h
        · next hkind =>
          split at h
          · cases h
          · cases h
            exact iff_of_false (by decide) fun hcolor => by cases hkind.symm.trans hcolor.1
        · cases h
        · next hrate hindirect =>
          cases h
          refine color_ofInput ?_
          cases hkind : use.kind with
          | shadingRate => exact absurd hkind hrate
          | indirectBuffer => exact absurd hkind hindirect
          | color => exact .inl rfl
          | depth => exact .inr rfl
          | stencil => exact .inr rfl
          | depthStencil => exact .inr rfl

/-- **An image is used as a color attachment only where a render pass declares a use that writes
color**, whatever its format. -/
theorem color_classify {shaders : Registry} {pass : Pass} (himage : n.isBufferLike = false)
    (h : (classify shaders pass use n).result = .ok u) :
    u.access.meets AccessMask.color = true ↔ pass.kind = .render ∧ use.WritesColor := by
  by_cases hkind : pass.kind = .render
  · rw [and_iff_right hkind]
    exact color_ofAttachment (ofAttachment_of_classify hkind h)
  · refine iff_of_false (fun hmeets => ?_) fun hcolor => hkind hcolor.1
    obtain ⟨i, hi, hcolor⟩ := Mask.meets_iff.1 hmeets
    have hwithin := Mask.subset_iff.1 (suits_classify himage h).within i hi
    have hnone (kind : PassKind) (hkind : kind ≠ .render) :
        ∀ i < 64, i ∈ AccessMask.color → i ∉ kind.imageAccesses := by
      cases kind with
      | render => exact absurd rfl hkind
      | copy => decide
      | compute phase => exact show ∀ i < 64, i ∈ AccessMask.color →
          i ∉ AccessMask.shaderRead ∪ AccessMask.shaderWrite by decide
      | draw phase => exact show ∀ i < 64, i ∈ AccessMask.color →
          i ∉ AccessMask.shaderRead ∪ AccessMask.shaderWrite by decide
    exact hnone pass.kind hkind i (BitVec.lt_of_getLsbD hi) hcolor hwithin

end

/-- An image is laid out as a color attachment only where it is written as one. -/
theorem color_of_imageLayout {access : AccessMask} {format : Format}
    (h : imageLayout access format = .colorAttachment) :
    access.meets AccessMask.color = true := by
  by_cases hcolor : AccessMask.colorAttachmentWrite ⊆ access
  · exact Mask.meets_iff.2 ⟨8, AccessMask.colorAttachmentWrite_subset.1 hcolor, by decide⟩
  · exfalso
    revert h
    unfold imageLayout
    rw [if_neg hcolor]
    refine ite_ne_of (by decide) fun _ => ite_ne_of (by decide) fun _ => ?_
    refine ite_ne_of (by decide) fun _ => ite_ne_of (by decide) fun _ => ?_
    refine ite_ne_of (by decide) fun _ => ?_
    refine ite_ne_of (ite_ne_of (by decide) fun _ => by decide) fun _ => ?_
    exact ite_ne_of (by decide) fun _ => by decide

end Usage

/-! ## Images -/

section
variable {f f' : Forest} {d : Headless} {shaders : Registry} {passes : List Pass} {pass : Pass}
  {a : Analysis} {i k : Nat} {n : Node} {image : ImageDesc} {s : AccessState}

/-- What a pass declares of an image is an access to color if one of its uses writes color. -/
theorem Pass.Joins.color_iff (h : pass.Joins f shaders i n s) (hdesc : n.imageDesc? = some image) :
    s.access.meets AccessMask.color = true ↔
      pass.kind = .render ∧ ∃ use ∈ pass.uses, f.StandsFor i use.resource ∧ use.WritesColor := by
  have himage : n.isBufferLike = false := by
    rw [Node.isBufferLike, Node.kind_of_imageDesc (by rw [hdesc]; rfl)]
    rfl
  constructor
  · intro hmeets
    obtain ⟨bit, hbit, hcolor⟩ := Mask.meets_iff.1 hmeets
    obtain ⟨u, ⟨use, huse, hstands, hu⟩, hbit⟩ := (h.access bit).1 hbit
    obtain ⟨hkind, hwrites⟩ :=
      (Usage.color_classify himage hu).1 (Mask.meets_iff.2 ⟨bit, hbit, hcolor⟩)
    exact ⟨hkind, use, huse, hstands, hwrites⟩
  · rintro ⟨hkind, use, huse, hstands, hwrites⟩
    obtain ⟨u, hu⟩ := h.classified use huse hstands
    obtain ⟨bit, hbit, hcolor⟩ :=
      Mask.meets_iff.1 ((Usage.color_classify himage hu).2 ⟨hkind, hwrites⟩)
    exact Mask.meets_iff.2 ⟨bit, (h.access bit).2 ⟨u, ⟨use, huse, hstands, hu⟩, hbit⟩, hcolor⟩

/-- An image that is used as a color attachment is one to which a render pass writes color. -/
theorem Forest.Records.exists_writesColor {es : List TimelineEntry} {e : TimelineEntry}
    (h : f.Records shaders passes i n es) (hf : f.WellFormed) (hs : f.Seated)
    (hn : f.nodes[i]? = some n) (hdesc : n.imageDesc? = some image) (he : e ∈ es)
    (hcolor : e.state.access.meets AccessMask.color = true) :
    ∃ pass ∈ passes, pass.kind = .render ∧ ∃ use ∈ pass.uses, use.WritesColor ∧
      f.trackedImage? use.resource = some image := by
  obtain ⟨pass, hpass, -⟩ := (h.entry_iff e.pass).1 ⟨e, he, rfl⟩
  obtain ⟨hkind, use, huse, hstands, hwrites⟩ :=
    ((h.joins e he pass hpass).color_iff hdesc).1 hcolor
  refine ⟨pass, List.mem_of_getElem? hpass, hkind, use, huse, hwrites, ?_⟩
  rw [Forest.trackedImage?_of_tracked (hstands.tracked hf hs hn)]
  exact hdesc

/-- **No image with depth or stencil is used as a color attachment** if all render passes write
color where it fits. -/
theorem images_of_colorsFit (hf : f.WellFormed) (hs : f.Seated)
    (h : (analyze passes f shaders).result = .ok (a, f')) (hfit : ∀ pass ∈ passes, pass.ColorsFit f)
    {t : Timeline} (ht : t ∈ a.timelines) (hdesc : t.node.imageDesc? = some image)
    (hdepth : image.format.isDepthOrStencil = true) {e : TimelineEntry} (he : e ∈ t.entries) :
    e.state.access.meets AccessMask.color = false ∧ e.state.layout ≠ .colorAttachment := by
  have hrecords := records_of_mem_timelines hf hs h ht
  have hnone : ¬ e.state.access.meets AccessMask.color = true := by
    intro hmeets
    obtain ⟨pass, hpass, hkind, use, huse, hwrites, himage⟩ :=
      hrecords.exists_writesColor hf hs (node_of_mem_timelines h ht).1 hdesc he hmeets
    rw [hfit pass hpass hkind use huse hwrites image himage] at hdepth
    cases hdepth
  refine ⟨Bool.eq_false_iff.2 hnone, fun hlayout => hnone ?_⟩
  obtain ⟨pass, hpass, -⟩ := (hrecords.entry_iff e.pass).1 ⟨e, he, rfl⟩
  rw [(hrecords.joins e he pass hpass).image image hdesc] at hlayout
  exact Usage.color_of_imageLayout hlayout

/-- A render pass that writes color to an image with depth or stencil uses it as a color
attachment. -/
theorem colorsFit_of_images (hf : f.WellFormed) (hs : f.Seated)
    (h : (analyze passes f shaders).result = .ok (a, f')) (hagree : a.KindsAgree passes)
    (hpass : pass ∈ passes) : pass.ColorsFit f := by
  intro hkind use huse hwrites image himage
  obtain ⟨k, hk⟩ := List.mem_iff_getElem?.1 hpass
  obtain ⟨p, hp, -, t, ht, hindex, hnode, e, he, rfl⟩ := exists_entry_of_use h hk huse
  have hdesc : t.node.imageDesc? = some image := by
    rw [hnode, ← Forest.trackedImage?_of_tracked hp]
    exact himage
  refine Bool.eq_false_iff.2 fun hdepth => ?_
  have hjoins := (records_of_mem_timelines hf hs h ht).joins e he pass hk
  have hmeets := (hjoins.color_iff hdesc).2
    ⟨hkind, use, huse, hindex ▸ Forest.standsFor_of_tracked hs hp, hwrites⟩
  rw [(hagree.images t ht image hdesc hdepth e he).1] at hmeets
  cases hmeets

/-! ## References -/

/-- The formats in a slot are those of the images of its uses. -/
theorem Collects.hasDepthIn {uses : List Use} {t : RenderTarget AttachmentUse} {ts : List Timeline}
    (h : Collects f uses t) (hf : f.HoldsViews d) (hs : f.Seated) {slot : AttachmentSlot}
    {depth : Bool} (huses : ∀ use ∈ uses, use.slot = slot → ∃ image,
      f.trackedImage? use.resource = some image ∧ image.format.isDepthOrStencil = depth) :
    (t.map (AttachmentUse.finish ts k)).renderPassDesc.HasDepthIn slot depth := by
  intro subpass hsubpass r hr
  obtain ⟨hplace, -⟩ := h.exists_of_ref hsubpass hr
  obtain ⟨use, huse, hslot, x, hx, hview⟩ := h.used slot _ hplace
  obtain ⟨image, himage, hdepth⟩ := huses use huse hslot
  obtain ⟨image', himage', hformat, -⟩ := h.image_eq hf hs (List.mem_of_getElem? hx) hview
  obtain rfl := Option.some.inj (himage.symm.trans himage')
  refine ⟨_, getElem?_renderPassDesc hx, ?_⟩
  rw [AttachmentUse.format_desc_finish, hformat]
  exact hdepth

/-- A use of an accepted render pass is of an image. It has depth or stencil if it is referred to as
depth, and color is written to it if it is referred to as color. -/
theorem exists_image_of_use (h : (analyze passes f shaders).result = .ok (a, f'))
    (hpass : passes[k]? = some pass) (hkind : pass.kind = .render) {use : Use}
    (huse : use ∈ pass.uses) : ∃ image, f.trackedImage? use.resource = some image ∧
      (use.slot = .depth → image.format.isDepthOrStencil = true) ∧
      (use.slot = .color → use.WritesColor) := by
  obtain ⟨uses, huses, -, -⟩ := analyze_ok_iff.1 h
  obtain ⟨r, -, hok⟩ := (frameUses_ok huses).2 k pass hpass
  obtain ⟨u, -, p, hp, -, hclassify, -⟩ := exists_right_of_mem (passUses_ok hok).1 huse
  obtain ⟨image, himage⟩ :=
    Option.isSome_iff_exists.1 (isSome_imageDesc?_of_classify hkind hclassify)
  refine ⟨image, (Forest.trackedImage?_of_tracked hp).trans himage, fun hslot => ?_,
    fun hslot => ?_⟩
  · exact Usage.format_of_classify hkind (Use.isDepthOrStencil_of_slot hslot) himage hclassify
  · exact Usage.writesColor_of_classify hkind hslot hclassify

/-- **Depth references are to depth and stencil formats**, and color references to others if the
pass writes color where it fits. -/
theorem exists_kinds_of_render (hf : f.HoldsViews d) (hs : f.Seated)
    (h : (analyze passes f shaders).result = .ok (a, f')) (hpass : passes[k]? = some pass)
    (hkind : pass.kind = .render) : ∃ t, a.target? k = some t ∧
      t.renderPassDesc.HasDepthIn .depth true ∧
      (pass.ColorsFit f → t.renderPassDesc.HasDepthIn .color false) := by
  obtain ⟨t, hcollects, ht⟩ := exists_collects h hpass hkind
  refine ⟨_, ht, hcollects.hasDepthIn hf hs fun use huse hslot => ?_,
    fun hfit => hcollects.hasDepthIn hf hs fun use huse hslot => ?_⟩
  · obtain ⟨image, himage, hdepth, -⟩ := exists_image_of_use h hpass hkind huse
    exact ⟨image, himage, hdepth hslot⟩
  · obtain ⟨image, himage, -, hcolor⟩ := exists_image_of_use h hpass hkind huse
    exact ⟨image, himage, hfit hkind use huse (hcolor hslot) image himage⟩

end

/-- **Kinds and formats agree unless color is written to depth.** In any session on the headless
device, every depth reference of an accepted frame is to an attachment with a depth or stencil
format. Color references are to others, no attachment is referred to as both, and no image with
depth or stencil is used as a color attachment, exactly if no render pass declares a use that writes
color to an image with depth or stencil. -/
theorem kinds_agree_iff {s : Session Headless}
    (hrun : ReflTransGen (Session.Step Headless.Aside) { device := {} } s) {passes : List Pass}
    {shaders : Registry} {a : Analysis} {f' : Forest}
    (h : (analyze passes s.forest shaders).result = .ok (a, f')) :
    (∀ (k : Nat) pass, passes[k]? = some pass → pass.kind = .render →
      ∃ t, a.target? k = some t ∧ t.renderPassDesc.HasDepthIn .depth true) ∧
    (a.KindsAgree passes ↔ ∀ pass ∈ passes, pass.ColorsFit s.forest) := by
  obtain ⟨hf, hs, -, hviews⟩ := Session.viewed_of_steps hrun
  refine ⟨fun k pass hpass hkind => ?_, fun hagree pass hpass => ?_, fun hfit => ⟨?_, ?_⟩⟩
  · obtain ⟨t, ht, hdepth, -⟩ := exists_kinds_of_render hviews hs h hpass hkind
    exact ⟨t, ht, hdepth⟩
  · exact colorsFit_of_images hf hs h hagree hpass
  · intro k pass hpass hkind
    obtain ⟨t, ht, hdepth, hcolor⟩ := exists_kinds_of_render hviews hs h hpass hkind
    exact ⟨t, ht, .of_hasDepthIn (hcolor (hfit pass (List.mem_of_getElem? hpass))) hdepth⟩
  · exact fun t ht image hdesc hdepth e he => images_of_colorsFit hf hs h hfit ht hdesc hdepth he

theorem kinds_agree_iff_atelier :
    ReflTransGen (Session.Step Headless.Aside) { device := {} } Atelier.session ∧
    ∃ a f', (analyze [Atelier.compose] Atelier.session.forest {}).result = .ok (a, f') ∧
      a.KindsAgree [Atelier.compose] := by
  have h : (analyze [Atelier.compose] Atelier.session.forest {}).result = .ok (_, _) := rfl
  have hcanvas : ∀ use ∈ Atelier.compose.uses, use.WritesColor →
      use = .colorOutput "canvas/swapped" := by decide
  refine ⟨Atelier.steps, _, _, h, (kinds_agree_iff Atelier.steps h).2.2 fun pass hpass => ?_⟩
  obtain rfl := List.mem_singleton.1 hpass
  intro _ use huse hwrites image himage
  obtain rfl := hcanvas use huse hwrites
  obtain rfl : ({} : ImageDesc) = image := Option.some.inj himage
  rfl

/-- The depth image, drawn to as color. -/
def Atelier.smear : Pass := ⟨"smear", .render, [.colorOutput "depth"]⟩

theorem not_forall_kindsAgree : ¬ ∀ (s : Session Headless) (passes : List Pass)
    (shaders : Registry) (a : Analysis) (f' : Forest),
    ReflTransGen (Session.Step Headless.Aside) { device := {} } s →
    (analyze passes s.forest shaders).result = .ok (a, f') → a.KindsAgree passes := by
  intro h
  have hanalyze : (analyze [Atelier.smear] Atelier.session.forest {}).result = .ok (_, _) := rfl
  obtain ⟨t, ht, hagree⟩ := (h _ _ _ _ _ Atelier.steps hanalyze).attachments 0 _ rfl rfl
  obtain rfl := Option.some.inj ht
  obtain ⟨x, hx, hcolor⟩ :=
    hagree.color _ (List.mem_singleton_self _) ⟨0, .colorAttachment⟩ List.mem_cons_self
  cases hx
  cases hcolor

end FrameGraph
