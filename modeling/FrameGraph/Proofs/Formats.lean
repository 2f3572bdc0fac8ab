import FrameGraph.Proofs.Descriptions

/-!
# Formats of attachments

The format of an attachment is read off the image that is attached, whereas the framebuffer gets the
view. Images, swapchains and default views are attached through views in the image's own format. But
a view may be registered in another format (`Forest.Reinterprets`), and an attachment under the name
of such a view does not have the format of its view (`attachment_formats`).
-/

set_option autoImplicit false

namespace FrameGraph

open Relation (ReflTransGen)

namespace Forest

/-- The description of the view that has a handle. -/
def viewDesc? (f : Forest) (v : Handle .imageView) : Option ImageViewDesc :=
  (f.nodes.find? (·.payload.object? = some (.imageView v))).bind (·.imageViewDesc?)

/-- Whether a name is that of a view that shows its image in another format than the image's own. -/
def Reinterprets (f : Forest) (name : String) : Prop :=
  ∃ q p viewDesc imageDesc, f.find name = .ok q ∧ q.node.imageViewDesc? = some viewDesc ∧
    q.node.parent.bind f.place? = some p ∧ p.node.imageDesc? = some imageDesc ∧
    viewDesc.format ≠ imageDesc.format

/-- Whether a name is that of an image, of a swapchain or of a default view. -/
def NamesImage (f : Forest) (name : String) : Prop := ∃ q, f.find name = .ok q ∧
  (q.node.kind = .image ∨ q.node.kind = .swapchain ∨
    ∃ p, q.node.parent.bind f.place? = some p ∧ q.node.name = defaultViewName p.node.name)

end Forest

namespace RenderTarget

/-- Whether the attachments have the formats of the images that the uses attach. -/
def HasImageFormats (t : RenderTarget Attachment) (f : Forest) (uses : List Use) : Prop :=
  ∀ (i : Nat) d, t.renderPassDesc.attachments[i]? = some d → ∃ use ∈ uses, ∃ p imageDesc v viewDesc,
    f.tracked use.resource = .ok p ∧ p.node.imageDesc? = some imageDesc ∧
    d.format = imageDesc.format ∧ f.imageViewHandle use.resource = .ok v ∧
    (∀ renderPass, (t.framebufferDesc renderPass).attachments[i]? = some v) ∧
    f.viewDesc? v = some viewDesc ∧
    (d.format = viewDesc.format ↔ ¬ f.Reinterprets use.resource) ∧
    (f.NamesImage use.resource → d.format = viewDesc.format)

/-- Whether the attachments have the formats of the views of the framebuffer. -/
def FormatsMatch (t : RenderTarget Attachment) (f : Forest) : Prop :=
  ∀ (i : Nat) d renderPass v, t.renderPassDesc.attachments[i]? = some d →
    (t.framebufferDesc renderPass).attachments[i]? = some v →
    (f.viewDesc? v).map (·.format) = some d.format

end RenderTarget

/-! ## The format of a view -/

section
variable {f : Forest} {d : Headless} {name : String} {p q : Place} {v : Handle .imageView}
  {viewDesc : ImageViewDesc} {imageDesc : ImageDesc}

theorem Node.kind_of_imageViewDesc? {n : Node} (h : n.imageViewDesc? = some viewDesc) :
    n.kind = .imageView := by
  unfold imageViewDesc? at h
  split at h
  · next hp => rw [Node.kind, hp]; rfl
  · cases h

/-- A view is found by its handle. -/
theorem Forest.HoldsViews.find?_eq (h : f.HoldsViews d) (hq : f.view name = .ok q)
    {origin : String} (hp : q.node.payload = .imageView viewDesc origin (some v)) :
    f.nodes.find? (·.payload.object? = some (.imageView v)) = some q.node := by
  have hqn := nodes_of_view hq
  have hhas := has_of_imageView hqn hp
  have hsome : (f.nodes.find? (·.payload.object? = some (.imageView v))).isSome = true := by
    refine List.find?_isSome.2 ⟨q.node, List.mem_of_getElem? hqn, decide_eq_true ?_⟩
    rw [hp]
    rfl
  obtain ⟨n, hn⟩ := Option.isSome_iff_exists.1 hsome
  obtain ⟨j, hj⟩ := List.mem_iff_getElem?.1 (List.mem_of_find?_eq_some hn)
  obtain rfl := h.owner _ _ _ ⟨n, hj, by simpa using List.find?_some hn⟩ hhas rfl
  rw [hn, hj.symm.trans hqn]

theorem Forest.HoldsViews.viewDesc?_eq (h : f.HoldsViews d) (hq : f.view name = .ok q)
    {origin : String} (hp : q.node.payload = .imageView viewDesc origin (some v)) :
    f.viewDesc? v = some viewDesc := by
  rw [viewDesc?, h.find?_eq hq hp, Option.bind_some, Node.imageViewDesc?, hp]

/-- A default view has the format of its image. -/
theorem Forest.Depicted.format_eq (hd : f.Depicted) (hf : f.WellFormed) {i k : Nat} {n m : Node}
    (hn : f.nodes[i]? = some n) (hqn : f.nodes[k]? = some m)
    (hname : m.name = defaultViewName n.name) (hv : m.imageViewDesc? = some viewDesc)
    (hi : n.imageDesc? = some imageDesc) : viewDesc.format = imageDesc.format := by
  obtain ⟨j, w, hw, hwhole⟩ := hd _ _ hn (Node.kind_of_imageDesc (by simp [hi]))
  obtain rfl := hf.index_unique hw hqn (hwhole.name.trans hname.symm)
  obtain rfl := Option.some.inj (hw.symm.trans hqn)
  have hdesc := hwhole.desc
  rw [hv, hi, Option.map_some] at hdesc
  rw [Option.some.inj hdesc]
  rfl

/-- What is no explicit view does not reinterpret anything. -/
theorem Forest.NamesImage.not_reinterprets (h : f.NamesImage name) (hf : f.WellFormed)
    (hd : f.Depicted) : ¬ f.Reinterprets name := by
  rintro ⟨q, p, viewDesc, imageDesc, hq, hv, hp, hi, hne⟩
  have hkind : q.node.kind = .imageView := Node.kind_of_imageViewDesc? hv
  obtain ⟨q', hq', himage | hswapchain | ⟨p', hp', hname⟩⟩ := h
  · obtain rfl := Except.ok.inj (hq.symm.trans hq')
    cases hkind.symm.trans himage
  · obtain rfl := Except.ok.inj (hq.symm.trans hq')
    cases hkind.symm.trans hswapchain
  · obtain rfl := Except.ok.inj (hq.symm.trans hq')
    obtain rfl := Option.some.inj (hp.symm.trans hp')
    obtain ⟨i, -, hplace⟩ := Option.bind_eq_some_iff.1 hp
    obtain ⟨-, hpn⟩ := place?_eq_some_iff.1 hplace
    exact hne (hd.format_eq hf hpn (nodes_of_find hq).1 hname hv hi)

/-- **A name stands for a view in another format than that of its image only if it is the name of
such a view.** -/
theorem Forest.reinterprets_iff (hf : f.WellFormed) (hs : f.Seated) (hd : f.Depicted)
    (hq : f.view name = .ok q) (hp : f.tracked name = .ok p)
    (hv : q.node.imageViewDesc? = some viewDesc) (hi : p.node.imageDesc? = some imageDesc) :
    f.Reinterprets name ↔ viewDesc.format ≠ imageDesc.format := by
  have hkind : q.node.kind = .imageView := Node.kind_of_imageViewDesc? hv
  have hplace : q.node.parent.bind f.place? = some p := by
    rw [parent_of_view hs hq hp]
    exact place?_eq_some_iff.2 ⟨rfl, nodes_of_tracked hp⟩
  rcases view_cases hq with ⟨hr, -⟩ | ⟨r, hr, himage, -, hname⟩
  · have hfind : f.find name = .ok q := by
      rcases resolve_cases hr with ⟨hfind, -⟩ | ⟨o, source, acquired, ho, hpayload, hchild⟩
      · exact hfind
      · -- what is acquired from a swapchain is an image
        obtain ⟨j, hj, hplace⟩ := Option.bind_eq_some_iff.1 hchild
        obtain ⟨rfl, hqn⟩ := place?_eq_some_iff.1 hplace
        have himage := hs.kind_of_shown (nodes_of_find ho).1 hpayload (List.mem_of_getElem? hj) hqn
        rw [hkind] at himage
        cases himage
    constructor
    · rintro ⟨q', p', viewDesc', imageDesc', hq', hv', hp', hi', hne⟩
      obtain rfl := Except.ok.inj (hfind.symm.trans hq')
      obtain rfl := Option.some.inj (hplace.symm.trans hp')
      obtain rfl := Option.some.inj (hv.symm.trans hv')
      obtain rfl := Option.some.inj (hi.symm.trans hi')
      exact hne
    · exact fun hne => ⟨q, p, viewDesc, imageDesc, hfind, hv, hplace, hi, hne⟩
  · rw [tracked_of_resolve hr (by rw [himage]; rfl)] at hp
    obtain rfl := Except.ok.inj hp
    refine iff_of_false ?_ (fun hne => hne (hd.format_eq hf (nodes_of_resolve hr)
      (nodes_of_view hq) hname hv hi))
    rintro ⟨q', -, viewDesc', -, hq', hv', -⟩
    have hkind' := Node.kind_of_imageViewDesc? hv'
    rw [resolve_of_find hq' (by rw [hkind']; decide)] at hr
    obtain rfl := Except.ok.inj hr
    rw [hkind'] at himage
    cases himage

end

/-! ## The formats of a frame -/

/-- Whether the names and views of a forest are those that a session on the device leads to. -/
structure Forest.Viewed (f : Forest) (d : Headless) : Prop where
  wellFormed : f.WellFormed
  seated : f.Seated
  depicted : f.Depicted
  holds : f.HoldsViews d

theorem Session.viewed_of_steps {s : Session Headless}
    (h : ReflTransGen (Step Headless.Aside) { device := {} } s) : s.forest.Viewed s.device where
  wellFormed := wellFormed_kept h .empty
  seated := seated_kept h .empty
  depicted := forest_kept Operation.depicted depicted_of_frame h .empty
  holds := holdsViews_of_steps h

section
variable {f f' : Forest} {d : Headless} {shaders : Registry} {passes : List Pass} {a : Analysis}
  {k : Nat} {uses : List Use} {use : Use} {t : RenderTarget AttachmentUse} {x : AttachmentUse}

/-- The image and the view of a use, with their formats and that of the attachment. -/
theorem Collects.formats (h : Collects f uses t) (hf : f.Viewed d) (hx : x ∈ t.attachments)
    (hview : f.imageViewHandle use.resource = .ok x.view) : ∃ p imageDesc viewDesc,
      f.tracked use.resource = .ok p ∧ p.node.imageDesc? = some imageDesc ∧
      x.format = imageDesc.format ∧ f.viewDesc? x.view = some viewDesc ∧
      (x.format = viewDesc.format ↔ ¬ f.Reinterprets use.resource) := by
  obtain ⟨q, viewDesc, origin, hq, hpayload⟩ := Forest.imageViewHandle_eq_ok_iff.1 hview
  obtain ⟨p, hp⟩ := Forest.exists_tracked hq
  obtain ⟨imageDesc, hi, hformat, -⟩ := h.image_eq hf.holds hf.seated hx hview
  rw [Forest.trackedImage?_of_tracked hp] at hi
  have hv : q.node.imageViewDesc? = some viewDesc := by rw [Node.imageViewDesc?, hpayload]
  refine ⟨p, imageDesc, viewDesc, hp, hi, hformat, hf.holds.viewDesc?_eq hq hpayload, ?_⟩
  rw [Forest.reinterprets_iff hf.wellFormed hf.seated hf.depicted hq hp hv hi, not_not, hformat]
  exact eq_comm

/-- What is described and shown at a position is the attachment there. -/
theorem exists_of_renderPassDesc {ts : List Timeline} {i : Nat} {desc : AttachmentDesc}
    (h : (t.map (AttachmentUse.finish ts k)).renderPassDesc.attachments[i]? = some desc) :
    ∃ x, t.attachments[i]? = some x ∧ desc.format = x.format ∧ ∀ renderPass,
      ((t.map (AttachmentUse.finish ts k)).framebufferDesc renderPass).attachments[i]? =
        some x.view := by
  have hattachments : ((t.map (AttachmentUse.finish ts k)).attachments.map (·.desc))[i]? =
      some desc := h
  rw [List.getElem?_map, RenderTarget.getElem?_attachments_map, Option.map_map] at hattachments
  obtain ⟨x, hx, rfl⟩ := Option.map_eq_some_iff.1 hattachments
  refine ⟨x, hx, ?_, fun renderPass => ?_⟩
  · exact x.format_desc_finish ts k
  · show ((t.map (AttachmentUse.finish ts k)).attachments.map (·.view))[i]? = _
    rw [RenderTarget.map_view_finish, List.getElem?_map, hx, Option.map_some]

theorem Collects.hasImageFormats {ts : List Timeline} (h : Collects f uses t) (hf : f.Viewed d) :
    (t.map (AttachmentUse.finish ts k)).HasImageFormats f uses := by
  intro i desc hdesc
  obtain ⟨x, hx, hformat, hviews⟩ := exists_of_renderPassDesc hdesc
  obtain ⟨use, hfirst, hattaches⟩ := h.first x (List.mem_of_getElem? hx)
  obtain ⟨p, imageDesc, viewDesc, hp, hi, himage, hv, hiff⟩ :=
    h.formats hf (List.mem_of_getElem? hx) hattaches.view
  rw [hformat]
  exact ⟨use, hfirst.mem, p, imageDesc, x.view, viewDesc, hp, hi, himage, hattaches.view, hviews,
    hv, hiff, fun hname => hiff.2 (hname.not_reinterprets hf.wellFormed hf.depicted)⟩

/-- **All formats match exactly if no use reinterprets.** -/
theorem Collects.finish_formatsMatch_iff {ts : List Timeline} (h : Collects f uses t)
    (hf : f.Viewed d) : (t.map (AttachmentUse.finish ts k)).FormatsMatch f ↔
      ∀ use ∈ uses, ¬ f.Reinterprets use.resource := by
  constructor
  · intro hmatch use huse
    obtain ⟨i, ⟨x, hx, hview⟩, -⟩ := h.held use huse
    obtain ⟨p, imageDesc, viewDesc, -, -, -, hv, hiff⟩ :=
      h.formats hf (List.mem_of_getElem? hx) hview
    have hdesc : (t.map (AttachmentUse.finish ts k)).renderPassDesc.attachments[i]? = _ :=
      getElem?_renderPassDesc hx
    obtain ⟨y, hy, hformat, hviews⟩ := exists_of_renderPassDesc hdesc
    obtain rfl := Option.some.inj (hx.symm.trans hy)
    have hsame := hmatch i _ ⟨0⟩ _ hdesc (hviews ⟨0⟩)
    rw [hv, Option.map_some, hformat] at hsame
    exact hiff.1 (Option.some.inj hsame).symm
  · intro hnone i desc renderPass v hdesc hv
    obtain ⟨x, hx, hformat, hviews⟩ := exists_of_renderPassDesc hdesc
    obtain rfl := Option.some.inj ((hviews renderPass).symm.trans hv)
    obtain ⟨use, hfirst, hattaches⟩ := h.first x (List.mem_of_getElem? hx)
    obtain ⟨p, imageDesc, viewDesc, -, -, -, hv, hiff⟩ :=
      h.formats hf (List.mem_of_getElem? hx) hattaches.view
    rw [hv, Option.map_some, hformat, hiff.2 (hnone use hfirst.mem)]

end

/-- **Attachments have the formats of images, not of views.** In any session on the headless device,
an attachment of an accepted frame has the format of the image that is attached. It has the format
of its view in the framebuffer, too, unless it is attached under the name of a view that was
registered in another format, so it always has if the name is that of an image, a swapchain or a
default view. All formats of a render pass match exactly if none of its uses names a view in another
format. -/
theorem attachment_formats {s : Session Headless}
    (hrun : ReflTransGen (Session.Step Headless.Aside) { device := {} } s) {passes : List Pass}
    {shaders : Registry} {a : Analysis} {f' : Forest}
    (h : (analyze passes s.forest shaders).result = .ok (a, f')) {k : Nat} {pass : Pass}
    (hpass : passes[k]? = some pass) (hkind : pass.kind = .render) :
    ∃ t, a.target? k = some t ∧ t.HasImageFormats s.forest pass.uses ∧
      (t.FormatsMatch s.forest ↔ ∀ use ∈ pass.uses, ¬ s.forest.Reinterprets use.resource) := by
  obtain ⟨t, hcollects, ht⟩ := exists_collects h hpass hkind
  have hviewed := Session.viewed_of_steps hrun
  exact ⟨_, ht, hcollects.hasImageFormats hviewed, hcollects.finish_formatsMatch_iff hviewed⟩

theorem attachment_formats_atelier :
    ReflTransGen (Session.Step Headless.Aside) { device := {} } Atelier.session ∧
    ∃ a f' t, (analyze [Atelier.compose] Atelier.session.forest {}).result = .ok (a, f') ∧
      a.target? 0 = some t ∧ t.HasImageFormats Atelier.session.forest Atelier.compose.uses := by
  have h : (analyze [Atelier.compose] Atelier.session.forest {}).result = .ok (_, _) := rfl
  obtain ⟨t, ht, hformats, -⟩ := attachment_formats Atelier.steps h (k := 0) rfl rfl
  exact ⟨Atelier.steps, _, _, t, h, ht, hformats⟩

/-- The canvas is attached under the name of a view with its colors in another order. -/
theorem not_forall_formatsMatch : ¬ ∀ (s : Session Headless) (passes : List Pass)
    (shaders : Registry) (a : Analysis) (f' : Forest) (k : Nat) (t : RenderTarget Attachment),
    ReflTransGen (Session.Step Headless.Aside) { device := {} } s →
    (analyze passes s.forest shaders).result = .ok (a, f') → a.target? k = some t →
    t.FormatsMatch s.forest := by
  intro h
  have hanalyze : (analyze [Atelier.compose] Atelier.session.forest {}).result = .ok (_, _) := rfl
  have hmatch := h _ _ _ _ _ 0 _ Atelier.steps hanalyze rfl
  have hsame : (Atelier.session.forest.viewDesc? ⟨3⟩).map (·.format) = some .r8g8b8a8Unorm :=
    hmatch 1 _ ⟨0⟩ ⟨3⟩ rfl rfl
  revert hsame
  decide

end FrameGraph
