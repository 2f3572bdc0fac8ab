import FrameGraph.Proofs.Frames

/-!
# Collecting attachments

A render pass collects its attachments use by use, and `Collects` tells what it has then: one
attachment for each view that a use stands for, as the first of these uses declares it, and a place
for each use in the list of its slot. The shading rate is an exception. It has room for one place
only, and a later use takes the place of an earlier one.
-/

set_option autoImplicit false

namespace FrameGraph

/-- The lists of a subpass in which attachments are referred to. -/
inductive AttachmentSlot
  | color | depth | input | shadingRate
  deriving DecidableEq

/-- The list in which the attachment of a use is referred to. -/
def Use.slot (use : Use) : AttachmentSlot :=
  if use.isOutput then if use.kind.isDepthOrStencil then .depth else .color
  else if use.kind = .shadingRate then .shadingRate else .input

/-- The list in which an attachment is referred to, from what its use declares. -/
def AttachmentUse.slot (x : AttachmentUse) : AttachmentSlot :=
  match x.role with
  | .output => if x.kind.isDepthOrStencil then .depth else .color
  | .input => .input
  | .shadingRate => .shadingRate

namespace RenderTarget

/-- The places that are noted down in a list. -/
def places {α : Type} (t : RenderTarget α) : AttachmentSlot → List Nat
  | .color => t.color
  | .depth => t.depth.toList
  | .input => t.input
  | .shadingRate => t.shadingRate.toList

@[simp] theorem places_map {α β : Type} (g : α → β) (t : RenderTarget α) (slot : AttachmentSlot) :
    (t.map g).places slot = t.places slot := by cases slot <;> rfl

@[simp] theorem getElem?_attachments_map {α β : Type} (g : α → β) (t : RenderTarget α) (i : Nat) :
    (t.map g).attachments[i]? = (t.attachments[i]?).map g := List.getElem?_map ..

/-- What happens to the contents of attachments does not change their views. -/
theorem map_view_finish (ts : List Timeline) (k : Nat) (t : RenderTarget AttachmentUse) :
    (t.map (AttachmentUse.finish ts k)).attachments.map (·.view) = t.attachments.map (·.view) := by
  show (t.attachments.map _).map _ = _
  rw [List.map_map]
  refine List.map_congr_left fun x _ => ?_
  exact congrArg AttachmentUse.view (x.toAttachmentUse_finish ts k)

/-! ## The place of a view -/

section
variable {t t' : RenderTarget AttachmentUse} {x y : AttachmentUse} {i : Nat}

/-- An attachment that is not among those collected has a view of its own. -/
theorem withAttachment_cases (t : RenderTarget AttachmentUse) (x : AttachmentUse) :
    (t.withAttachment x = t.attachments ∧
      ∃ y, t.attachments[t.place x]? = some y ∧ y.view = x.view) ∨
    t.withAttachment x = t.attachments ++ [x] ∧ t.place x = t.attachments.length ∧
      ∀ y ∈ t.attachments, y.view ≠ x.view := by
  unfold withAttachment place
  cases hfind : t.attachments.findIdx? (·.view == x.view) with
  | none =>
    have hnew : ∀ y ∈ t.attachments, y.view ≠ x.view := by
      simpa using List.findIdx?_eq_none_iff.1 hfind
    refine .inr ⟨if_neg ?_, rfl, hnew⟩
    simpa using hnew
  | some i =>
    obtain ⟨hlt, hview, -⟩ := List.findIdx?_eq_some_iff_getElem.1 hfind
    refine .inl ⟨if_pos ?_, t.attachments[i], List.getElem?_eq_getElem hlt, by simpa using hview⟩
    exact List.any_eq_true.2 ⟨_, List.getElem_mem hlt, hview⟩

/-- The place of an attachment holds its view. -/
theorem exists_getElem?_place (t : RenderTarget AttachmentUse) (x : AttachmentUse) :
    ∃ y, (t.withAttachment x)[t.place x]? = some y ∧ y.view = x.view := by
  rcases t.withAttachment_cases x with ⟨hsame, hy⟩ | ⟨hnew, hplace, -⟩
  · rwa [hsame]
  · rw [hnew, hplace]
    exact ⟨x, List.getElem?_concat_length, rfl⟩

/-- What is collected stays at its place. -/
theorem getElem?_withAttachment (h : t.attachments[i]? = some y) (x : AttachmentUse) :
    (t.withAttachment x)[i]? = some y := by
  rcases t.withAttachment_cases x with ⟨hsame, -⟩ | ⟨hnew, -, -⟩
  · rwa [hsame]
  · obtain ⟨hlt, -⟩ := List.getElem?_eq_some_iff.1 h
    rw [hnew, List.getElem?_append_left hlt]
    exact h

theorem withAttachment_of_nil (h : t.attachments = []) (x : AttachmentUse) :
    t.withAttachment x = [x] := by
  simp [withAttachment, h]

/-- The first attachment stays the first. -/
theorem head?_withAttachment (h : t.attachments.head? = some y) (x : AttachmentUse) :
    (t.withAttachment x).head? = some y := by
  rw [List.head?_eq_getElem?] at h ⊢
  exact getElem?_withAttachment h x

/-- No view is collected twice. -/
theorem nodup_withAttachment (h : (t.attachments.map (·.view)).Nodup) (x : AttachmentUse) :
    ((t.withAttachment x).map (·.view)).Nodup := by
  rcases t.withAttachment_cases x with ⟨hsame, -⟩ | ⟨hnew, -, hviews⟩
  · rwa [hsame]
  · rw [hnew, List.map_append, List.nodup_append]
    refine ⟨h, by simp, fun v hv w hw => ?_⟩
    obtain ⟨y, hy, rfl⟩ := List.mem_map.1 hv
    obtain rfl := List.mem_singleton.1 hw
    exact hviews y hy

theorem mem_addPlace_iff {places : List Nat} {j : Nat} :
    j ∈ addPlace places i ↔ j ∈ places ∨ j = i := by
  unfold addPlace
  split
  · next hi => exact ⟨.inl, fun h => h.elim id fun h => h ▸ hi⟩
  · simp

theorem nodup_addPlace {places : List Nat} (h : places.Nodup) (i : Nat) :
    (addPlace places i).Nodup := by
  unfold addPlace
  split
  · exact h
  · next hi =>
    refine List.nodup_append.2 ⟨h, by simp, fun a ha b hb hab => hi ?_⟩
    rwa [← List.mem_singleton.1 hb, ← hab]

/-- The places of a slot with one more place: there is one shading rate, the last. -/
def notePlace (places : List Nat) (i : Nat) : AttachmentSlot → List Nat
  | .shadingRate => [i]
  | _ => addPlace places i

theorem mem_notePlace_iff {places : List Nat} {j : Nat} {slot : AttachmentSlot}
    (hslot : slot ≠ .shadingRate) : j ∈ notePlace places i slot ↔ j ∈ places ∨ j = i := by
  cases slot with
  | shadingRate => exact absurd rfl hslot
  | _ => exact mem_addPlace_iff

theorem mem_notePlace {places : List Nat} {j : Nat} {slot : AttachmentSlot}
    (h : j ∈ notePlace places i slot) : j ∈ places ∨ j = i := by
  cases slot with
  | shadingRate => exact .inr (List.mem_singleton.1 h)
  | _ => exact mem_addPlace_iff.1 h

theorem nodup_notePlace {places : List Nat} (h : places.Nodup) (i : Nat) (slot : AttachmentSlot) :
    (notePlace places i slot).Nodup := by
  cases slot with
  | shadingRate => exact List.pairwise_singleton _ i
  | _ => exact nodup_addPlace h i

/-- A use of an attachment is noted down in its slot and in no other. -/
theorem places_of_add {extent : Extent} (h : t.add x extent = .ok t') (slot : AttachmentSlot) :
    t'.places slot =
      if slot = x.slot then notePlace (t.places slot) (t.place x) slot else t.places slot := by
  unfold add at h
  dsimp only at h
  split at h
  · next hrole =>
    by_cases hkind : x.kind.isDepthOrStencil = true
    · have hslot : x.slot = .depth := by simp [AttachmentUse.slot, hrole, hkind]
      rw [if_pos hkind] at h
      split at h
      · next j hj =>
        split at h
        · next hji =>
          cases h
          cases slot <;> simp [hslot, places, notePlace, addPlace, hj, hji]
        · cases h
      · next hnone =>
        cases h
        cases slot <;> simp [hslot, places, notePlace, addPlace, hnone]
    · have hslot : x.slot = .color := by simp [AttachmentUse.slot, hrole, hkind]
      rw [if_neg hkind] at h
      cases h
      cases slot <;> simp [hslot, places, notePlace]
  · next hrole =>
    have hslot : x.slot = .input := by simp [AttachmentUse.slot, hrole]
    cases h
    cases slot <;> simp [hslot, places, notePlace]
  · next hrole =>
    have hslot : x.slot = .shadingRate := by simp [AttachmentUse.slot, hrole]
    cases h
    cases slot <;> simp [hslot, places, notePlace]

end

end RenderTarget

/-! ## What is collected -/

/-- The image on which the accesses under a name are recorded. -/
def Forest.trackedImage? (f : Forest) (name : String) : Option ImageDesc :=
  (f.tracked name).toOption.bind (·.node.imageDesc?)

theorem Forest.trackedImage?_of_tracked {f : Forest} {name : String} {p : Place}
    (hp : f.tracked name = .ok p) : f.trackedImage? name = p.node.imageDesc? := by
  rw [trackedImage?, hp]
  rfl

/-- Whether an attachment is that of a use: the image on which the accesses under its name are
recorded, seen through the view that the name stands for. -/
structure Attaches (f : Forest) (use : Use) (x : AttachmentUse) : Prop where
  resource : x.resource = use.resource
  view : f.imageViewHandle use.resource = .ok x.view
  role : x.role = .ofUse use
  kind : x.kind = use.kind
  image : ∃ p desc, f.tracked use.resource = .ok p ∧ p.index = x.tracked ∧
    p.node.imageDesc? = some desc ∧ x.format = desc.format ∧ x.samples = desc.samples

/-- Whether a use is the first of those that stand for a view. -/
def FirstUse (f : Forest) (uses : List Use) (v : Handle .imageView) (use : Use) : Prop :=
  ∃ pre post, uses = pre ++ use :: post ∧ f.imageViewHandle use.resource = .ok v ∧
    ∀ u ∈ pre, f.imageViewHandle u.resource ≠ .ok v

/-- Whether the attachment at a place has the view that a use stands for. -/
def RenderTarget.Holds (t : RenderTarget AttachmentUse) (f : Forest) (i : Nat) (use : Use) : Prop :=
  ∃ x, t.attachments[i]? = some x ∧ f.imageViewHandle use.resource = .ok x.view

/-- Whether attachments are those of the uses of a render pass. -/
structure Collects (f : Forest) (uses : List Use) (t : RenderTarget AttachmentUse) : Prop where
  /-- Each view has one attachment. -/
  views : (t.attachments.map (·.view)).Nodup
  /-- The first use of a view tells what its attachment is. -/
  first : ∀ x ∈ t.attachments, ∃ use, FirstUse f uses x.view use ∧ Attaches f use x
  /-- A place is that of a use of the slot. -/
  used : ∀ slot, ∀ i ∈ t.places slot, ∃ use ∈ uses, use.slot = slot ∧ t.Holds f i use
  /-- A use has a place, and if it sets no shading rate the place is noted down. -/
  held : ∀ use ∈ uses, ∃ i, t.Holds f i use ∧ (use.slot ≠ .shadingRate → i ∈ t.places use.slot)
  /-- Of the uses that set the shading rate the last has its place noted down. -/
  rate : ∀ use, (uses.filter (·.slot = .shadingRate)).getLast? = some use →
    ∃ i, t.places .shadingRate = [i] ∧ t.Holds f i use
  nodup : ∀ slot, (t.places slot).Nodup
  /-- The attachment of the first use comes first. -/
  head : ∀ use, uses.head? = some use → ∃ x, t.attachments.head? = some x ∧ Attaches f use x
  /-- The size is that of an image whose view comes first. -/
  extent : ∀ x, t.attachments.head? = some x → ∃ (use : Use) (desc : ImageDesc),
    f.imageViewHandle use.resource = .ok x.view ∧ f.trackedImage? use.resource = some desc ∧
    t.extent = desc.extent

section
variable {f : Forest} {use : Use} {uses : List Use} {x : AttachmentUse}
  {t t' : RenderTarget AttachmentUse} {i : Nat}

/-- An attachment is referred to where its use is. -/
theorem Attaches.slot (h : Attaches f use x) : x.slot = use.slot := by
  unfold AttachmentUse.slot Use.slot
  rw [h.role, h.kind, AttachmentRole.ofUse]
  by_cases houtput : use.isOutput = true
  · simp [houtput]
  · by_cases hkind : use.kind = .shadingRate
    · simp [houtput, hkind]
    · simp [houtput, hkind]

/-- An attachment has the format and the samples of the image of its use. -/
theorem Attaches.exists_trackedImage (h : Attaches f use x) : ∃ image,
    f.trackedImage? use.resource = some image ∧ x.format = image.format ∧
    x.samples = image.samples := by
  obtain ⟨p, image, hp, -, himage, hsame⟩ := h.image
  exact ⟨image, (Forest.trackedImage?_of_tracked hp).trans himage, hsame⟩

theorem FirstUse.mem {v : Handle .imageView} (h : FirstUse f uses v use) : use ∈ uses := by
  obtain ⟨pre, post, rfl, -⟩ := h
  simp

theorem FirstUse.append {v : Handle .imageView} (h : FirstUse f uses v use) (more : List Use) :
    FirstUse f (uses ++ more) v use := by
  obtain ⟨pre, post, rfl, hfirst⟩ := h
  exact ⟨pre, post ++ more, by simp, hfirst⟩

theorem RenderTarget.Holds.withAttachment (h : t.Holds f i use)
    (ht : t'.attachments = t.withAttachment x) : t'.Holds f i use := by
  obtain ⟨y, hy, hview⟩ := h
  exact ⟨y, ht ▸ getElem?_withAttachment hy x, hview⟩

/-- The use of an attachment has its view at the attachment's place. -/
theorem Attaches.holds (h : Attaches f use x) (ht : t'.attachments = t.withAttachment x) :
    t'.Holds f (t.place x) use := by
  obtain ⟨y, hy, hview⟩ := t.exists_getElem?_place x
  exact ⟨y, ht ▸ hy, hview ▸ h.view⟩

theorem Collects.empty {pass : Nat} : Collects f [] { pass } where
  views := by simp
  first x hx := by cases hx
  used slot i hi := by cases slot <;> cases hi
  held use huse := by cases huse
  rate use huse := by cases huse
  nodup slot := by cases slot <;> exact List.nodup_nil
  head use huse := by cases huse
  extent x hx := by cases hx

/-- With one more use, an attachment is either as before or that of the use, if no use before stands
for its view. -/
theorem Collects.first_withAttachment (h : Collects f uses t) (hx : Attaches f use x)
    {y : AttachmentUse} (hy : y ∈ t.withAttachment x) :
    ∃ u, FirstUse f (uses ++ [use]) y.view u ∧ Attaches f u y := by
  have hold (hy : y ∈ t.attachments) :
      ∃ u, FirstUse f (uses ++ [use]) y.view u ∧ Attaches f u y := by
    obtain ⟨u, hu, hattaches⟩ := h.first y hy
    exact ⟨u, hu.append _, hattaches⟩
  rcases t.withAttachment_cases x with ⟨hsame, -⟩ | ⟨hnew, -, hviews⟩
  · exact hold (hsame ▸ hy)
  · rw [hnew, List.mem_append] at hy
    rcases hy with hy | hy
    · exact hold hy
    · obtain rfl := List.mem_singleton.1 hy
      refine ⟨use, ⟨uses, [], rfl, hx.view, fun u hu hview => ?_⟩, hx⟩
      obtain ⟨i, ⟨z, hz, hzview⟩, -⟩ := h.held u hu
      rw [hview] at hzview
      exact hviews z (List.mem_of_getElem? hz) (Except.ok.inj hzview).symm

/-- Nothing is attached only where nothing is used. -/
theorem Collects.attachments_eq_nil_iff (h : Collects f uses t) :
    t.attachments = [] ↔ uses = [] := by
  constructor
  · intro hnil
    refine List.eq_nil_iff_forall_not_mem.2 fun use huse => ?_
    obtain ⟨i, ⟨x, hx, -⟩, -⟩ := h.held use huse
    rw [hnil] at hx
    cases hx
  · rintro rfl
    refine List.eq_nil_iff_forall_not_mem.2 fun x hx => ?_
    obtain ⟨use, hfirst, -⟩ := h.first x hx
    cases hfirst.mem

/-- **One more use.** -/
theorem Collects.add {desc : ImageDesc} (h : Collects f uses t) (hx : Attaches f use x)
    (hdesc : f.trackedImage? use.resource = some desc)
    (hadd : t.add x desc.extent = .ok t') : Collects f (uses ++ [use]) t' := by
  obtain ⟨-, hattachments, hextent⟩ := RenderTarget.add_ok hadd
  have hplaces := RenderTarget.places_of_add hadd
  have hholds := hx.holds hattachments
  rw [hx.slot] at hplaces
  constructor
  case views =>
    rw [hattachments]
    exact RenderTarget.nodup_withAttachment h.views x
  case first =>
    intro y hy
    rw [hattachments] at hy
    exact h.first_withAttachment hx hy
  case used =>
    intro slot i hi
    have hold (hi : i ∈ t.places slot) :
        ∃ u ∈ uses ++ [use], u.slot = slot ∧ t'.Holds f i u := by
      obtain ⟨u, hu, hslot, hi⟩ := h.used slot i hi
      exact ⟨u, List.mem_append_left _ hu, hslot, hi.withAttachment hattachments⟩
    rw [hplaces] at hi
    split at hi
    · next hslot =>
      rcases RenderTarget.mem_notePlace hi with hi | rfl
      · exact hold hi
      · exact ⟨use, by simp, hslot.symm, hholds⟩
    · exact hold hi
  case held =>
    intro u hu
    rcases List.mem_append.1 hu with hu | hu
    · obtain ⟨i, hi, hlisted⟩ := h.held u hu
      refine ⟨i, hi.withAttachment hattachments, fun hslot => ?_⟩
      rw [hplaces]
      split
      · next hsame => exact (RenderTarget.mem_notePlace_iff hslot).2 (.inl (hlisted hslot))
      · exact hlisted hslot
    · obtain rfl := List.mem_singleton.1 hu
      refine ⟨_, hholds, fun hslot => ?_⟩
      rw [hplaces, if_pos rfl]
      exact (RenderTarget.mem_notePlace_iff hslot).2 (.inr rfl)
  case rate =>
    intro u hu
    have hrate := hplaces .shadingRate
    by_cases hslot : use.slot = .shadingRate
    · rw [if_pos hslot.symm] at hrate
      obtain rfl : use = u := by simpa [hslot] using hu
      exact ⟨_, hrate, hholds⟩
    · rw [if_neg (Ne.symm hslot)] at hrate
      obtain ⟨i, hi, hu⟩ := h.rate u (by simpa [hslot] using hu)
      exact ⟨i, hrate.trans hi, hu.withAttachment hattachments⟩
  case nodup =>
    intro slot
    rw [hplaces]
    split
    · exact RenderTarget.nodup_notePlace (h.nodup slot) _ slot
    · exact h.nodup slot
  case head =>
    intro u hu
    rw [hattachments]
    cases uses with
    | nil =>
      obtain rfl : use = u := by simpa using hu
      rw [RenderTarget.withAttachment_of_nil (h.attachments_eq_nil_iff.2 rfl)]
      exact ⟨x, rfl, hx⟩
    | cons first rest =>
      obtain ⟨y, hy, hattaches⟩ := h.head u (by simpa using hu)
      exact ⟨y, RenderTarget.head?_withAttachment hy x, hattaches⟩
  case extent =>
    intro y hy
    rw [hattachments] at hy
    by_cases hone : (t.withAttachment x).length = 1
    · -- the only attachment has the view of the use
      obtain ⟨z, hz, hview⟩ := t.exists_getElem?_place x
      obtain ⟨w, hw⟩ := List.length_eq_one_iff.1 hone
      rw [hw] at hy hz
      obtain rfl := Option.some.inj hy
      obtain rfl := List.mem_singleton.1 (List.mem_of_getElem? hz)
      exact ⟨use, desc, hview ▸ hx.view, hdesc, by rw [hextent, if_pos hone]⟩
    · have hne : t.attachments ≠ [] := fun hnil =>
        hone (by rw [RenderTarget.withAttachment_of_nil hnil]; rfl)
      obtain ⟨z, hz⟩ := Option.ne_none_iff_exists'.1 (mt List.head?_eq_none_iff.1 hne)
      obtain rfl := Option.some.inj ((RenderTarget.head?_withAttachment hz x).symm.trans hy)
      obtain ⟨u, desc', hu, hdesc', hsize⟩ := h.extent z hz
      exact ⟨u, desc', hu, hdesc', by rw [hextent, if_neg hone, hsize]⟩

/-- An attachment has the view that its resource stands for. -/
theorem Collects.imageViewHandle_eq (h : Collects f uses t) (hx : x ∈ t.attachments) :
    f.imageViewHandle x.resource = .ok x.view := by
  obtain ⟨use, -, hattaches⟩ := h.first x hx
  rw [hattaches.resource]
  exact hattaches.view

/-! ## The uses of a render pass -/

variable {shaders : Registry} {pass : Pass} {done r : PassUses}

/-- A use in a render pass is that of an attachment. -/
theorem Usage.ofAttachment_of_classify {use : Use} {n : Node} {u : Usage}
    (hkind : pass.kind = .render) (h : (classify shaders pass use n).result = .ok u) :
    ofAttachment pass.name use n = .ok u := by
  unfold classify at h
  rw [hkind] at h
  exact h

theorem isSome_imageDesc?_of_classify {use : Use} {n : Node} {u : Usage}
    (hkind : pass.kind = .render) (h : (Usage.classify shaders pass use n).result = .ok u) :
    n.imageDesc?.isSome = true := by
  have h := Usage.ofAttachment_of_classify hkind h
  cases hdesc : n.imageDesc? with
  | none => simp [Usage.ofAttachment, hdesc] at h
  | some desc => rfl

theorem exists_attaches {p : Place} {desc : ImageDesc} (hp : f.tracked use.resource = .ok p)
    (hdesc : p.node.imageDesc? = some desc) (h : attach f use p t = .ok t') :
    ∃ x, Attaches f use x ∧ t.add x desc.extent = .ok t' := by
  unfold attach at h
  rw [hdesc] at h
  obtain ⟨view, hview, h⟩ := Except.bind_eq_ok_iff.1 h
  exact ⟨_, ⟨rfl, hview, rfl, rfl, p, desc, hp, rfl, hdesc, rfl, rfl⟩, h⟩

/-- What is collected with one more use of a render pass. -/
theorem Collects.step (h : Collects f uses t) (hkind : pass.kind = .render)
    (ht : done.target = some t) (hr : (addUse f shaders pass done use).result = .ok r) :
    ∃ t', r.target = some t' ∧ Collects f (uses ++ [use]) t' := by
  obtain ⟨p, usage, target, hp, -, hclassify, htarget, rfl⟩ := addUse_eq_ok_iff.1 hr
  rw [ht] at htarget
  obtain ⟨t', ht', rfl⟩ := Except.map_eq_ok_iff.1 htarget
  obtain ⟨desc, hdesc⟩ :=
    Option.isSome_iff_exists.1 (isSome_imageDesc?_of_classify hkind hclassify)
  obtain ⟨x, hx, hadd⟩ := exists_attaches hp hdesc ht'
  exact ⟨t', rfl, h.add hx ((Forest.trackedImage?_of_tracked hp).trans hdesc) hadd⟩

theorem Collects.run {more : List Use} (h : Collects f uses t)
    (hkind : pass.kind = .render) (ht : done.target = some t)
    (hr : (more.foldlM (addUse f shaders pass) done).result = .ok r) :
    ∃ t', r.target = some t' ∧ Collects f (uses ++ more) t' := by
  induction more generalizing uses done t with
  | nil =>
    obtain rfl := Except.ok.inj hr
    exact ⟨t, ht, by rwa [List.append_nil]⟩
  | cons use more ih =>
    rw [List.foldlM_cons, Traced.result_bind, Except.bind_eq_ok_iff] at hr
    obtain ⟨mid, hmid, hr⟩ := hr
    obtain ⟨t₁, ht₁, hcollects⟩ := h.step hkind ht hmid
    obtain ⟨t', ht', hcollects⟩ := ih hcollects ht₁ hr
    exact ⟨t', ht', by rwa [List.append_assoc] at hcollects⟩

/-- **A render pass collects the attachments of its uses.** -/
theorem collects_of_passUses {index : Nat} (hkind : pass.kind = .render)
    (hr : (passUses f shaders index pass).result = .ok r) :
    ∃ t, r.target = some t ∧ Collects f pass.uses t := by
  unfold passUses at hr
  rw [if_pos hkind] at hr
  exact Collects.empty.run hkind rfl hr

end

end FrameGraph
