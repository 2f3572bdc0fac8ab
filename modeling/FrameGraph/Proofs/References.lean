import FrameGraph.Proofs.Attachments
import FrameGraph.Proofs.Records

/-!
# What a subpass refers to

A subpass refers to the attachments of its render pass in four lists. A use has its attachment in
the list of its slot (`RenderTarget.RefersTo`), so that each attachment is referred to by the use
that made it. Only the shading rate can be lost: a second one takes the place of the first without a
fault, whereas a second depth attachment is one (`dropsNothing_iff`).
-/

set_option autoImplicit false

namespace FrameGraph

/-- The references of a subpass in a slot. -/
def SubpassDesc.refs (d : SubpassDesc) : AttachmentSlot → List AttachmentRef
  | .color => d.color
  | .depth => d.depthStencil.toList
  | .input => d.input
  | .shadingRate => d.shadingRate.toList

namespace RenderTarget

/-- Whether a subpass refers to an attachment in a slot. -/
def Refers (t : RenderTarget Attachment) (slot : AttachmentSlot) (x : Attachment) : Prop :=
  ∃ subpass ∈ t.renderPassDesc.subpasses, ∃ r ∈ subpass.refs slot,
    t.attachments[r.attachment]? = some x

instance (t : RenderTarget Attachment) (slot : AttachmentSlot) (x : Attachment) :
    Decidable (t.Refers slot x) :=
  inferInstanceAs (Decidable (∃ subpass ∈ t.renderPassDesc.subpasses, ∃ r ∈ subpass.refs slot, _))

/-- Whether a subpass refers to the attachment of a use where the use declares it. -/
def RefersTo (t : RenderTarget Attachment) (f : Forest) (use : Use) : Prop :=
  ∃ x, f.imageViewHandle use.resource = .ok x.view ∧ t.Refers use.slot x

/-- Whether a subpass refers to what the uses of its pass declare, and to all attachments. -/
structure DropsNothing (t : RenderTarget Attachment) (f : Forest) (uses : List Use) : Prop where
  uses : ∀ use ∈ uses, t.RefersTo f use
  attachments : ∀ x ∈ t.attachments, ∃ slot, t.Refers slot x

end RenderTarget

/-- Whether no render pass of a frame drops an attachment. -/
def Analysis.DropsNothing (a : Analysis) (f : Forest) (passes : List Pass) : Prop :=
  ∀ (k : Nat) pass, passes[k]? = some pass → pass.kind = .render →
    ∃ t, a.target? k = some t ∧ t.DropsNothing f pass.uses

section
variable {f : Forest} {use u : Use} {uses : List Use} {ts : List Timeline} {k i j : Nat}

/-- The references of the subpass are the places that are noted down. -/
theorem RenderTarget.refs_of_mem {t : RenderTarget Attachment} {subpass : SubpassDesc}
    (h : subpass ∈ t.renderPassDesc.subpasses) (slot : AttachmentSlot) :
    subpass.refs slot = (t.places slot).map t.ref := by
  obtain rfl := List.mem_singleton.1 h
  cases slot with
  | color => rfl
  | input => rfl
  | depth => cases hdepth : t.depth <;> simp [SubpassDesc.refs, places, hdepth]
  | shadingRate => cases hrate : t.shadingRate <;> simp [SubpassDesc.refs, places, hrate]

/-- What is noted down in a slot is referred to there. -/
theorem RenderTarget.exists_ref {t : RenderTarget Attachment} {slot : AttachmentSlot}
    (hi : i ∈ t.places slot) :
    ∃ subpass ∈ t.renderPassDesc.subpasses, t.ref i ∈ subpass.refs slot := by
  refine ⟨_, List.mem_singleton_self _, ?_⟩
  rw [refs_of_mem (List.mem_singleton_self _)]
  exact List.mem_map_of_mem hi

theorem RenderTarget.refers_iff {t : RenderTarget Attachment} {slot : AttachmentSlot}
    {x : Attachment} : t.Refers slot x ↔ ∃ i ∈ t.places slot, t.attachments[i]? = some x := by
  constructor
  · rintro ⟨subpass, hsubpass, r, hr, hx⟩
    rw [refs_of_mem hsubpass] at hr
    obtain ⟨i, hi, rfl⟩ := List.mem_map.1 hr
    exact ⟨i, hi, hx⟩
  · rintro ⟨i, hi, hx⟩
    obtain ⟨subpass, hsubpass, hr⟩ := exists_ref hi
    exact ⟨subpass, hsubpass, t.ref i, hr, hx⟩

variable {t : RenderTarget AttachmentUse}

/-- What happens to the contents of attachments does not matter for the references. -/
theorem RenderTarget.refersTo_finish_iff :
    (t.map (AttachmentUse.finish ts k)).RefersTo f use ↔
      ∃ i ∈ t.places use.slot, t.Holds f i use := by
  have hview (y : AttachmentUse) : (y.finish ts k).view = y.view := by
    rw [AttachmentUse.toAttachmentUse_finish]
  simp only [RefersTo, refers_iff, places_map, getElem?_attachments_map, Holds]
  constructor
  · rintro ⟨x, hx, i, hi, hxi⟩
    obtain ⟨y, hy, rfl⟩ := Option.map_eq_some_iff.1 hxi
    exact ⟨i, hi, y, hy, hview y ▸ hx⟩
  · rintro ⟨i, hi, y, hy, hyview⟩
    exact ⟨y.finish ts k, (hview y).symm ▸ hyview, i, hi, by rw [hy, Option.map_some]⟩

/-- Uses with one place stand for one view. -/
theorem RenderTarget.Holds.imageViewHandle_eq (h : t.Holds f i use) (hu : t.Holds f i u) :
    f.imageViewHandle use.resource = f.imageViewHandle u.resource := by
  obtain ⟨x, hx, hview⟩ := h
  obtain ⟨y, hy, huview⟩ := hu
  obtain rfl := Option.some.inj (hx.symm.trans hy)
  exact hview.trans huview.symm

/-- A use has the place of each use that stands for the same view. -/
theorem RenderTarget.Holds.of_eq (h : t.Holds f i use)
    (hu : f.imageViewHandle u.resource = f.imageViewHandle use.resource) : t.Holds f i u := by
  obtain ⟨x, hx, hview⟩ := h
  exact ⟨x, hx, hu.trans hview⟩

/-- There is one place for the shading rate. -/
theorem RenderTarget.eq_of_mem_shadingRate (hi : i ∈ t.places .shadingRate)
    (hj : j ∈ t.places .shadingRate) : i = j := by
  have hi : t.shadingRate = some i := by simpa [places] using hi
  have hj : t.shadingRate = some j := by simpa [places] using hj
  exact Option.some.inj (hi.symm.trans hj)

namespace Collects

variable (h : Collects f uses t)
include h

/-- A use that sets no shading rate is referred to. -/
theorem refersTo_of_ne (huse : use ∈ uses) (hslot : use.slot ≠ .shadingRate) :
    (t.map (AttachmentUse.finish ts k)).RefersTo f use := by
  obtain ⟨i, hi, hlisted⟩ := h.held use huse
  exact RenderTarget.refersTo_finish_iff.2 ⟨i, hlisted hslot, hi⟩

/-- The last use that sets the shading rate is referred to. -/
theorem refersTo_last (huse : (uses.filter (·.slot = .shadingRate)).getLast? = some use) :
    (t.map (AttachmentUse.finish ts k)).RefersTo f use := by
  have hslot : use.slot = .shadingRate := by
    simpa using List.of_mem_filter (List.mem_of_getLast? huse)
  obtain ⟨i, hi, hholds⟩ := h.rate use huse
  refine RenderTarget.refersTo_finish_iff.2 ⟨i, ?_, hholds⟩
  rw [hslot, hi]
  exact List.mem_singleton_self i

/-- Where all uses are referred to, so are the attachments: each has been made by a use. -/
theorem refers_of_uses (huses : ∀ use ∈ uses, (t.map (AttachmentUse.finish ts k)).RefersTo f use)
    {x : Attachment} (hx : x ∈ (t.map (AttachmentUse.finish ts k)).attachments) :
    ∃ slot, (t.map (AttachmentUse.finish ts k)).Refers slot x := by
  obtain ⟨y, hy, rfl⟩ := List.mem_map.1 hx
  obtain ⟨use, hfirst, hattaches⟩ := h.first y hy
  obtain ⟨i, hi, z, hz, hview⟩ := RenderTarget.refersTo_finish_iff.1 (huses use hfirst.mem)
  rw [hattaches.view] at hview
  obtain rfl : y = z :=
    List.inj_on_of_nodup_map h.views hy (List.mem_of_getElem? hz) (Except.ok.inj hview)
  refine ⟨use.slot, RenderTarget.refers_iff.2 ⟨i, by rwa [RenderTarget.places_map], ?_⟩⟩
  rw [RenderTarget.getElem?_attachments_map, hz, Option.map_some]

/-- **A render pass drops nothing exactly if it has one shading rate.** -/
theorem finish_dropsNothing_iff :
    (t.map (AttachmentUse.finish ts k)).DropsNothing f uses ↔
      ∀ use ∈ uses, ∀ u ∈ uses, use.slot = .shadingRate → u.slot = .shadingRate →
        f.imageViewHandle use.resource = f.imageViewHandle u.resource := by
  constructor
  · rintro ⟨hrefers, -⟩ use huse u hu hslot huslot
    obtain ⟨i, hi, hholds⟩ := RenderTarget.refersTo_finish_iff.1 (hrefers use huse)
    obtain ⟨j, hj, huholds⟩ := RenderTarget.refersTo_finish_iff.1 (hrefers u hu)
    rw [hslot] at hi
    rw [huslot] at hj
    obtain rfl := RenderTarget.eq_of_mem_shadingRate hi hj
    exact hholds.imageViewHandle_eq huholds
  · intro hone
    have huses (use : Use) (huse : use ∈ uses) :
        (t.map (AttachmentUse.finish ts k)).RefersTo f use := by
      by_cases hslot : use.slot = .shadingRate
      · have hmem : use ∈ uses.filter (·.slot = .shadingRate) := by simp [huse, hslot]
        obtain ⟨last, hlast⟩ := Option.isSome_iff_exists.1
          (List.getLast?_isSome.2 (List.ne_nil_of_mem hmem))
        obtain ⟨hlastmem, hlastslot⟩ : last ∈ uses ∧ last.slot = .shadingRate := by
          simpa using List.mem_of_getLast? hlast
        obtain ⟨i, hi, hholds⟩ := h.rate last hlast
        have hsame := hone use huse last hlastmem hslot hlastslot
        refine RenderTarget.refersTo_finish_iff.2 ⟨i, ?_, hholds.of_eq hsame⟩
        rw [hslot, hi]
        exact List.mem_singleton_self i
      · exact h.refersTo_of_ne huse hslot
    exact ⟨huses, fun x hx => h.refers_of_uses huses hx⟩

end Collects

end

/-! ## Frames -/

section
variable {f f' : Forest} {shaders : Registry} {passes : List Pass} {a : Analysis}

/-- **Only shading rates are dropped.** A render pass of an accepted frame refers to the attachment
of each of its uses in the slot of the use, but of the uses that set the shading rate it need only
refer to the last. So a frame drops nothing exactly if in each render pass all uses that set the
shading rate stand for one view. -/
theorem dropsNothing_iff (h : (analyze passes f shaders).result = .ok (a, f')) :
    (∀ (k : Nat) pass, passes[k]? = some pass → pass.kind = .render → ∃ t, a.target? k = some t ∧
      (∀ use ∈ pass.uses, use.slot ≠ .shadingRate → t.RefersTo f use) ∧
      ∀ use, (pass.uses.filter (·.slot = .shadingRate)).getLast? = some use → t.RefersTo f use) ∧
    (a.DropsNothing f passes ↔ ∀ pass ∈ passes, pass.kind = .render →
      ∀ use ∈ pass.uses, ∀ u ∈ pass.uses, use.slot = .shadingRate → u.slot = .shadingRate →
        f.imageViewHandle use.resource = f.imageViewHandle u.resource) := by
  refine ⟨fun k pass hpass hkind => ?_, fun hdrops pass hmem hkind => ?_,
    fun hone k pass hpass hkind => ?_⟩
  · obtain ⟨t, hcollects, ht⟩ := exists_collects h hpass hkind
    exact ⟨_, ht, fun use huse hslot => hcollects.refersTo_of_ne huse hslot,
      fun use huse => hcollects.refersTo_last huse⟩
  · obtain ⟨k, hpass⟩ := List.mem_iff_getElem?.1 hmem
    obtain ⟨t, hcollects, ht⟩ := exists_collects h hpass hkind
    obtain ⟨t', ht', hnothing⟩ := hdrops k pass hpass hkind
    obtain rfl := Option.some.inj (ht.symm.trans ht')
    exact hcollects.finish_dropsNothing_iff.1 hnothing
  · obtain ⟨t, hcollects, ht⟩ := exists_collects h hpass hkind
    refine ⟨_, ht, hcollects.finish_dropsNothing_iff.2 ?_⟩
    exact hone pass (List.mem_of_getElem? hpass) hkind

end

open Relation (ReflTransGen)

/-! ### Two shading rates -/

namespace Gallery

/-- The canvas is drawn to at the rate that the canvas itself sets, under both of its names. -/
def hatch : List Pass :=
  [⟨"hatch", .render,
    [.colorOutput "canvas", .shadingRate "canvas", .shadingRate "canvas/canvas"]⟩]

/-- Two images set the shading rate. -/
def stipple : List Pass := [⟨"stipple", .render, [.shadingRate "canvas", .shadingRate "window"]⟩]

end Gallery

theorem dropsNothing_iff_hatch :
    ∃ a f', (analyze Gallery.hatch Gallery.session.forest {}).result = .ok (a, f') ∧
      a.DropsNothing Gallery.session.forest Gallery.hatch := by
  have h : (analyze Gallery.hatch Gallery.session.forest {}).result = .ok (_, _) := rfl
  refine ⟨_, _, h, (dropsNothing_iff h).2.2 ?_⟩
  intro pass hpass _
  obtain rfl := List.mem_singleton.1 hpass
  intro use huse u hu hslot huslot
  have hview {use : Use} (huse : use ∈ [Use.colorOutput "canvas", .shadingRate "canvas",
      .shadingRate "canvas/canvas"]) :
      Gallery.session.forest.imageViewHandle use.resource = .ok ⟨4⟩ := by
    simp only [List.mem_cons, List.not_mem_nil, or_false] at huse
    rcases huse with rfl | rfl | rfl <;> rfl
  exact (hview huse).trans (hview hu).symm

/-- The second shading rate takes the place of the first, which no subpass refers to then. -/
theorem not_forall_dropsNothing : ¬ ∀ (s : Session Headless) (passes : List Pass)
    (shaders : Registry) (a : Analysis) (f' : Forest),
    ReflTransGen (Session.Step (δ := Headless) fun _ _ => False)
      { device := { lastHandle := 1 } } s →
    (analyze passes s.forest shaders).result = .ok (a, f') → a.DropsNothing s.forest passes := by
  intro h
  have hanalyze : (analyze Gallery.stipple Gallery.session.forest {}).result = .ok (_, _) := rfl
  obtain ⟨t, ht, hdrops⟩ := h _ _ _ _ _ Gallery.steps hanalyze 0 _ rfl rfl
  obtain rfl := Option.some.inj ht
  obtain ⟨slot, hrefers⟩ := hdrops.attachments _ List.mem_cons_self
  revert hrefers
  cases slot <;> decide

end FrameGraph
