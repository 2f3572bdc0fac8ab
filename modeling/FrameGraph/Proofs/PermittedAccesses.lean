import FrameGraph.Proofs.CarriedStates
import FrameGraph.Proofs.Records

/-!
# Layouts that permit the accesses

An image is in one layout during a pass, whatever the pass does to it, and a layout permits only
some accesses (`ImageLayout.permitTable`). The layout is found from all accesses together, by the
first that is made: transfers, then shaders, then attachments. What a pass can do to an image is
bounded by the kind of the pass (`PassKind.imageAccesses`), so accesses of two of these groups never
come together, but those of one group can. The layout permits all of them unless they clash
(`layout_permits_iff`): the image is both sides of a copy, or it is attached in two ways and no
fragment reads it. Then the layout is that of the access that comes first (`AccessMask.first?`).
-/

set_option autoImplicit false

namespace FrameGraph

/-! ## What layouts permit -/

namespace AccessMask

def every : AccessMask := ⟨BitVec.allOnes 64⟩

/-- The accesses by which an image is attached, one for each way. -/
def attachments : List AccessMask :=
  [colorAttachmentWrite, depthStencilAttachmentWrite, shadingRateAttachmentRead]

/-- Whether accesses ask for two layouts: an image is copied onto itself, or it is attached in two
ways where no fragment reads it. -/
def Clashes (a : AccessMask) : Prop :=
  (transferRead ⊆ a ∧ transferWrite ⊆ a) ∨
    ¬ inputAttachmentRead ⊆ a ∧ ∃ x ∈ attachments, ∃ y ∈ attachments, x ≠ y ∧ x ⊆ a ∧ y ⊆ a

instance (a : AccessMask) : Decidable a.Clashes :=
  inferInstanceAs (Decidable (_ ∧ _ ∨ ¬ _ ∧ ∃ x ∈ attachments, ∃ y ∈ attachments, _ ∧ _ ∧ _))

/-- The accesses that can clash and the layouts that they ask for, the first before the others:
writes before reads in a copy, and color before depth before the rate of shading. -/
def priority (format : Format) : List (AccessMask × ImageLayout) :=
  [(transferWrite, .transferDst), (transferRead, .transferSrc),
   (colorAttachmentWrite, .colorAttachment),
   (depthStencilAttachmentWrite,
      if format.hasStencil then .depthStencilAttachment else .depthAttachment),
   (shadingRateAttachmentRead, .shadingRateAttachment)]

/-- The layout for the access that comes first. -/
def first? (a : AccessMask) (format : Format) : Option ImageLayout :=
  ((priority format).find? fun x => decide (x.1 ⊆ a)).map (·.2)

end AccessMask

namespace ImageLayout

/-- The layouts that images are used in, with the accesses that they permit. -/
def permitTable : List (ImageLayout × AccessMask) :=
  [(general, .every),
   (colorAttachment, AccessMask.colorAttachmentRead ∪ AccessMask.colorAttachmentWrite),
   (depthAttachment,
      AccessMask.depthStencilAttachmentRead ∪ AccessMask.depthStencilAttachmentWrite),
   (depthStencilAttachment,
      AccessMask.depthStencilAttachmentRead ∪ AccessMask.depthStencilAttachmentWrite),
   (shaderReadOnly, Usage.shaderReads ∪ AccessMask.inputAttachmentRead),
   (transferSrc, .transferRead),
   (transferDst, .transferWrite),
   (shadingRateAttachment, .shadingRateAttachmentRead)]

/-- The accesses that are permitted to an image in a layout. -/
def permitted (l : ImageLayout) : AccessMask := (permitTable.lookup l).getD ∅

theorem subset_permitted_general (a : AccessMask) : a ⊆ general.permitted := by
  refine Mask.subset_iff.2 fun i hi => ?_
  show (BitVec.allOnes 64).getLsbD i = true
  rw [BitVec.getLsbD_allOnes, decide_eq_true_iff]
  exact BitVec.lt_of_getLsbD hi

end ImageLayout

/-! ## What a pass does to an image -/

/-- What a pass of a kind can do to an image. -/
def PassKind.imageAccesses : PassKind → AccessMask
  | .render => AccessMask.inputAttachmentRead ∪ AccessMask.colorAttachmentRead ∪
      AccessMask.colorAttachmentWrite ∪ AccessMask.depthStencilAttachmentRead ∪
      AccessMask.depthStencilAttachmentWrite ∪ AccessMask.shadingRateAttachmentRead
  | .copy => AccessMask.transferRead ∪ AccessMask.transferWrite
  | .compute _ | .draw _ => AccessMask.shaderRead ∪ AccessMask.shaderWrite

/-- Whether accesses are those of uses of an image in a pass of a kind. An attachment is not read as
one unless it is drawn to. -/
structure AccessMask.Suits (a : AccessMask) (kind : PassKind) : Prop where
  within : a ⊆ kind.imageAccesses
  /-- Color that is read is also written. -/
  color : 7 ∈ a → 8 ∈ a
  /-- So is depth. -/
  depth : 9 ∈ a → 10 ∈ a

namespace AccessMask.Suits

variable {a : AccessMask} {kind : PassKind}

instance : Decidable (a.Suits kind) :=
  decidable_of_iff (a ⊆ kind.imageAccesses ∧ (7 ∈ a → 8 ∈ a) ∧ (9 ∈ a → 10 ∈ a))
    ⟨fun ⟨hwithin, hcolor, hdepth⟩ => ⟨hwithin, hcolor, hdepth⟩,
      fun h => ⟨h.within, h.color, h.depth⟩⟩

theorem not_mem (h : a.Suits kind) {i : Nat} (hi : i ∉ kind.imageAccesses) : i ∉ a :=
  fun ha => hi (Mask.subset_iff.1 h.within i ha)

/-- What a shader does, where it reads nothing as uniform. -/
theorem shader (mode : AccessMode)
    (hkind : kind.imageAccesses = AccessMask.shaderRead ∪ AccessMask.shaderWrite) :
    (Usage.shaderAccess mode false).Suits kind where
  within := by
    rw [hkind]
    cases mode <;> decide
  color := by cases mode <;> decide
  depth := by cases mode <;> decide

end AccessMask.Suits

namespace Usage

section
variable {pass : String} {use : Use} {n : Node} {u : Usage}

theorem suits_ofOutput (h : ofOutput pass use = .ok u) : u.access.Suits .render := by
  unfold ofOutput at h
  dsimp only at h
  split at h
  · split at h
    · cases h
      decide
    · cases h
      decide
    · cases h
  · split at h
    · split at h
      · cases h
        decide
      · cases h
        decide
      · cases h
    · cases h

theorem suits_ofInput (use : Use) : (ofInput use).access.Suits .render := by
  unfold ofInput
  dsimp only
  split
  · cases use.kind.isDepthOrStencil with
    | true => decide
    | false => decide
  · exact show AccessMask.inputAttachmentRead.Suits .render by decide

theorem suits_ofAttachment (h : ofAttachment pass use n = .ok u) : u.access.Suits .render := by
  unfold ofAttachment at h
  split at h
  · cases h
  · split at h
    · cases h
    · split at h
      · exact suits_ofOutput h
      · split at h
        · split at h
          · cases h
          · cases h
            decide
        · cases h
        · cases h
          exact suits_ofInput use

/-- Only a buffer holds arguments. -/
theorem isBufferLike_of_ofIndirect (h : ofIndirect pass use n = .ok u) : n.isBufferLike = true := by
  unfold ofIndirect at h
  split at h
  · cases h
  · next hreads =>
    simp only [Bool.or_eq_true, not_or] at hreads
    simpa using hreads.1

theorem suits_ofDraw {shader : Shader} {phase : String} (himage : n.isBufferLike = false)
    (h : (ofDraw pass use n shader).result = .ok u) : u.access.Suits (.draw phase) := by
  unfold ofDraw at h
  split at h
  · exact absurd (isBufferLike_of_ofIndirect h) (by simp [himage])
  · simp only [Traced.result_bind, Except.bind_eq_ok_iff] at h
    obtain ⟨b, -, stage, -, h⟩ := h
    cases h
    rw [himage, Bool.and_false]
    exact .shader use.mode rfl

theorem suits_ofCompute {shader : Option Shader} {phase : Option String}
    (himage : n.isBufferLike = false) (h : ofCompute pass use n shader = .ok u) :
    u.access.Suits (.compute phase) := by
  unfold ofCompute at h
  split at h
  · exact absurd (isBufferLike_of_ofIndirect h) (by simp [himage])
  · dsimp only at h
    split at h
    · obtain ⟨b, -, h⟩ := Except.bind_eq_ok_iff.1 h
      cases h
      rw [himage, Bool.and_false]
      exact .shader use.mode rfl
    · cases h
      have hnone : n.bufferDesc?.any (·.isUniform) = false := by
        by_contra hany
        have hbuffer := isBufferLike_of_bufferDesc (Option.isSome_of_any (by simpa using hany))
        exact absurd hbuffer (by simp [himage])
      rw [hnone]
      exact .shader use.mode rfl

theorem suits_ofCopy (use : Use) : (ofCopy use).access.Suits .copy := by
  unfold ofCopy
  cases use.mode with
  | read => decide
  | write => decide
  | readWrite => decide

/-- **What an accepted use of an image comes to suits the kind of the pass.** -/
theorem suits_classify {shaders : Registry} {pass : Pass} (himage : n.isBufferLike = false)
    (h : (classify shaders pass use n).result = .ok u) : u.access.Suits pass.kind := by
  unfold classify at h
  split at h
  · next hkind =>
    rw [hkind]
    exact suits_ofAttachment h
  · next hkind =>
    rw [hkind]
    simp only [Traced.result_bind, Except.bind_eq_ok_iff] at h
    obtain ⟨shader, -, h⟩ := h
    exact suits_ofDraw himage h
  · next hkind =>
    rw [hkind]
    simp only [Traced.result_bind, Except.bind_eq_ok_iff] at h
    obtain ⟨shader, -, h⟩ := h
    exact suits_ofCompute himage h
  · next hkind =>
    rw [hkind]
    cases h
    exact suits_ofCopy use

end

end Usage

/-- The uses of an image in a pass together suit the kind of the pass. -/
theorem Timeline.suits_usageIn {index : Nat} {uses : List NodeUse} {u : Usage} {kind : PassKind}
    (h : usageIn index uses = some u) (huses : ∀ v, ⟨index, v⟩ ∈ uses → v.access.Suits kind) :
    u.access.Suits kind where
  within := by
    refine Mask.subset_iff.2 fun i hi => ?_
    obtain ⟨v, hv, hiv⟩ := (mem_access_usageIn_iff h).1 hi
    exact Mask.subset_iff.1 (huses v hv).within i hiv
  color hread := by
    obtain ⟨v, hv, hiv⟩ := (mem_access_usageIn_iff h).1 hread
    exact (mem_access_usageIn_iff h).2 ⟨v, hv, (huses v hv).color hiv⟩
  depth hread := by
    obtain ⟨v, hv, hiv⟩ := (mem_access_usageIn_iff h).1 hread
    exact (mem_access_usageIn_iff h).2 ⟨v, hv, (huses v hv).depth hiv⟩

/-! ## The layout that is chosen -/

/-- A mask of one flag is part of a mask exactly if the mask has the flag. -/
theorem Mask.subset_iff_of_bit {κ : Vocabulary} {k : Nat} {m a : Mask κ}
    (hm : m.bits = BitVec.twoPow 64 k) (hk : k < 64) : m ⊆ a ↔ k ∈ a := by
  refine ⟨fun h => subset_iff.1 h k ?_, subset_of_bit hm⟩
  rw [mem_def, hm, BitVec.getLsbD_twoPow]
  simp [hk]

/-- The flags of a part of a mask are looked up one by one. -/
theorem Mask.subset_iff_of_within {κ : Vocabulary} {bits : List Nat} {a b w : Mask κ}
    (ha : a ⊆ w) (hw : ∀ i < 64, i ∈ w → i ∈ bits) : a ⊆ b ↔ ∀ i ∈ bits, i ∈ a → i ∈ b := by
  refine ⟨fun h i _ => subset_iff.1 h i, fun h => subset_iff.2 fun i hi => ?_⟩
  exact h i (hw i (BitVec.lt_of_getLsbD hi) (subset_iff.1 ha i hi)) hi

namespace AccessMask

variable {a : AccessMask} {format : Format}

section
open Mask (subset_iff_of_bit)

theorem inputAttachmentRead_subset : inputAttachmentRead ⊆ a ↔ 4 ∈ a :=
  subset_iff_of_bit (by decide) (by decide)

theorem colorAttachmentWrite_subset : colorAttachmentWrite ⊆ a ↔ 8 ∈ a :=
  subset_iff_of_bit (by decide) (by decide)

theorem depthStencilAttachmentWrite_subset : depthStencilAttachmentWrite ⊆ a ↔ 10 ∈ a :=
  subset_iff_of_bit (by decide) (by decide)

theorem transferRead_subset : transferRead ⊆ a ↔ 11 ∈ a :=
  subset_iff_of_bit (by decide) (by decide)

theorem transferWrite_subset : transferWrite ⊆ a ↔ 12 ∈ a :=
  subset_iff_of_bit (by decide) (by decide)

theorem shadingRateAttachmentRead_subset : shadingRateAttachmentRead ⊆ a ↔ 23 ∈ a :=
  subset_iff_of_bit (by decide) (by decide)

end

/-- Accesses clash by two flags. -/
theorem clashes_iff : a.Clashes ↔ (11 ∈ a ∧ 12 ∈ a) ∨
    4 ∉ a ∧ (8 ∈ a ∧ 10 ∈ a ∨ 8 ∈ a ∧ 23 ∈ a ∨ 10 ∈ a ∧ 23 ∈ a) := by
  have hne : colorAttachmentWrite ≠ depthStencilAttachmentWrite ∧
      colorAttachmentWrite ≠ shadingRateAttachmentRead ∧
      depthStencilAttachmentWrite ≠ shadingRateAttachmentRead := by decide
  simp only [Clashes, attachments, List.mem_cons, List.not_mem_nil, or_false, exists_eq_or_imp,
    exists_eq_left, inputAttachmentRead_subset, colorAttachmentWrite_subset,
    depthStencilAttachmentWrite_subset, transferRead_subset, transferWrite_subset,
    shadingRateAttachmentRead_subset]
  grind

namespace Suits

/-- The layout of an image in a render pass depends on how it is attached. -/
theorem imageLayout_of_render (h : a.Suits .render) : Usage.imageLayout a format =
    if 4 ∈ a then .general
    else if 8 ∈ a then .colorAttachment
    else if 10 ∈ a then
      if format.hasStencil then .depthStencilAttachment else .depthAttachment
    else if 23 ∈ a then .shadingRateAttachment
    else .undefined := by
  have hapart {m : AccessMask} (hm : ∀ i < 64, i ∈ m → i ∉ PassKind.render.imageAccesses) :
      ¬ a.meets m = true := by
    intro hmeets
    obtain ⟨i, hi, him⟩ := Mask.meets_iff.1 hmeets
    exact h.not_mem (hm i (BitVec.lt_of_getLsbD hi) him) hi
  unfold Usage.imageLayout
  rw [if_neg (mt transferWrite_subset.1 (h.not_mem (by decide))),
    if_neg (mt transferRead_subset.1 (h.not_mem (by decide))), if_neg (hapart (by decide)),
    if_neg (hapart (by decide))]
  simp only [inputAttachmentRead_subset, colorAttachmentWrite_subset,
    depthStencilAttachmentWrite_subset, shadingRateAttachmentRead_subset]

/-- An attachment that fragments read may be used in all ways, any other only in the way that is
looked for first. -/
theorem subset_permitted_of_render (h : a.Suits .render) (hlaid : ∃ i ∈ a, i ∈ Usage.laidOut) :
    a ⊆ (Usage.imageLayout a format).permitted ↔ ¬ a.Clashes := by
  have hbits : ∀ i < 64, i ∈ PassKind.render.imageAccesses → i ∈ [4, 7, 8, 9, 10, 23] := by decide
  have hpermit {b : AccessMask} := Mask.subset_iff_of_within (b := b) h.within hbits
  have hcolor : a ⊆ ImageLayout.colorAttachment.permitted ↔ 4 ∉ a ∧ 9 ∉ a ∧ 10 ∉ a ∧ 23 ∉ a := by
    rw [hpermit]
    simp +decide
  have hdepth : a ⊆ ImageLayout.depthAttachment.permitted ↔ 4 ∉ a ∧ 7 ∉ a ∧ 8 ∉ a ∧ 23 ∉ a := by
    rw [hpermit]
    simp +decide
  have hstencil : (if format.hasStencil then ImageLayout.depthStencilAttachment
      else .depthAttachment).permitted = ImageLayout.depthAttachment.permitted := by
    split
    · rfl
    · rfl
  have hrate : a ⊆ ImageLayout.shadingRateAttachment.permitted ↔
      4 ∉ a ∧ 7 ∉ a ∧ 8 ∉ a ∧ 9 ∉ a ∧ 10 ∉ a := by
    rw [hpermit]
    simp +decide
  have hcopied : 11 ∉ a := h.not_mem (by decide)
  rw [h.imageLayout_of_render, clashes_iff]
  by_cases hinput : 4 ∈ a
  · rw [if_pos hinput]
    simp [hinput, hcopied, ImageLayout.subset_permitted_general]
  by_cases hcolorWrite : 8 ∈ a
  · rw [if_neg hinput, if_pos hcolorWrite, hcolor]
    have := h.depth
    grind
  by_cases hdepthWrite : 10 ∈ a
  · rw [if_neg hinput, if_neg hcolorWrite, if_pos hdepthWrite, hstencil, hdepth]
    have := h.color
    grind
  by_cases hrateRead : 23 ∈ a
  · rw [if_neg hinput, if_neg hcolorWrite, if_neg hdepthWrite, if_pos hrateRead, hrate]
    have := h.color
    have := h.depth
    grind
  -- there is no access that has a layout
  exfalso
  obtain ⟨i, hi, hlaid⟩ := hlaid
  have hrest : ∀ i ∈ [4, 7, 8, 9, 10, 23], i ∈ Usage.laidOut → i = 4 ∨ i = 8 ∨ i = 10 ∨ i = 23 := by
    decide
  have := hrest i (hbits i (BitVec.lt_of_getLsbD hi) (Mask.subset_iff.1 h.within i hi)) hlaid
  grind

/-- The sides of a copy have layouts of their own. -/
theorem subset_permitted_of_copy (h : a.Suits .copy) (hlaid : ∃ i ∈ a, i ∈ Usage.laidOut) :
    a ⊆ (Usage.imageLayout a format).permitted ↔ ¬ a.Clashes := by
  have hbits : ∀ i < 64, i ∈ PassKind.copy.imageAccesses → i ∈ [11, 12] := by decide
  have hpermit {b : AccessMask} := Mask.subset_iff_of_within (b := b) h.within hbits
  have hsrc : a ⊆ ImageLayout.transferSrc.permitted ↔ 12 ∉ a := by
    rw [hpermit]
    simp +decide
  have hdst : a ⊆ ImageLayout.transferDst.permitted ↔ 11 ∉ a := by
    rw [hpermit]
    simp +decide
  have hcolor : 8 ∉ a := h.not_mem (by decide)
  have hdepth : 10 ∉ a := h.not_mem (by decide)
  rw [clashes_iff]
  unfold Usage.imageLayout
  simp only [transferWrite_subset, transferRead_subset]
  by_cases hwrite : 12 ∈ a
  · rw [if_pos hwrite, hdst]
    grind
  · have hread : 11 ∈ a := by
      obtain ⟨i, hi, -⟩ := hlaid
      have := hbits i (BitVec.lt_of_getLsbD hi) (Mask.subset_iff.1 h.within i hi)
      grind
    rw [if_neg hwrite, if_pos hread, hsrc]
    grind

/-- A shader writes images in a layout that permits all, and reads them in one that permits it. -/
theorem subset_permitted_of_shader {kind : PassKind} (h : a.Suits kind)
    (hkind : kind.imageAccesses = AccessMask.shaderRead ∪ AccessMask.shaderWrite)
    (hlaid : ∃ i ∈ a, i ∈ Usage.laidOut) :
    a ⊆ (Usage.imageLayout a format).permitted ↔ ¬ a.Clashes := by
  have hwithin : a ⊆ AccessMask.shaderRead ∪ AccessMask.shaderWrite := hkind ▸ h.within
  have hbits : ∀ i < 64, i ∈ AccessMask.shaderRead ∪ AccessMask.shaderWrite → i ∈ [5, 6] := by
    decide
  have hpermit {b : AccessMask} := Mask.subset_iff_of_within (b := b) hwithin hbits
  have hnot {i : Nat} (hi : i ∉ AccessMask.shaderRead ∪ AccessMask.shaderWrite) : i ∉ a :=
    fun ha => hi (Mask.subset_iff.1 hwithin i ha)
  have hclashes : ¬ a.Clashes := by
    have h8 : 8 ∉ a := hnot (by decide)
    have h10 : 10 ∉ a := hnot (by decide)
    have h11 : 11 ∉ a := hnot (by decide)
    rw [clashes_iff]
    grind
  refine iff_of_true ?_ hclashes
  unfold Usage.imageLayout
  rw [if_neg (mt transferWrite_subset.1 (hnot (by decide))),
    if_neg (mt transferRead_subset.1 (hnot (by decide)))]
  split
  · exact ImageLayout.subset_permitted_general a
  · next hwrites =>
    have hwrite : 6 ∉ a := fun hi => hwrites (Mask.meets_iff.2 ⟨6, hi, by decide⟩)
    have hread : 5 ∈ a := by
      obtain ⟨i, hi, -⟩ := hlaid
      have := hbits i (BitVec.lt_of_getLsbD hi) (Mask.subset_iff.1 hwithin i hi)
      grind
    rw [if_pos (Mask.meets_iff.2 ⟨5, hread, by decide⟩), hpermit]
    simp +decide [hwrite]

end Suits

/-- **The layout permits all accesses that do not clash**, and no others. -/
theorem Suits.subset_permitted {kind : PassKind} (h : a.Suits kind)
    (hlaid : ∃ i ∈ a, i ∈ Usage.laidOut) :
    a ⊆ (Usage.imageLayout a format).permitted ↔ ¬ a.Clashes := by
  cases kind with
  | render => exact h.subset_permitted_of_render hlaid
  | copy => exact h.subset_permitted_of_copy hlaid
  | compute phase => exact h.subset_permitted_of_shader rfl hlaid
  | draw phase => exact h.subset_permitted_of_shader rfl hlaid

/-- Only a render pass attaches an image. -/
theorem Suits.eq_render {kind : PassKind} (h : a.Suits kind) (ha : 8 ∈ a ∨ 10 ∈ a) :
    kind = .render := by
  have hshader (hkind : kind.imageAccesses = AccessMask.shaderRead ∪ AccessMask.shaderWrite) :
      kind = .render := by
    have h8 : 8 ∉ a := h.not_mem (by rw [hkind]; decide)
    have h10 : 10 ∉ a := h.not_mem (by rw [hkind]; decide)
    exact absurd ha (not_or.2 ⟨h8, h10⟩)
  cases kind with
  | render => rfl
  | copy => exact absurd ha (not_or.2 ⟨h.not_mem (by decide), h.not_mem (by decide)⟩)
  | compute phase => exact hshader rfl
  | draw phase => exact hshader rfl

/-- **Where accesses clash, the layout is that of the first.** -/
theorem Suits.first?_eq {kind : PassKind} (h : a.Suits kind) (hclash : a.Clashes) :
    a.first? format = some (Usage.imageLayout a format) := by
  rcases clashes_iff.1 hclash with ⟨-, hwrite⟩ | ⟨hinput, hattached⟩
  · have hfirst := transferWrite_subset.2 hwrite
    simp [first?, priority, Usage.imageLayout, hfirst]
  · obtain rfl := h.eq_render (by grind)
    have hread : 11 ∉ a := h.not_mem (by decide)
    have hwrite : 12 ∉ a := h.not_mem (by decide)
    rw [h.imageLayout_of_render, if_neg hinput]
    simp only [first?, priority, List.find?_cons, transferRead_subset, transferWrite_subset,
      colorAttachmentWrite_subset, depthStencilAttachmentWrite_subset, hread, hwrite]
    -- one of the first two attachments is there, as two of the three are
    by_cases hcolor : 8 ∈ a
    · simp [hcolor]
    · have hdepth : 10 ∈ a := by grind
      simp [hcolor, hdepth]

end AccessMask

/-! ## A frame -/

/-- Whether every image is used in layouts that permit all that is done to it. -/
def Analysis.PermitsAccesses (a : Analysis) : Prop :=
  ∀ t ∈ a.timelines, t.node.kind = .image → ∀ e ∈ t.entries,
    e.state.access ⊆ e.state.layout.permitted

section
variable {f f' : Forest} {shaders : Registry} {passes : List Pass} {a : Analysis} {t : Timeline}
  {e : TimelineEntry}

/-- An entry of an image comes from uses in one pass, and makes an access that has a layout. -/
theorem suits_of_mem_timelines (h : (analyze passes f shaders).result = .ok (a, f'))
    (ht : t ∈ a.timelines) (hkind : t.node.kind = .image) (he : e ∈ t.entries) :
    (∃ pass, passes[e.pass]? = some pass ∧ e.state.access.Suits pass.kind) ∧
      ∃ i ∈ e.state.access, i ∈ Usage.laidOut := by
  have himage : t.node.isBufferLike = false := by
    rw [Node.isBufferLike, hkind]
    rfl
  obtain ⟨hnode, -⟩ := node_of_mem_timelines h ht
  obtain ⟨uses, huses, rfl, -⟩ := analyze_ok_iff.1 h
  obtain ⟨us, u, hus, hu, hstate⟩ := (Timeline.mem_entries_iff ht).1 he
  have haccess : e.state.access = u.access := by
    rw [hstate]
    rfl
  rw [haccess]
  obtain ⟨r, hr, rfl⟩ : ∃ r, uses[e.pass]? = some r ∧ r.uses = us := by simpa using hus
  obtain ⟨pass, hpass, hok⟩ := exists_pass_of_getElem? huses hr
  have hclassified : ∀ v, ⟨t.index, v⟩ ∈ r.uses → ∃ use,
      (Usage.classify shaders pass use t.node).result = .ok v := by
    intro v hv
    obtain ⟨use, -, p, hp, -, hclassify, hindex⟩ := exists_left_of_mem (passUses_ok hok).1 hv
    have hn := Forest.nodes_of_tracked hp
    rw [← hindex, hnode] at hn
    rw [← Option.some.inj hn] at hclassify
    exact ⟨use, hclassify⟩
  refine ⟨⟨pass, hpass, Timeline.suits_usageIn hu fun v hv => ?_⟩, ?_⟩
  · obtain ⟨use, hclassify⟩ := hclassified v hv
    exact Usage.suits_classify himage hclassify
  · obtain ⟨v, hv⟩ := Timeline.isSome_usageIn_iff.1 (Option.isSome_of_mem hu)
    obtain ⟨use, hclassify⟩ := hclassified v hv
    obtain ⟨i, hi, hlaid⟩ := (Usage.answers_classify hclassify).accesses
    exact ⟨i, (Timeline.mem_access_usageIn_iff hu).2 ⟨v, hv, hi⟩, hlaid himage⟩

/-- **The layout permits what a pass does to an image, unless that clashes.** The layout in which an
accepted frame puts an image for a pass permits all that the pass does to the image exactly if the
image is not both sides of a copy, nor attached in two ways where no fragment reads it. Otherwise the
layout is that of the access that comes first. -/
theorem layout_permits_iff (h : (analyze passes f shaders).result = .ok (a, f'))
    (ht : t ∈ a.timelines) (hkind : t.node.kind = .image) (he : e ∈ t.entries) :
    (e.state.access ⊆ e.state.layout.permitted ↔ ¬ e.state.access.Clashes) ∧
    (e.state.access.Clashes → ∃ desc, t.node.imageDesc? = some desc ∧
      e.state.access.first? desc.format = some e.state.layout) := by
  obtain ⟨⟨pass, -, hsuits⟩, hlaid⟩ := suits_of_mem_timelines h ht hkind he
  obtain ⟨desc, hdesc⟩ := Option.isSome_iff_exists.1 (Node.isSome_imageDesc hkind)
  have hlayout : e.state.layout = Usage.imageLayout e.state.access desc.format := by
    obtain ⟨uses, huses, rfl, -⟩ := analyze_ok_iff.1 h
    obtain ⟨us, u, -, -, hstate⟩ := (Timeline.mem_entries_iff ht).1 he
    rw [hstate]
    simp only [Usage.stateOf, hdesc]
  rw [hlayout]
  exact ⟨hsuits.subset_permitted hlaid, fun hclash => ⟨desc, hdesc, hsuits.first?_eq hclash⟩⟩

end

open Relation (ReflTransGen)

namespace Gallery

/-- The canvas, with what one pass does to it. -/
def canvas (state : AccessState) : Timeline where
  index := 3
  node :=
    { name := "canvas", residency := .transient, payload := .image {} (some ⟨3⟩) false, life := 2 }
  entries := [⟨0, state⟩]

/-- The canvas is copied onto itself. -/
def smear : List Pass := [⟨"smear", .copy, Use.copy "canvas" "canvas"⟩]

def smeared : AccessState :=
  ⟨.transfer, AccessMask.transferRead ∪ AccessMask.transferWrite, .transferDst⟩

/-- The canvas is drawn to and sets the rate of shading. -/
def glaze : Pass := ⟨"glaze", .render, [.colorOutput "canvas", .shadingRate "canvas"]⟩

/-- And it is read. -/
def blend : Pass := { glaze with uses := glaze.uses ++ [.bound "canvas" "source" .read] }

def blended : AccessState :=
  ⟨StageMask.colorAttachmentOutput ∪ StageMask.fragmentShader ∪ StageMask.shadingRateAttachment,
    AccessMask.colorAttachmentWrite ∪ AccessMask.shadingRateAttachmentRead ∪
      AccessMask.inputAttachmentRead, .general⟩

end Gallery

/-- A copy of the canvas onto itself is made in a layout that only permits to write. -/
theorem not_forall_permitsAccesses : ¬ ∀ (s : Session Headless) (passes : List Pass)
    (shaders : Registry) (a : Analysis) (f' : Forest),
    ReflTransGen (Session.Step (δ := Headless) fun _ _ => False)
      { device := { lastHandle := 1 } } s →
    (analyze passes s.forest shaders).result = .ok (a, f') → a.PermitsAccesses := by
  intro h
  have hanalyze : (analyze Gallery.smear Gallery.session.forest {}).result = .ok (_, _) := rfl
  have hpermits := h _ _ _ _ _ Gallery.steps hanalyze
  have hsmeared := hpermits (Gallery.canvas Gallery.smeared) (List.mem_singleton_self _) rfl _
    (List.mem_singleton_self _)
  revert hsmeared
  decide

theorem layout_permits_iff_blend :
    (∃ a f', (analyze [Gallery.blend] Gallery.session.forest {}).result = .ok (a, f') ∧
      Gallery.canvas Gallery.blended ∈ a.timelines ∧
      Gallery.blended.access ⊆ Gallery.blended.layout.permitted) ∧
    ∃ a f', (analyze Gallery.smear Gallery.session.forest {}).result = .ok (a, f') ∧
      Gallery.canvas Gallery.smeared ∈ a.timelines ∧
      Gallery.smeared.access.first? .r8g8b8a8Unorm = some Gallery.smeared.layout := by
  constructor
  · have h : (analyze [Gallery.blend] Gallery.session.forest {}).result = .ok (_, _) := rfl
    have ht : Gallery.canvas Gallery.blended ∈ _ := List.mem_singleton_self _
    obtain ⟨hpermits, -⟩ := layout_permits_iff h ht rfl (List.mem_singleton_self _)
    exact ⟨_, _, h, ht, hpermits.2 (by decide)⟩
  · have h : (analyze Gallery.smear Gallery.session.forest {}).result = .ok (_, _) := rfl
    have ht : Gallery.canvas Gallery.smeared ∈ _ := List.mem_singleton_self _
    obtain ⟨-, hfirst⟩ := layout_permits_iff h ht rfl (List.mem_singleton_self _)
    obtain ⟨desc, hdesc, hlayout⟩ := hfirst (by decide)
    obtain rfl := Option.some.inj hdesc
    exact ⟨_, _, h, ht, hlayout⟩

/-- Where the canvas is not read, two attachments clash. -/
example : ∃ a f', (analyze [Gallery.glaze] Gallery.session.forest {}).result = .ok (a, f') ∧
    a.timelines.flatMap (fun t => t.entries.map fun e => (e.state.access, e.state.layout)) =
      [(AccessMask.colorAttachmentWrite ∪ AccessMask.shadingRateAttachmentRead,
        .colorAttachment)] :=
  ⟨_, _, rfl, rfl⟩

end FrameGraph
