import FrameGraph.Proofs.Attachments
import FrameGraph.Proofs.PermittedAccesses
import FrameGraph.Proofs.Records

/-!
# Contents of attachments

What is drawn must not be lost. An attachment starts from cleared contents only if nothing is to be
found in its image before (`NeedsContents`), and what is in the image after the pass is only dropped
if nobody looks for it (`KeepsContents`). Both are told from what the passes of the frame declare of
the image, under any of its names, and from the use that first declares the attachment
(`contents_preserved`).
-/

set_option autoImplicit false

namespace FrameGraph

open Relation (ReflTransGen)

/-- Whether accesses read an image as an attachment. -/
def AccessMask.ReadsAttachment (a : AccessMask) : Prop :=
  ∃ reads ∈ [colorAttachmentRead, depthStencilAttachmentRead, inputAttachmentRead], reads ⊆ a

section
variable (f : Forest) (passes : List Pass) (k i : Nat)

/-- Whether a pass before the one at `k` declares the node. -/
def UsedBefore : Prop := ∃ j < k, ∃ pass, passes[j]? = some pass ∧ pass.Touches f i

/-- Whether a pass after the one at `k` declares the node. -/
def UsedAfter : Prop := ∃ j > k, ∃ pass, passes[j]? = some pass ∧ pass.Touches f i

/-- Whether the pass at `k`, which uses the image `n` in a state, needs what the image holds. -/
def NeedsContents (n : Node) (s : AccessState) : Prop :=
  UsedBefore f passes k i ∨ n.residency = .persistent ∨ s.access.ReadsAttachment

/-- Whether what the image `n` holds after the pass at `k` has to be kept. What is no depth output
always is. -/
def KeepsContents (n : Node) (use : Use) : Prop :=
  UsedAfter f passes k i ∨ n.residency = .persistent ∨ n.residency = .swapchain ∨ use.slot ≠ .depth

end

/-- Whether the contents of an attachment, which a use declares to be of the image `n`, are treated
as the passes need it. -/
structure Attachment.Preserves (x : Attachment) (f : Forest) (passes : List Pass) (k : Nat)
    (use : Use) (n : Node) (s : AccessState) : Prop where
  layout : x.layout = s.layout
  load : NeedsContents f passes k x.tracked n s → x.loadOp = .load ∧ x.initialLayout = x.layout
  loadOp : x.loadOp = .load ∨ x.loadOp = .clear
  clear_iff : x.loadOp = .clear ↔ use.isOutput = true ∧ ¬ NeedsContents f passes k x.tracked n s
  cleared : x.loadOp = .clear → x.initialLayout = .undefined
  storeOp : x.storeOp = .store ∨ x.storeOp = .dontCare
  store_iff : x.storeOp = .store ↔ KeepsContents f passes k x.tracked n use
  stencil : x.format.hasStencil = true →
    x.stencilLoadOp = x.loadOp ∧ x.stencilStoreOp = x.storeOp
  noStencil : x.format.hasStencil = false →
    x.stencilLoadOp = .dontCare ∧ x.stencilStoreOp = .dontCare

/-- Whether the contents of all attachments of a frame are preserved: each is of an image that its
first use declares, in the state that joins all that the pass declares of the image. -/
def Analysis.PreservesContents (a : Analysis) (f : Forest) (shaders : Registry)
    (passes : List Pass) : Prop :=
  ∀ (k : Nat) pass, passes[k]? = some pass → pass.kind = .render → ∃ t, a.target? k = some t ∧
    ∀ x ∈ t.attachments, ∃ use n desc s, FirstUse f pass.uses x.view use ∧
      f.StandsFor x.tracked use.resource ∧ f.nodes[x.tracked]? = some n ∧
      n.imageDesc? = some desc ∧ x.format = desc.format ∧
      pass.Joins f shaders x.tracked n s ∧ x.Preserves f passes k use n s

/-! ## What is needed and what is kept -/

section
variable {f : Forest} {shaders : Registry} {passes : List Pass} {i : Nat} {n : Node}
  {before after : List TimelineEntry} {e : TimelineEntry}

section
variable (h : f.Records shaders passes i n (before ++ e :: after))
include h

theorem Forest.Records.usedBefore_iff : UsedBefore f passes e.pass i ↔ before ≠ [] := by
  constructor
  · rintro ⟨j, hj, hpass⟩
    obtain ⟨x, hx, rfl⟩ := (h.entry_iff j).2 hpass
    rcases List.mem_append.1 hx with hx | hx
    · exact List.ne_nil_of_mem hx
    · rcases List.mem_cons.1 hx with rfl | hx
      · exact absurd hj (Nat.lt_irrefl _)
      · exact absurd hj (Nat.lt_asymm (lt_of_mem_right h.increasing rfl hx))
  · intro hne
    obtain ⟨x, hx⟩ := List.exists_mem_of_ne_nil _ hne
    exact ⟨x.pass, lt_of_mem_left h.increasing rfl hx,
      (h.entry_iff x.pass).1 ⟨x, List.mem_append_left _ hx, rfl⟩⟩

theorem Forest.Records.usedAfter_iff : UsedAfter f passes e.pass i ↔ after ≠ [] := by
  constructor
  · rintro ⟨j, hj, hpass⟩
    obtain ⟨x, hx, rfl⟩ := (h.entry_iff j).2 hpass
    rcases List.mem_append.1 hx with hx | hx
    · exact absurd hj (Nat.lt_asymm (lt_of_mem_left h.increasing rfl hx))
    · rcases List.mem_cons.1 hx with rfl | hx
      · exact absurd hj (Nat.lt_irrefl _)
      · exact List.ne_nil_of_mem hx
  · intro hne
    obtain ⟨x, hx⟩ := List.exists_mem_of_ne_nil _ hne
    exact ⟨x.pass, lt_of_mem_right h.increasing rfl hx,
      (h.entry_iff x.pass).1 ⟨x, List.mem_append_right _ (List.mem_cons_of_mem _ hx), rfl⟩⟩

end

/-- Whether an image is read as an attachment is told bit by bit. -/
theorem AccessMask.meets_attachmentReads_iff {a : AccessMask} :
    a.meets AttachmentUse.attachmentReads = true ↔ a.ReadsAttachment := by
  have hcolor : colorAttachmentRead ⊆ a ↔ 7 ∈ a :=
    Mask.subset_iff_of_bit (by decide) (by decide)
  have hdepth : depthStencilAttachmentRead ⊆ a ↔ 9 ∈ a :=
    Mask.subset_iff_of_bit (by decide) (by decide)
  have hbits : ∀ j < 64, j ∈ AttachmentUse.attachmentReads → j = 4 ∨ j = 7 ∨ j = 9 := by decide
  simp only [ReadsAttachment, List.mem_cons, List.not_mem_nil, or_false, exists_eq_or_imp,
    exists_eq_left, hcolor, hdepth, inputAttachmentRead_subset]
  rw [Mask.meets_iff]
  constructor
  · rintro ⟨j, hj, hreads⟩
    rcases hbits j (BitVec.lt_of_getLsbD hj) hreads with rfl | rfl | rfl
    · exact .inr (.inr hj)
    · exact .inl hj
    · exact .inr (.inl hj)
  · rintro (hj | hj | hj)
    · exact ⟨7, hj, by decide⟩
    · exact ⟨9, hj, by decide⟩
    · exact ⟨4, hj, by decide⟩

variable {use : Use} {y : AttachmentUse}

/-- **An attachment is cleared exactly if it is drawn to and its contents are not needed.** -/
theorem Attaches.isCleared_iff (hy : Attaches f use y)
    (h : f.Records shaders passes i n (before ++ e :: after)) :
    y.isCleared n.residency before.length e.state = true ↔
      use.isOutput = true ∧ ¬ NeedsContents f passes e.pass i n e.state := by
  have hrole : y.role = .output ↔ use.isOutput = true := by
    rw [hy.role, AttachmentRole.ofUse]
    by_cases houtput : use.isOutput = true
    · simp [houtput]
    · by_cases hkind : use.kind = .shadingRate <;> simp [houtput, hkind]
  have hreads : e.state.access.meets AttachmentUse.attachmentReads = false ↔
      ¬ e.state.access.ReadsAttachment := by
    rw [← Bool.not_eq_true, AccessMask.meets_attachmentReads_iff]
  simp only [AttachmentUse.isCleared, Bool.and_eq_true, beq_iff_eq, bne_iff_ne, hrole,
    List.length_eq_zero_iff, Bool.not_eq_true', hreads, and_assoc]
  rw [NeedsContents, h.usedBefore_iff, not_or, not_or, not_ne_iff]

/-- **An attachment is dropped exactly if its contents need not be kept.** -/
theorem Attaches.isDropped_iff (hy : Attaches f use y)
    (h : f.Records shaders passes i n (before ++ e :: after)) :
    y.isDropped n.residency (!after.isEmpty) = true ↔ ¬ KeepsContents f passes e.pass i n use := by
  have hslot : y.role = .output ∧ y.kind.isDepthOrStencil = true ↔ use.slot = .depth := by
    rw [← hy.slot]
    unfold AttachmentUse.slot
    split
    · next hrole => by_cases hkind : y.kind.isDepthOrStencil = true <;> simp [hrole, hkind]
    · next hrole => simp [hrole]
    · next hrole => simp [hrole]
  have hresidency : n.residency = .transient ∨ n.residency = .dontCare ↔
      n.residency ≠ .persistent ∧ n.residency ≠ .swapchain := by
    cases n.residency <;> simp
  simp only [AttachmentUse.isDropped, Bool.and_eq_true, Bool.or_eq_true, beq_iff_eq, hslot,
    hresidency, Bool.not_not, List.isEmpty_iff]
  unfold KeepsContents
  rw [h.usedAfter_iff]
  tauto

/-- **Contents are preserved** where it is settled so what happens to them. -/
theorem Attaches.preserves (hy : Attaches f use y)
    (h : f.Records shaders passes y.tracked n (before ++ e :: after)) :
    (y.settle e.state.layout (y.isCleared n.residency before.length e.state)
      (y.isDropped n.residency !after.isEmpty)).Preserves f passes e.pass use n e.state := by
  have hclear := hy.isCleared_iff h
  have hdrop := hy.isDropped_iff h
  generalize y.isCleared n.residency before.length e.state = cleared at hclear
  generalize y.isDropped n.residency (!after.isEmpty) = dropped at hdrop
  constructor
  case layout => rfl
  case load =>
    intro hneeds
    have hkept : cleared = false := by
      by_contra hcleared
      exact (hclear.1 (by simpa using hcleared)).2 hneeds
    rw [hkept]
    exact ⟨rfl, rfl⟩
  case loadOp =>
    cases cleared
    · exact .inl rfl
    · exact .inr rfl
  case clear_iff => exact AttachmentUse.loadOp_settle_iff.trans hclear
  case cleared =>
    intro hloads
    rw [AttachmentUse.loadOp_settle_iff.1 hloads]
    rfl
  case storeOp =>
    cases dropped
    · exact .inl rfl
    · exact .inr rfl
  case store_iff =>
    refine AttachmentUse.storeOp_settle_iff.trans ?_
    rw [← Bool.not_eq_true, hdrop]
    exact not_not
  case stencil =>
    intro hstencil
    exact ⟨if_pos hstencil, if_pos hstencil⟩
  case noStencil =>
    intro hstencil
    have hnone := ne_true_of_eq_false hstencil
    exact ⟨if_neg hnone, if_neg hnone⟩

end

/-! ## Frames -/

section
variable {f f' : Forest} {shaders : Registry} {passes : List Pass} {a : Analysis}

theorem preservesContents_of_analyze (hf : f.WellFormed) (hs : f.Seated)
    (h : (analyze passes f shaders).result = .ok (a, f')) :
    a.PreservesContents f shaders passes := by
  intro k pass hpass hkind
  obtain ⟨t, hcollects, ht⟩ := exists_collects h hpass hkind
  refine ⟨_, ht, fun x hx => ?_⟩
  obtain ⟨y, hy, rfl⟩ := List.mem_map.1 hx
  obtain ⟨use, hfirst, hattaches⟩ := hcollects.first y hy
  obtain ⟨p, desc, hp, htracked, hdesc, hformat, -⟩ := hattaches.image
  obtain ⟨hn, hstands⟩ := (Forest.tracked_eq_ok_iff hf hs).1 hp
  rw [htracked] at hn hstands
  obtain ⟨frame, hframe, ha, -⟩ := analyze_frame h
  have hrecords := records_ofNode hf hs hframe hn
  obtain ⟨e, he, rfl⟩ := (hrecords.entry_iff k).2 ⟨pass, hpass, use, hfirst.mem, hstands⟩
  have hjoins := hrecords.joins e he pass hpass
  have hfind : a.timelines.find? (·.index == y.tracked) =
      some (Timeline.ofNode y.tracked p.node frame) := by
    rw [ha]
    exact Timeline.find?_ofFrame (Timeline.mem_touched_iff.2 (List.ne_nil_of_mem he)) hn
  obtain ⟨before, after, hsplit⟩ := List.append_of_mem he
  rw [hsplit] at hrecords
  have hbefore : ∀ x ∈ before, x.pass ≠ e.pass := fun x hx =>
    Nat.ne_of_lt (lt_of_mem_left hrecords.increasing rfl hx)
  rw [AttachmentUse.finish_eq_settle hfind hsplit hbefore]
  exact ⟨use, p.node, desc, e.state, hfirst, hstands, hn, hdesc, hformat, hjoins,
    hattaches.preserves hrecords⟩

end

/-- **Attachments do not lose what is needed.** In any session, an attachment of an accepted frame
starts from cleared contents exactly if the use that declares it first draws to it and its image was
not used before, is not persistent and is not read by the pass as an attachment. What it holds is
dropped after the pass exactly if that use draws depth, no later pass uses the image and the image is
neither persistent nor of a swapchain. -/
theorem contents_preserved {δ : Type} [Device δ] {Aside : ObjectCache × δ → ObjectCache × δ → Prop}
    {d : δ} {s : Session δ} {passes : List Pass} {shaders : Registry} {a : Analysis} {f' : Forest}
    (hrun : ReflTransGen (Session.Step Aside) { device := d } s)
    (h : (analyze passes s.forest shaders).result = .ok (a, f')) :
    a.PreservesContents s.forest shaders passes :=
  have hf := Session.wellFormed_kept hrun .empty
  preservesContents_of_analyze hf (Session.seated_kept hrun .empty) h

/-! ### A canvas that is shown -/

namespace Gallery

/-- The canvas is painted, and then read to be shown. -/
def exhibit : List Pass :=
  [⟨"paint", .render, [.colorOutput "canvas"]⟩,
   ⟨"show", .render, [.bound "canvas" "source" .read, .colorOutput "window"]⟩]

end Gallery

theorem contents_preserved_gallery :
    ReflTransGen (Session.Step (δ := Headless) fun _ _ => False)
      { device := { lastHandle := 1 } } Gallery.session ∧
    ∃ a f', (analyze Gallery.exhibit Gallery.session.forest {}).result = .ok (a, f') ∧
      a.PreservesContents Gallery.session.forest {} Gallery.exhibit :=
  ⟨Gallery.steps, _, _, rfl, contents_preserved Gallery.steps rfl⟩

/-- The canvas and the window are cleared where they are drawn to, and the canvas is then loaded. -/
example : (analyze Gallery.exhibit Gallery.session.forest {}).result.toOption.map
    (fun r => r.1.targets.map (·.attachments.map fun x => (x.tracked, x.loadOp, x.storeOp))) =
    some [[(3, .clear, .store)], [(3, .load, .store), (1, .clear, .store)]] := by rfl

end FrameGraph
