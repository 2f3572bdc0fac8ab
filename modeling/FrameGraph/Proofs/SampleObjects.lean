import FrameGraph.Proofs.SampleTargets

/-!
# Objects of the sample frame

The first frame has both render passes made, and every frame that draws to an image for the first
time a framebuffer for it; all else is found (`Sample.Stocked`).
-/

set_option autoImplicit false

namespace FrameGraph.Sample

open ObjectCache (note)

variable {extent : Extent} {images : List (Handle .image)} {acquired i j n count : Nat}
  {ids : Nat → Nat} {f : Forest} {image : Handle .image} {c c' : ObjectCache} {d d' : Headless}
  {r r' : Handle .renderPass} {known : List ObjectDesc} {desc : ObjectDesc}

/-! ## What is asked for -/

/-- The first render pass. -/
def gbufferPass (extent : Extent) (ids : Nat → Nat) : ObjectDesc :=
  .renderPass (gbufferDrawn extent ids).renderPassDesc

def gbufferFrame (extent : Extent) (ids : Nat → Nat) (r : Handle .renderPass) : ObjectDesc :=
  .framebuffer ((gbufferDrawn extent ids).framebufferDesc r)

/-- The second render pass, whatever image it draws to. -/
def lightingPass (extent : Extent) (ids : Nat → Nat) : ObjectDesc :=
  .renderPass (lightingDrawn extent ids 0).renderPassDesc

def lightingFrame (extent : Extent) (ids : Nat → Nat) (r : Handle .renderPass) (j : Nat) :
    ObjectDesc :=
  .framebuffer ((lightingDrawn extent ids j).framebufferDesc r)

/-- What a cache has been asked for when `n` images have been drawn to. -/
def stock (extent : Extent) (ids : Nat → Nat) (r r' : Handle .renderPass) (n : Nat) :
    List ObjectDesc :=
  [gbufferPass extent ids, gbufferFrame extent ids r, lightingPass extent ids] ++
    (List.range n).map (lightingFrame extent ids r')

theorem pass_ne_frame {p : RenderPassDesc} {q : FramebufferDesc} :
    ObjectDesc.renderPass p ≠ .framebuffer q := fun h => by cases h

theorem gbufferPass_ne_lightingPass : gbufferPass extent ids ≠ lightingPass extent ids := by
  intro h
  have hlength := congrArg (·.attachments.length) (ObjectDesc.renderPass.inj h)
  exact absurd hlength (show ¬ 3 = 1 by decide)

theorem gbufferFrame_ne_lightingFrame :
    lightingFrame extent ids r' j ≠ gbufferFrame extent ids r := by
  intro h
  have hlength := congrArg (·.attachments.length) (ObjectDesc.framebuffer.inj h)
  exact absurd hlength (show ¬ 1 = 3 by decide)

theorem lightingFrame_injective (h : lightingFrame extent ids r i = lightingFrame extent ids r j) :
    ids (2 * i + 13) = ids (2 * j + 13) := by
  have hviews : [(⟨ids (2 * i + 13)⟩ : Handle .imageView)] = [⟨ids (2 * j + 13)⟩] :=
    congrArg FramebufferDesc.attachments (ObjectDesc.framebuffer.inj h)
  simpa using hviews

theorem lightingFrame_mem_stock_iff (hids : ∀ i j, i < count → j < count →
      ids (2 * i + 13) = ids (2 * j + 13) → i = j) (hn : n ≤ count) (hj : j < count) :
    lightingFrame extent ids r' j ∈ stock extent ids r r' n ↔ j < n := by
  have hrange : lightingFrame extent ids r' j ∈ (List.range n).map (lightingFrame extent ids r') ↔
      j < n := by
    rw [List.mem_map]
    constructor
    · rintro ⟨k, hk, hsame⟩
      rw [List.mem_range] at hk
      rwa [← hids k j (Nat.lt_of_lt_of_le hk hn) hj (lightingFrame_injective hsame)]
    · exact fun h => ⟨j, List.mem_range.2 h, rfl⟩
  rw [stock, List.mem_append, hrange]
  refine or_iff_right ?_
  simp only [List.mem_cons, List.not_mem_nil, or_false, not_or]
  exact ⟨pass_ne_frame.symm, gbufferFrame_ne_lightingFrame, pass_ne_frame.symm⟩

theorem note_of_mem (h : desc ∈ known) : note known desc = known := if_pos h

theorem note_of_not_mem (h : desc ∉ known) : note known desc = known ++ [desc] := if_neg h

/-- **A later frame asks for one object that may be new**: the framebuffer of its image. -/
theorem note_stock (hids : ∀ i j, i < count → j < count →
      ids (2 * i + 13) = ids (2 * j + 13) → i = j) (hn : n ≤ count) (hj : j < count)
    (hnext : j ≤ n) :
    [gbufferPass extent ids, gbufferFrame extent ids r, lightingPass extent ids,
      lightingFrame extent ids r' j].foldl note (stock extent ids r r' n) =
        stock extent ids r r' (if j < n then n else n + 1) := by
  have hmem : lightingFrame extent ids r' j ∈ stock extent ids r r' n ↔ j < n :=
    lightingFrame_mem_stock_iff hids hn hj
  have hpass : gbufferPass extent ids ∈ stock extent ids r r' n := by simp [stock]
  have hframe : gbufferFrame extent ids r ∈ stock extent ids r r' n := by simp [stock]
  have hpass' : lightingPass extent ids ∈ stock extent ids r r' n := by simp [stock]
  simp only [List.foldl_cons, List.foldl_nil, note_of_mem hpass, note_of_mem hframe,
    note_of_mem hpass']
  split
  · next h => exact note_of_mem (hmem.2 h)
  · next h =>
    obtain rfl : j = n := Nat.le_antisymm hnext (Nat.le_of_not_lt h)
    rw [note_of_not_mem fun h' => h (hmem.1 h')]
    simp [stock, List.range_succ]

/-- The first frame has all its objects made. -/
theorem note_nil : [gbufferPass extent ids, gbufferFrame extent ids r, lightingPass extent ids,
    lightingFrame extent ids r' 0].foldl note [] = stock extent ids r r' 1 := by
  have hframe : gbufferFrame extent ids r ∉ [gbufferPass extent ids] := by
    rw [List.mem_singleton]
    exact pass_ne_frame.symm
  have hpass : lightingPass extent ids ∉ [gbufferPass extent ids, gbufferFrame extent ids r] := by
    simp only [List.mem_cons, List.not_mem_nil, or_false, not_or]
    exact ⟨gbufferPass_ne_lightingPass.symm, pass_ne_frame⟩
  have hlast : lightingFrame extent ids r' 0 ∉
      [gbufferPass extent ids, gbufferFrame extent ids r, lightingPass extent ids] := by
    simp only [List.mem_cons, List.not_mem_nil, or_false, not_or]
    exact ⟨pass_ne_frame.symm, gbufferFrame_ne_lightingFrame, pass_ne_frame.symm⟩
  simp only [List.foldl_cons, List.foldl_nil]
  rw [note_of_not_mem List.not_mem_nil, List.nil_append, note_of_not_mem hframe, List.cons_append,
    List.nil_append, note_of_not_mem hpass, List.cons_append, List.cons_append, List.nil_append,
    note_of_not_mem hlast]
  rfl

/-! ## Frame by frame -/

/-- What the cache and the device have after `i` frames with a swapchain of `count` images. -/
structure Stocked (extent : Extent) (ids : Nat → Nat) (count i : Nat) (c : ObjectCache)
    (d : Headless) : Prop where
  tallied : Tallied c d
  keys : i = 0 ∧ c.keys = [] ∨ 0 < i ∧ ∃ r r' : Handle .renderPass,
    c.find? (.renderPass (gbufferDrawn extent ids).renderPassDesc) = some r ∧
    c.find? (.renderPass (lightingDrawn extent ids 0).renderPassDesc) = some r' ∧
    c.keys = stock extent ids r r' (min i count)
  calls : c.hits + c.misses = 4 * i

/-- **What a frame asks the cache for leaves it stocked** for one more frame. -/
theorem Stocked.step (h : Stocked extent ids count i c d) (hcount : 0 < count)
    (hids : ∀ i j, i < count → j < count → ids (2 * i + 13) = ids (2 * j + 13) → i = j)
    (ht : Tallied c' d')
    (hasked : c.Asked c' (Plan.called c' (gbufferDrawn extent ids) ++
      Plan.called c' (lightingDrawn extent ids (i % count))))
    (hholds : Plan.HoldsPasses c' [gbufferDrawn extent ids, lightingDrawn extent ids (i % count)]) :
    Stocked extent ids count (i + 1) c' d' := by
  obtain ⟨r, hr⟩ : ∃ r : Handle .renderPass,
      c'.find? (.renderPass (gbufferDrawn extent ids).renderPassDesc) = some r :=
    Option.isSome_iff_exists.1 (hholds _ List.mem_cons_self)
  obtain ⟨r', hr'⟩ : ∃ r' : Handle .renderPass,
      c'.find? (.renderPass (lightingDrawn extent ids 0).renderPassDesc) = some r' :=
    Option.isSome_iff_exists.1 (hholds (lightingDrawn extent ids (i % count)) (by simp))
  have hdescs : Plan.called c' (gbufferDrawn extent ids) ++
      Plan.called c' (lightingDrawn extent ids (i % count)) =
        [gbufferPass extent ids, gbufferFrame extent ids r, lightingPass extent ids,
          lightingFrame extent ids r' (i % count)] := by
    have hlighting : Plan.called c' (lightingDrawn extent ids (i % count)) =
        [lightingPass extent ids, lightingFrame extent ids
          ((c'.find? (.renderPass (lightingDrawn extent ids 0).renderPassDesc)).getD .null)
          (i % count)] := rfl
    rw [hlighting, Plan.called, hr, hr']
    rfl
  rw [hdescs] at hasked
  have hlt : i % count < count := Nat.mod_lt i hcount
  refine ⟨ht, .inr ⟨Nat.succ_pos i, r, r', hr, hr', ?_⟩, ?_⟩
  · rw [hasked.keys]
    rcases h.keys with ⟨rfl, hnil⟩ | ⟨-, s, s', hs, hs', hkeys⟩
    · rw [hnil, Nat.zero_mod, note_nil, Nat.min_eq_left hcount]
    · obtain rfl := Option.some.inj ((hasked.kept (.renderPass _) s hs).symm.trans hr)
      obtain rfl := Option.some.inj ((hasked.kept (.renderPass _) s' hs').symm.trans hr')
      rw [hkeys, note_stock hids (Nat.min_le_right i count) hlt
        (Nat.le_min.2 ⟨Nat.mod_le i count, Nat.le_of_lt hlt⟩)]
      congr 1
      rcases Nat.lt_or_ge i count with hi | hi
      · rw [Nat.mod_eq_of_lt hi, Nat.min_eq_left (Nat.le_of_lt hi), if_neg (Nat.lt_irrefl i),
          Nat.min_eq_left hi]
      · rw [Nat.min_eq_right hi, if_pos hlt, Nat.min_eq_right (Nat.le_succ_of_le hi)]
  · rw [hasked.calls, h.calls, List.length_cons]
    rfl

/-- What a stocked cache has counted, and what the device has made for it. -/
theorem Stocked.counts (h : Stocked extent ids count i c d) (hi : 0 < i) :
    c.misses = 3 + min i count ∧ c.hits + 3 + min i count = 4 * i ∧
      d.created.renderPasses = 2 ∧ d.created.framebuffers = 1 + min i count := by
  obtain ⟨rfl, -⟩ | ⟨-, r, r', -, -, hkeys⟩ := h.keys
  · exact absurd hi (Nat.lt_irrefl 0)
  have hmisses : c.misses = 3 + min i count := by
    rw [h.tallied.misses, hkeys, stock, List.length_append, List.length_map, List.length_range]
    rfl
  have hcount (k : ObjectKind) : d.created.cached k = (stock extent ids r r' (min i count)).countP
      (·.kind == k) := by
    rw [h.tallied.made, ObjectCache.count_eq, hkeys]
  have hcalls := h.calls
  refine ⟨hmisses, by omega, (hcount .renderPass).trans ?_, (hcount .framebuffer).trans ?_⟩
  · rw [stock, List.countP_append, List.countP_map]
    have hnone : (List.range (min i count)).countP
        ((·.kind == ObjectKind.renderPass) ∘ lightingFrame extent ids r') = 0 :=
      List.countP_eq_zero.2 fun j _ => by simp [lightingFrame, ObjectDesc.kind]
    rw [hnone]
    rfl
  · rw [stock, List.countP_append, List.countP_map]
    have hall : (List.range (min i count)).countP
        ((·.kind == ObjectKind.framebuffer) ∘ lightingFrame extent ids r') = min i count := by
      rw [List.countP_eq_length.2 fun j _ => by simp [lightingFrame, ObjectDesc.kind],
        List.length_range]
    rw [hall]
    rfl

end FrameGraph.Sample
