import FrameGraph.Device.Headless
import FrameGraph.Proofs.Operations

/-!
# Images of the headless device

Mounting a node makes an image only for an image node that has none, and under a handle that was
never given out before (`realize_cases`). Releasing takes the image away from such a node and makes
none (`release_cases`).
-/

set_option autoImplicit false

namespace FrameGraph

variable {d d' : Headless} {h : Handle .image}

namespace Headless

/-- The images alive. -/
def living (d : Headless) : List (Handle .image) := d.images.map (·.1)

/-! ## Making objects -/

/-- The device after a step that gives out no image. -/
structure SameImages (d d' : Headless) : Prop where
  lastHandle : d.lastHandle ≤ d'.lastHandle
  living : d'.living = d.living

theorem createBuffer_sameImages (desc : BufferDesc) (name : String) (d : Headless) :
    SameImages d (createBuffer desc name d).2 := by
  unfold createBuffer
  split
  · exact ⟨Nat.le_refl _, rfl⟩
  · exact ⟨Nat.le_succ _, rfl⟩

theorem createBufferView_sameImages (buffer : Handle .buffer) (d : Headless) :
    SameImages d (createBufferView buffer d).2 := ⟨Nat.le_succ _, rfl⟩

theorem createImageView_sameImages (image : Handle .image) (d : Headless) :
    SameImages d (createImageView image d).2 := ⟨Nat.le_succ _, rfl⟩

/-- An image is made under the next handle, or the device refuses and is as before. -/
theorem createImage_cases (desc : ImageDesc) (name : String) (d : Headless) :
    (∃ e, createImage desc name d = (.error e, d)) ∨
    ∃ d', createImage desc name d = (.ok ⟨d.lastHandle + 1⟩, d') ∧
      d'.lastHandle = d.lastHandle + 1 ∧ d'.living = d.living ++ [⟨d.lastHandle + 1⟩] := by
  unfold createImage
  split
  · exact .inl ⟨_, rfl⟩
  · exact .inr ⟨_, rfl, rfl, List.map_append⟩

end Headless

/-- Neither an image nor a swapchain. -/
def Payload.IsPlain (p : Payload) : Prop := p.kind ≠ .image ∧ p.kind ≠ .swapchain

section
variable {name : String} {origin : Option Payload} {p : Payload}
  {outcome : Except DeviceError Payload}

/-- A mount makes the object of a node that neither is an image nor has one. -/
theorem attach_plain {κ : ObjectKind} {put : Handle κ → Payload}
    {call : DeviceCall Headless (Handle κ)} (hput : ∀ h, (put h).IsPlain)
    (hcall : Headless.SameImages d (call d).2)
    (h : Payload.attach put call d = (outcome, d')) :
    Headless.SameImages d d' ∧
      (outcome.toOption.getD p = p ∨ (outcome.toOption.getD p).IsPlain) := by
  obtain ⟨rfl, ⟨made, -, rfl⟩ | ⟨e, -, rfl⟩⟩ := Payload.attach_cases h
  · exact ⟨hcall, .inr (hput made)⟩
  · exact ⟨hcall, .inl rfl⟩

/-- A mount makes a new image for an image node without one, and else changes no image. -/
theorem realize_cases (h : Payload.realize name origin p d = .ok (outcome, d')) :
    (∃ desc external, p = .image desc none external ∧
      outcome.toOption.getD p = .image desc (some ⟨d.lastHandle + 1⟩) external ∧
      d'.lastHandle = d.lastHandle + 1 ∧ d'.living = d.living ++ [⟨d.lastHandle + 1⟩]) ∨
    Headless.SameImages d d' ∧
      (outcome.toOption.getD p = p ∨ (outcome.toOption.getD p).IsPlain) := by
  unfold Payload.realize at h
  split at h
  · exact .inr (attach_plain (fun _ => by simp [Payload.IsPlain, Payload.kind])
      (Headless.createBuffer_sameImages _ _ d) (Except.ok.inj h))
  · exact .inr (attach_plain (fun _ => by simp [Payload.IsPlain, Payload.kind])
      (Headless.createBufferView_sameImages _ d) (Except.ok.inj h))
  · cases h
  · next desc external =>
    obtain ⟨hd, houtcome⟩ := Payload.attach_cases (Except.ok.inj h)
    have hcreate : Device.createImage desc name d = Headless.createImage desc name d := rfl
    rcases Headless.createImage_cases desc name d with ⟨e, hcall⟩ | ⟨d'', hcall, hlast, hliving⟩
    · rw [hcreate, hcall] at hd houtcome
      obtain rfl := hd
      obtain ⟨h, hok, -⟩ | ⟨e, -, rfl⟩ := houtcome
      · cases hok
      · exact .inr ⟨⟨Nat.le_refl _, rfl⟩, .inl rfl⟩
    · rw [hcreate, hcall] at hd houtcome
      obtain rfl := hd
      obtain ⟨h, hok, rfl⟩ | ⟨e, herror, -⟩ := houtcome
      · obtain rfl := Except.ok.inj hok
        exact .inl ⟨desc, external, rfl, rfl, hlast, hliving⟩
      · cases herror
  · exact .inr (attach_plain (fun _ => by simp [Payload.IsPlain, Payload.kind])
      (Headless.createImageView_sameImages _ d) (Except.ok.inj h))
  · cases h
  · cases h
    exact .inr ⟨⟨Nat.le_refl _, rfl⟩, .inl rfl⟩

end

/-! ## Destroying objects -/

namespace Headless

theorem destroyBuffer_ok {h : Handle .buffer}
    (hd : destroyBuffer h d = .ok d') :
    d'.lastHandle = d.lastHandle ∧ d'.living = d.living := by
  unfold destroyBuffer at hd
  split at hd
  · cases hd
  · cases hd
    exact ⟨rfl, rfl⟩

theorem destroyImage_ok (hd : destroyImage h d = .ok d') :
    d'.lastHandle = d.lastHandle ∧ d'.living ⊆ d.living := by
  unfold destroyImage at hd
  split at hd
  · cases hd
  · cases hd
    exact ⟨rfl, List.map_subset _ (List.filter_subset_self _)⟩

end Headless

/-- A release takes the image from a node that made it, and else changes no image. -/
theorem release_cases {p p' : Payload} (h : p.release d = .ok (p', d')) :
    d'.lastHandle = d.lastHandle ∧ d'.living ⊆ d.living ∧
      ((∃ desc handle, p = .image desc handle false ∧ p' = .image desc none false) ∨
        (p' = p ∧ p.forgetsState = false) ∨ p'.IsPlain) := by
  unfold Payload.release at h
  split at h
  · obtain ⟨e, he, h⟩ := Except.bind_eq_ok_iff.1 h
    cases h
    obtain ⟨hlast, hliving⟩ := Headless.destroyBuffer_ok he
    refine ⟨hlast, hliving ▸ List.Subset.refl _, .inr (.inr ?_)⟩
    simp [Payload.IsPlain, Payload.kind]
  · obtain ⟨e, he, h⟩ := Except.bind_eq_ok_iff.1 h
    cases h
    cases he
    exact ⟨rfl, List.Subset.refl _, .inr (.inr (by simp [Payload.IsPlain, Payload.kind]))⟩
  · obtain ⟨e, he, h⟩ := Except.bind_eq_ok_iff.1 h
    cases h
    obtain ⟨hlast, hliving⟩ := Headless.destroyImage_ok he
    exact ⟨hlast, hliving, .inl ⟨_, _, rfl, rfl⟩⟩
  · obtain ⟨e, he, h⟩ := Except.bind_eq_ok_iff.1 h
    cases h
    cases he
    exact ⟨rfl, List.Subset.refl _, .inr (.inr (by simp [Payload.IsPlain, Payload.kind]))⟩
  · next hbuffer hbufferView himage himageView =>
    cases h
    refine ⟨rfl, List.Subset.refl _, ?_⟩
    cases p with
    | buffer desc handle => exact .inr (.inr (by simp [Payload.IsPlain, Payload.kind]))
    | bufferView desc of handle => exact .inr (.inr (by simp [Payload.IsPlain, Payload.kind]))
    | image desc handle external =>
      cases external with
      | true => exact .inr (.inl ⟨rfl, rfl⟩)
      | false =>
        cases handle with
        | none => exact .inl ⟨desc, none, rfl, rfl⟩
        | some h => exact absurd rfl (himage desc h)
    | imageView desc of handle => exact .inr (.inr (by simp [Payload.IsPlain, Payload.kind]))
    | swapchain source acquired => exact .inr (.inl ⟨rfl, rfl⟩)

end FrameGraph
