import FrameGraph.Proofs.Histories
import FrameGraph.Proofs.Unfolding

/-!
# Mounts that are refused

The headless device refuses buffers and images without extent, and nothing else. A mount meets such
a node before all others of its tree, which have no objects then: it makes nothing, and leaves
nothing but two dates (`Forest.Refused`). So does every refused mount of a forest with a history,
and it is known when a mount is refused (`mount_refused`).
-/

set_option autoImplicit false

namespace FrameGraph

/-- A device that refuses an object stays as it is. -/
theorem realize_of_unmakeable {name : String} {origin : Option Payload} {p : Payload}
    (hunbacked : p.isBacked = false) (hmakeable : ¬ p.Makeable) (d : Headless) :
    p.realize name origin d = .ok (.error .initializationFailed, d) := by
  cases p with
  | buffer desc handle =>
    obtain rfl : handle = none := by simpa [Payload.isBacked] using hunbacked
    have hsize : desc.size = 0 := by simpa [Payload.Makeable] using hmakeable
    simp [Payload.realize, Payload.attach, Device.createBuffer, Headless.createBuffer, hsize]
  | image desc handle external =>
    obtain rfl : handle = none := by simpa [Payload.isBacked] using hunbacked
    have hextent : desc.width = 0 ∨ desc.height = 0 := by
      simp only [Payload.Makeable, not_or] at hmakeable
      omega
    simp [Payload.realize, Payload.attach, Device.createImage, Headless.createImage, hextent]
  | bufferView _ _ _ => exact absurd trivial hmakeable
  | imageView _ _ _ => exact absurd trivial hmakeable
  | swapchain _ _ => exact absurd trivial hmakeable

namespace Forest

/-- Whether a mount that was refused left all as it was but for the clock and the date of the
root `i`, and why it was refused. -/
structure Refused (f : Forest) (d : Headless) (i : Nat) (f' : Forest) (d' : Headless) : Prop where
  /-- Nothing was made and nothing destroyed. -/
  device : d' = d
  /-- The root has no object and no extent, and is the only node with a new date. -/
  root : ∃ r, f.nodes[i]? = some r ∧ r.parent = none ∧ r.isBacked = false ∧ ¬ r.payload.Makeable ∧
    f' = Forest.put { f with life := f.life + 1 } i { r with life := f.life + 1 }
  /-- No node of the tree has an object. -/
  unbacked : ∀ (j : Nat) n, f.nodes[j]? = some n → f.root j = i → n.isBacked = false

variable {f g : Forest} {d : Headless} {n r : Node} {i j : Nat}

theorem mountNode_of_unmakeable (hn : f.nodes[i]? = some n) (hunbacked : n.isBacked = false)
    (hmakeable : ¬ n.payload.Makeable) (d : Headless) : f.mountNode d i =
      .ok (.error .initializationFailed, f.put i { n with life := f.life }, d) := by
  have hput : f.modify i (fun n => { n with life := f.life }) = f.put i { n with life := f.life } :=
    modify_eq_put hn
  unfold mountNode
  simp only [hn, realize_of_unmakeable hunbacked hmakeable, ← hput]
  rfl

/-- A node in the tree of a root that cannot be made has no object. -/
theorem Proper.unbacked_of_unmakeable (hf : f.Proper) (hn : f.nodes[j]? = some n)
    (hr : f.nodes[f.root j]? = some r) (hunbacked : r.isBacked = false)
    (hmakeable : ¬ r.payload.Makeable) : n.isBacked = false := by
  by_contra hbacked
  rw [Bool.not_eq_false] at hbacked
  have hkind : r.kind ≠ .swapchain := Payload.kind_of_not_makeable hmakeable
  rcases hf.related.place_in_tree hf.wellFormed hn hr hkind with htop | hbelow
  · rw [htop, hn] at hr
    obtain rfl := Option.some.inj hr
    exact Bool.noConfusion (hbacked.symm.trans hunbacked)
  · -- an object here would be a view of one that cannot be made
    have hview := hf.related.isView_of_parent hn hbelow hr hkind
    exact hmakeable ((hf.founded j n hn).shown hbacked hview _ r hbelow hr)

/-- A root that cannot be made ends the mount of its tree. -/
theorem mount_of_unmakeable {name : String} {p : Place} (hf : f.WellFormed)
    (hp : f.find name = .ok p) (hr : f.nodes[f.root p.index]? = some r)
    (hunbacked : r.isBacked = false) (hmakeable : ¬ r.payload.Makeable) (d : Headless) :
    (f.mount name d).result = .ok (.error .initializationFailed,
      Forest.put { f with life := f.life + 1 } (f.root p.index) { r with life := f.life + 1 },
      d) := by
  have hsame : (expandSwapchain { f with life := f.life + 1 } (f.root p.index)).result =
      .ok { f with life := f.life + 1 } := by
    refine expandSwapchain_of_unfolded fun n hn hkind => ?_
    obtain rfl := Option.some.inj (hr.symm.trans hn)
    exact absurd hkind (Payload.kind_of_not_makeable hmakeable)
  have hfirst : subtree { f with life := f.life + 1 } (f.root p.index) =
      f.root p.index :: (f.children (f.root p.index)).flatMap f.subtree :=
    Hierarchy.subtree_eq hf.ordered _
  have hnode := mountNode_of_unmakeable (f := { f with life := f.life + 1 }) hr hunbacked
    hmakeable d
  rw [mount_of_expanded hp hsame, hfirst]
  exact Except.bind_eq_ok_iff.2 ⟨_, hnode, rfl⟩

/-- **A mount is refused where the root cannot be made**, and there only. -/
theorem Proper.exists_unmakeable {name : String} {p : Place} {e : DeviceError} {f' : Forest}
    {d' : Headless} (hf : f.Proper) (hp : f.find name = .ok p)
    (h : (f.mount name d).result = .ok (.error e, f', d')) :
    ∃ r, f.nodes[f.root p.index]? = some r ∧ r.parent = none ∧ r.isBacked = false ∧
      ¬ r.payload.Makeable := by
  obtain ⟨q, g, hq, hg, h⟩ := mount_ok h
  obtain rfl := Except.ok.inj (hp.symm.trans hq)
  have hgrows : Relation.ReflTransGen Grows (f, d) (g, d) :=
    .head (.clock f d) (expandSwapchain_grows hg)
  obtain ⟨hgf, hgfounded⟩ := founded_of_growsAll hgrows hf.wellFormed hf.founded
  have hgrelated := related_of_growsAll hgrows hf.related
  have hexpands := expands_of_find hf.wellFormed hp hg
  have hrefused := mountNodes_subtree_refused hgf hgrelated hgfounded hexpands.root_self h
  obtain ⟨m, hm, -, -, hunbacked, hmakeable⟩ := mountNode_refused hrefused hgrelated hgfounded
  obtain ⟨r, hr, hparent⟩ := hexpands.top
  rw [hexpands.kept _ r hr] at hm
  obtain rfl := Option.some.inj hm
  exact ⟨r, hr, hparent, hunbacked, hmakeable⟩

end Forest

/-- **A mount that is refused makes nothing.** It is refused if and only if the root of the tree has
no object and no extent, and the clock has counted all mounts before it, those that were refused
included. -/
theorem mount_refused {os : List Operation} {f : Forest} (h : f.Reached Headless os) :
    f.life = os.countP (·.isMount) ∧ ∀ name p (d : Headless), f.find name = .ok p →
      ((∃ e f' d', (f.mount name d).result = .ok (.error e, f', d')) ↔
        ∃ r, f.nodes[f.root p.index]? = some r ∧ r.isBacked = false ∧ ¬ r.payload.Makeable) ∧
      ∀ e f' d', (f.mount name d).result = .ok (.error e, f', d') →
        f.Refused d (f.root p.index) f' d' := by
  have hf := h.proper
  refine ⟨h.life_eq, fun name p d hp => ⟨⟨?_, ?_⟩, fun e f' d' hmount => ?_⟩⟩
  · rintro ⟨e, f', d', hmount⟩
    obtain ⟨r, hr, -, hunbacked, hmakeable⟩ := hf.exists_unmakeable hp hmount
    exact ⟨r, hr, hunbacked, hmakeable⟩
  · rintro ⟨r, hr, hunbacked, hmakeable⟩
    exact ⟨_, _, _, Forest.mount_of_unmakeable hf.wellFormed hp hr hunbacked hmakeable d⟩
  · obtain ⟨r, hr, hparent, hunbacked, hmakeable⟩ := hf.exists_unmakeable hp hmount
    rw [Forest.mount_of_unmakeable hf.wellFormed hp hr hunbacked hmakeable d] at hmount
    cases hmount
    refine ⟨rfl, ⟨r, hr, hparent, hunbacked, hmakeable, rfl⟩, fun j n hn hj => ?_⟩
    exact hf.unbacked_of_unmakeable hn (hj ▸ hr) hunbacked hmakeable

/-! ### A plate without height -/

namespace Kiln

def plate : ImageDesc := .twoD 8 0 .r8g8b8a8Unorm .sampled

/-- The last mount asks for a view of the plate. -/
def history : List Operation := [
  .addBuffer "clay" (.uniform 16) .persistent,
  .mount "clay",
  .addImage "plate" plate .transient,
  .addImageView "plate/raw" "plate" plate.defaultView,
  .mount "plate/raw"]

def forest (life : Nat) : Forest where
  nodes := [
    { name := "clay"
      residency := .persistent
      payload := .buffer (.uniform 16) (some ⟨1⟩)
      life := 1 },
    { name := "plate", residency := .transient, payload := .image plate none false, life },
    { name := "plate/plate"
      residency := .transient
      payload := .imageView plate.defaultView "plate" none
      parent := some 1 },
    { name := "plate/raw"
      residency := .transient
      payload := .imageView plate.defaultView "plate" none
      parent := some 1 }]
  life

def device : Headless where
  lastHandle := 1
  created := { buffers := 1 }
  buffers := [(⟨1⟩, "clay")]

theorem reached : (forest 2).Reached Headless history :=
  .operate (.operate (.operate (.operate (.operate .start
    (d := {}) rfl) (d := {}) rfl) (d := device) rfl) (d := device) rfl)
    (d := device) rfl

end Kiln

theorem mount_refused_kiln : (Kiln.forest 2).Reached Headless Kiln.history ∧
    Kiln.history.countP (·.isMount) = 2 ∧ ∃ p, (Kiln.forest 2).find "plate/plate" = .ok p ∧
    ((Kiln.forest 2).mount "plate/plate" Kiln.device).result =
      .ok (.error .initializationFailed, Kiln.forest 3, Kiln.device) ∧
    (Kiln.forest 2).Refused Kiln.device 1 (Kiln.forest 3) Kiln.device := by
  refine ⟨Kiln.reached, rfl, _, rfl, rfl, ?_⟩
  exact ((mount_refused Kiln.reached).2 "plate/plate" _ Kiln.device rfl).2 _ _ _ rfl

end FrameGraph
