import FrameGraph.Device.Headless
import FrameGraph.Proofs.Operations
import Mathlib.Data.List.Nodup

/-!
# Objects of the headless device

The headless device keeps book of its buffers, images and views: `Headless.alive` lists those that
it has, `Headless.views` what each view shows, and `Headless.destroyed` those that are gone. A step
of the device makes one object, destroys one that no view shows, or leaves all of them alone
(`Headless.Change`). The books stay right along the way: every object that was ever made has a
number of its own, is alive or destroyed, and is counted (`Headless.Books`).

Mounting and releasing a node come to such steps (`realizes`, `release_destroys`), and a release is
refused only while a view shows the object (`exists_release`).
-/

set_option autoImplicit false

namespace FrameGraph

/-- A buffer, an image or a view of either, as the list of what was destroyed has it. -/
abbrev Object := Destroyed

namespace Destroyed

def kind : Object → ObjectKind
  | buffer _ => .buffer
  | bufferView _ => .bufferView
  | image _ => .image
  | imageView _ => .imageView

/-- The number that stands for the object. -/
def id : Object → Nat
  | buffer h => h.id
  | bufferView h => h.id
  | image h => h.id
  | imageView h => h.id

def isView : Object → Bool
  | buffer _ => false
  | bufferView _ => true
  | image _ => false
  | imageView _ => true

end Destroyed

/-- How many objects of a kind were made, where the book of what was destroyed has that kind. -/
def Created.count (c : Created) : ObjectKind → Nat
  | .buffer => c.buffers
  | .bufferView => c.bufferViews
  | .image => c.images
  | .imageView => c.imageViews
  | _ => 0

namespace Headless

/-- The buffers, images and views that the device has. -/
def alive (d : Headless) : List Object :=
  d.buffers.map (fun x => .buffer x.1) ++ d.bufferViews.map (fun x => .bufferView x.1) ++
    d.images.map (fun x => .image x.1) ++ d.imageViews.map fun x => .imageView x.1

/-- The views that the device has, with what each shows. -/
def views (d : Headless) : List (Object × Object) :=
  d.bufferViews.map (fun x => (.bufferView x.1, .buffer x.2)) ++
    d.imageViews.map fun x => (.imageView x.1, .image x.2)

/-- All objects that were ever made. -/
def made (d : Headless) : List Object := d.alive ++ d.destroyed

/-! ## Steps -/

/-- A step that leaves all objects alone. -/
structure SameObjects (d d' : Headless) : Prop where
  lastHandle : d.lastHandle ≤ d'.lastHandle
  alive : d'.alive = d.alive
  views : d'.views = d.views
  destroyed : d'.destroyed = d.destroyed
  created : ∀ k, d'.created.count k = d.created.count k

/-- A step that makes `x`, under the next number. As a view, it shows `shown`. -/
structure Makes (d d' : Headless) (x : Object) (shown : Option Object) : Prop where
  id : x.id = d.lastHandle + 1
  lastHandle : d'.lastHandle = d.lastHandle + 1
  alive : d'.alive.Perm (x :: d.alive)
  views : ∀ v y, (v, y) ∈ d'.views ↔ (v, y) ∈ d.views ∨ v = x ∧ shown = some y
  destroyed : d'.destroyed = d.destroyed
  created : ∀ k, d'.created.count k = d.created.count k + if x.kind = k then 1 else 0

/-- A step that destroys `x`, which no view shows. -/
structure Destroys (d d' : Headless) (x : Object) : Prop where
  unshown : ∀ v, (v, x) ∉ d.views
  lastHandle : d'.lastHandle = d.lastHandle
  alive : d'.alive = d.alive.filter (· ≠ x)
  views : d'.views = d.views.filter (·.1 ≠ x)
  destroyed : d'.destroyed = d.destroyed ++ [x]
  created : d'.created = d.created

/-- One step of the device. -/
inductive Change (d d' : Headless) : Prop
  | same (h : d.SameObjects d')
  | make {x : Object} {shown : Option Object} (h : d.Makes d' x shown)
  | destroy {x : Object} (h : d.Destroys d' x)

variable {d d' : Headless} {x y v : Object} {shown : Option Object}

theorem SameObjects.refl (d : Headless) : d.SameObjects d :=
  ⟨Nat.le_refl _, rfl, rfl, rfl, fun _ => rfl⟩

theorem SameObjects.trans {d'' : Headless} (h : d.SameObjects d') (h' : d'.SameObjects d'') :
    d.SameObjects d'' where
  lastHandle := Nat.le_trans h.lastHandle h'.lastHandle
  alive := h'.alive.trans h.alive
  views := h'.views.trans h.views
  destroyed := h'.destroyed.trans h.destroyed
  created k := (h'.created k).trans (h.created k)

/-- Images made elsewhere are not in the books. -/
theorem externalImage_same (d : Headless) : d.SameObjects d.externalImage.2 :=
  ⟨Nat.le_succ _, rfl, rfl, rfl, fun _ => rfl⟩

theorem createShaderModule_same {words : List Nat} {name : String} {d d' : Headless}
    {result : Except DeviceError (Handle .shaderModule)}
    (h : (createShaderModule words name d).result = .ok (result, d')) : d.SameObjects d' := by
  unfold createShaderModule at h
  split at h
  · cases h
    exact ⟨Nat.le_succ _, rfl, rfl, rfl, fun k => by cases k <;> rfl⟩
  · cases h
    exact .refl d

theorem mem_views : (v, y) ∈ d.views ↔
    (∃ a b, v = .bufferView a ∧ y = .buffer b ∧ (a, b) ∈ d.bufferViews) ∨
    ∃ a b, v = .imageView a ∧ y = .image b ∧ (a, b) ∈ d.imageViews := by
  simp only [views, List.mem_append, List.mem_map, Prod.exists, Prod.mk.injEq]
  grind

theorem mem_views_buffer {v : Handle .bufferView} {b : Handle .buffer} :
    (.bufferView v, .buffer b) ∈ d.views ↔ (v, b) ∈ d.bufferViews := by
  simp [views]

theorem mem_views_image {v : Handle .imageView} {h : Handle .image} :
    (.imageView v, .image h) ∈ d.views ↔ (v, h) ∈ d.imageViews := by
  simp [views]

/-- Views show buffers and images. -/
theorem isView_of_mem_views (h : (v, y) ∈ d.views) : v.isView = true ∧ y.isView = false := by
  rcases mem_views.1 h with ⟨a, b, rfl, rfl, -⟩ | ⟨a, b, rfl, rfl, -⟩
  · exact ⟨rfl, rfl⟩
  · exact ⟨rfl, rfl⟩

theorem mem_alive_of_mem_views (h : (v, y) ∈ d.views) : v ∈ d.alive := by
  simp only [alive, List.mem_append, List.mem_map, Prod.exists]
  rcases mem_views.1 h with ⟨a, b, rfl, rfl, hv⟩ | ⟨a, b, rfl, rfl, hv⟩
  · exact .inl (.inl (.inr ⟨a, b, hv, rfl⟩))
  · exact .inr ⟨a, b, hv, rfl⟩

/-! ### Making -/

theorem createBuffer_makes (desc : BufferDesc) (name : String) (d : Headless) :
    (∃ e, createBuffer desc name d = (.error e, d)) ∨
    ∃ d', createBuffer desc name d = (.ok ⟨d.lastHandle + 1⟩, d') ∧
      d.Makes d' (.buffer ⟨d.lastHandle + 1⟩) none := by
  unfold createBuffer
  split
  · exact .inl ⟨_, rfl⟩
  · refine .inr ⟨_, rfl, rfl, rfl, ?_, by simp [views], rfl, fun k => ?_⟩
    · refine List.perm_iff_count.2 fun y => ?_
      simp only [alive, List.map_append, List.count_append, List.map_cons, List.map_nil,
        List.count_cons, List.count_nil]
      omega
    · cases k <;> simp [Created.count, Destroyed.kind]

theorem createBufferView_makes (b : Handle .buffer) (d : Headless) :
    ∃ d', createBufferView b d = (.ok ⟨d.lastHandle + 1⟩, d') ∧
      d.Makes d' (.bufferView ⟨d.lastHandle + 1⟩) (some (.buffer b)) := by
  refine ⟨_, rfl, rfl, rfl, ?_, fun v y => ?_, rfl, fun k => ?_⟩
  · refine List.perm_iff_count.2 fun y => ?_
    simp only [alive, List.map_append, List.count_append, List.map_cons, List.map_nil,
      List.count_cons, List.count_nil]
    omega
  · simp only [views, List.map_append, List.mem_append, List.map_cons, List.map_nil,
      List.mem_singleton, Prod.mk.injEq, Option.some.injEq]
    grind
  · cases k <;> simp [Created.count, Destroyed.kind]

theorem createImage_makes (desc : ImageDesc) (name : String) (d : Headless) :
    (∃ e, createImage desc name d = (.error e, d)) ∨
    ∃ d', createImage desc name d = (.ok ⟨d.lastHandle + 1⟩, d') ∧
      d.Makes d' (.image ⟨d.lastHandle + 1⟩) none := by
  unfold createImage
  split
  · exact .inl ⟨_, rfl⟩
  · refine .inr ⟨_, rfl, rfl, rfl, ?_, by simp [views], rfl, fun k => ?_⟩
    · refine List.perm_iff_count.2 fun y => ?_
      simp only [alive, List.map_append, List.count_append, List.map_cons, List.map_nil,
        List.count_cons, List.count_nil]
      omega
    · cases k <;> simp [Created.count, Destroyed.kind]

theorem createImageView_makes (b : Handle .image) (d : Headless) :
    ∃ d', createImageView b d = (.ok ⟨d.lastHandle + 1⟩, d') ∧
      d.Makes d' (.imageView ⟨d.lastHandle + 1⟩) (some (.image b)) := by
  refine ⟨_, rfl, rfl, rfl, ?_, fun v y => ?_, rfl, fun k => ?_⟩
  · refine List.perm_iff_count.2 fun y => ?_
    simp only [alive, List.map_append, List.count_append, List.map_cons, List.map_nil,
      List.count_cons, List.count_nil]
    omega
  · simp only [views, List.map_append, List.mem_append, List.map_cons, List.map_nil,
      List.mem_singleton, Prod.mk.injEq, Option.some.injEq]
    grind
  · cases k <;> simp [Created.count, Destroyed.kind]

/-! ### Destroying -/

theorem destroyBuffer_destroys {h : Handle .buffer} (hd : destroyBuffer h d = .ok d') :
    d.Destroys d' (.buffer h) := by
  unfold destroyBuffer at hd
  split at hd
  · cases hd
  · next hshown =>
    cases hd
    refine ⟨fun v hv => hshown ?_, rfl, ?_, ?_, rfl, rfl⟩
    · rcases mem_views.1 hv with ⟨a, b, -, hb, hab⟩ | ⟨a, b, -, hb, -⟩
      · cases hb
        exact List.any_eq_true.2 ⟨_, hab, beq_self_eq_true _⟩
      · cases hb
    · simp [alive, List.filter_map, Function.comp_def, bne, beq_eq_decide]
    · simp [views, List.filter_map, Function.comp_def]

theorem destroyBufferView_destroys (h : Handle .bufferView) (d : Headless) :
    d.Destroys (destroyBufferView h d) (.bufferView h) := by
  refine ⟨fun v hv => ?_, rfl, ?_, ?_, rfl, rfl⟩
  · cases (isView_of_mem_views hv).2
  · simp [alive, destroyBufferView, List.filter_map, Function.comp_def, bne, beq_eq_decide]
  · simp [views, destroyBufferView, List.filter_map, Function.comp_def, bne, beq_eq_decide]

theorem destroyImage_destroys {h : Handle .image} (hd : destroyImage h d = .ok d') :
    d.Destroys d' (.image h) := by
  unfold destroyImage at hd
  split at hd
  · cases hd
  · next hshown =>
    cases hd
    refine ⟨fun v hv => hshown ?_, rfl, ?_, ?_, rfl, rfl⟩
    · rcases mem_views.1 hv with ⟨a, b, -, hb, -⟩ | ⟨a, b, -, hb, hab⟩
      · cases hb
      · cases hb
        exact List.any_eq_true.2 ⟨_, hab, beq_self_eq_true _⟩
    · simp [alive, List.filter_map, Function.comp_def, bne, beq_eq_decide]
    · simp [views, List.filter_map, Function.comp_def]

theorem destroyImageView_destroys (h : Handle .imageView) (d : Headless) :
    d.Destroys (destroyImageView h d) (.imageView h) := by
  refine ⟨fun v hv => ?_, rfl, ?_, ?_, rfl, rfl⟩
  · cases (isView_of_mem_views hv).2
  · simp [alive, destroyImageView, List.filter_map, Function.comp_def, bne, beq_eq_decide]
  · simp [views, destroyImageView, List.filter_map, Function.comp_def, bne, beq_eq_decide]

/-- A buffer that no view shows can be destroyed. -/
theorem exists_destroyBuffer {b : Handle .buffer} (h : ∀ v, (v, .buffer b) ∉ d.views) :
    ∃ d', destroyBuffer b d = .ok d' := by
  have hunshown : ¬ d.bufferViews.any (·.2 == b) = true := by
    intro hany
    obtain ⟨⟨a, c⟩, hac, hc⟩ := List.any_eq_true.1 hany
    obtain rfl := beq_iff_eq.1 hc
    exact h (.bufferView a) (mem_views.2 (.inl ⟨a, _, rfl, rfl, hac⟩))
  exact ⟨_, if_neg hunshown⟩

/-- An image that no view shows can be destroyed. -/
theorem exists_destroyImage {b : Handle .image} (h : ∀ v, (v, .image b) ∉ d.views) :
    ∃ d', destroyImage b d = .ok d' := by
  have hunshown : ¬ d.imageViews.any (·.2 == b) = true := by
    intro hany
    obtain ⟨⟨a, c⟩, hac, hc⟩ := List.any_eq_true.1 hany
    obtain rfl := beq_iff_eq.1 hc
    exact h (.imageView a) (mem_views.2 (.inr ⟨a, _, rfl, rfl, hac⟩))
  exact ⟨_, if_neg hunshown⟩

/-! ## Books -/

/-- Whether the books are right: objects have numbers of their own, all of them given out already,
and are counted when they are made. -/
structure Books (d : Headless) : Prop where
  nodup : (d.made.map (·.id)).Nodup
  known : ∀ x ∈ d.made, x.id ≤ d.lastHandle
  created : ∀ k, d.created.count k = d.made.countP (·.kind == k)

theorem Books.empty : Books {} where
  nodup := List.nodup_nil
  known x hx := by cases hx
  created k := by cases k <;> rfl

theorem SameObjects.made (h : d.SameObjects d') : d'.made = d.made := by
  unfold Headless.made
  rw [h.alive, h.destroyed]

theorem Makes.made (h : d.Makes d' x shown) : d'.made.Perm (x :: d.made) := by
  unfold Headless.made
  rw [h.destroyed]
  exact h.alive.append_right d.destroyed

section
variable (hd : d.Books)
include hd

/-- The number tells the object. -/
theorem Books.eq_of_id (hx : x ∈ d.made) (hy : y ∈ d.made) (hid : x.id = y.id) : x = y :=
  List.inj_on_of_nodup_map hd.nodup hx hy hid

theorem Books.nodup_made : d.made.Nodup := hd.nodup.of_map

/-- What is destroyed is not alive any more. -/
theorem Books.not_alive_of_destroyed (hx : x ∈ d.destroyed) : x ∉ d.alive := by
  intro halive
  have hdisjoint := (List.nodup_append.1 hd.nodup_made).2.2
  exact hdisjoint x halive x hx rfl

/-- A view shows one object. -/
theorem Books.view_unique {y' : Object} (hy : (v, y) ∈ d.views) (hy' : (v, y') ∈ d.views) :
    y = y' := by
  have halive := (List.nodup_append.1 hd.nodup_made).1
  have hparts := List.nodup_append.1 (List.nodup_append.1 (List.nodup_append.1 halive).1).1
  have hbuffers : (d.bufferViews.map fun x => (.bufferView x.1 : Object)).Nodup := hparts.2.1
  have himages : (d.imageViews.map fun x => (.imageView x.1 : Object)).Nodup :=
    (List.nodup_append.1 halive).2.1
  rcases mem_views.1 hy with ⟨a, b, rfl, rfl, hab⟩ | ⟨a, b, rfl, rfl, hab⟩
  · rcases mem_views.1 hy' with ⟨a', b', ha, rfl, hab'⟩ | ⟨a', b', ha, -, -⟩
    · cases List.inj_on_of_nodup_map hbuffers hab hab' ha
      rfl
    · cases ha
  · rcases mem_views.1 hy' with ⟨a', b', ha, -, -⟩ | ⟨a', b', ha, rfl, hab'⟩
    · cases ha
    · cases List.inj_on_of_nodup_map himages hab hab' ha
      rfl

theorem Books.same (h : d.SameObjects d') : d'.Books where
  nodup := by
    rw [h.made]
    exact hd.nodup
  known x hx := by
    rw [h.made] at hx
    exact Nat.le_trans (hd.known x hx) h.lastHandle
  created k := by
    rw [h.made, h.created]
    exact hd.created k

theorem Books.make (h : d.Makes d' x shown) : d'.Books where
  nodup := by
    refine (h.made.map _).nodup_iff.2 (List.nodup_cons.2 ⟨fun hx => ?_, hd.nodup⟩)
    obtain ⟨y, hy, hid⟩ := List.mem_map.1 hx
    have hknown : y.id ≤ d.lastHandle := hd.known y hy
    have hfresh : x.id = d.lastHandle + 1 := h.id
    have hsame : y.id = x.id := hid
    omega
  known y hy := by
    rw [h.lastHandle]
    rcases List.mem_cons.1 (h.made.mem_iff.1 hy) with rfl | hy
    · exact Nat.le_of_eq h.id
    · exact Nat.le_succ_of_le (hd.known y hy)
  created k := by
    rw [h.created, hd.created, h.made.countP_eq, List.countP_cons]
    simp only [beq_iff_eq]

/-- A destroyed object is still one that was made. -/
theorem Books.made_of_destroys (h : d.Destroys d' x) (hx : x ∈ d.alive) :
    d'.made.Perm d.made := by
  have halive := (List.nodup_append.1 hd.nodup_made).1
  have hsplit : d.alive.Perm (x :: d.alive.filter (· ≠ x)) := by
    have hperm := List.perm_cons_erase hx
    rw [halive.erase_eq_filter] at hperm
    simpa [bne, beq_eq_decide] using hperm
  unfold Headless.made
  rw [h.alive, h.destroyed, ← List.append_assoc]
  refine (List.perm_append_singleton x _).trans ?_
  exact (hsplit.append_right d.destroyed).symm

theorem Books.destroy (h : d.Destroys d' x) (hx : x ∈ d.alive) : d'.Books := by
  have hperm := hd.made_of_destroys h hx
  refine ⟨(hperm.map _).nodup_iff.2 hd.nodup, fun y hy => ?_, fun k => ?_⟩
  · rw [h.lastHandle]
    exact hd.known y (hperm.mem_iff.1 hy)
  · rw [h.created, hd.created, hperm.countP_eq]

end

end Headless

/-! ## Objects behind nodes -/

namespace Payload

/-- The object behind a node. -/
def object? : Payload → Option Object
  | buffer _ h => h.map .buffer
  | bufferView _ _ h => h.map .bufferView
  | image _ h _ => h.map .image
  | imageView _ _ h => h.map .imageView
  | swapchain _ _ => none

/-- Whether the node stands for an image made elsewhere. -/
def isExternal : Payload → Bool
  | image _ _ external => external
  | _ => false

@[simp] theorem isExternal_bare (p : Payload) : p.bare.isExternal = p.isExternal := by
  cases p <;> rfl

/-- The object behind a node, where the forest has to destroy it. -/
def owned? (p : Payload) : Option Object := if p.isExternal then none else p.object?

variable {p p' : Payload} {x : Object}

theorem isExternal_of_inside (h : ∀ desc handle, p ≠ .image desc handle true) :
    p.isExternal = false := by
  cases p with
  | image desc handle external =>
    cases external with
    | false => rfl
    | true => exact absurd rfl (h desc handle)
  | buffer desc handle => rfl
  | bufferView desc origin handle => rfl
  | imageView desc origin handle => rfl
  | swapchain source acquired => rfl

theorem owned?_eq_some_iff : p.owned? = some x ↔ p.object? = some x ∧ p.isExternal = false := by
  unfold owned?
  cases p.isExternal <;> simp

theorem owned?_of_object_none (h : p.object? = none) : p.owned? = none := by
  unfold owned?
  rw [h, ite_self]

theorem kind_of_object (h : p.object? = some x) : p.kind ≠ .swapchain := by
  cases p with
  | swapchain source acquired => cases h
  | buffer desc handle => simp [kind]
  | bufferView desc origin handle => simp [kind]
  | image desc handle external => simp [kind]
  | imageView desc origin handle => simp [kind]

/-- The object of a node is of the kind that the node is of. -/
theorem isView_of_object (h : p.object? = some x) :
    x.isView = true ↔ p.kind = .bufferView ∨ p.kind = .imageView := by
  cases p with
  | swapchain source acquired => cases h
  | buffer desc handle =>
    obtain ⟨a, -, rfl⟩ := Option.map_eq_some_iff.1 h
    simp [Destroyed.isView, kind]
  | bufferView desc origin handle =>
    obtain ⟨a, -, rfl⟩ := Option.map_eq_some_iff.1 h
    simp [Destroyed.isView, kind]
  | image desc handle external =>
    obtain ⟨a, -, rfl⟩ := Option.map_eq_some_iff.1 h
    simp [Destroyed.isView, kind]
  | imageView desc origin handle =>
    obtain ⟨a, -, rfl⟩ := Option.map_eq_some_iff.1 h
    simp [Destroyed.isView, kind]

theorem isExternal_of_isView (h : p.object? = some x) (hx : x.isView = true) :
    p.isExternal = false := by
  have hkind := (isView_of_object h).1 hx
  cases p <;> simp_all [kind, isExternal]

end Payload

section
variable {d d' : Headless} {name : String} {origin : Option Payload} {p p' : Payload}
  {outcome : Except DeviceError Payload} {x : Object}

/-- What mounting a node does to the objects: nothing, or it makes the one that the node lacks. -/
inductive Realizes (origin : Option Payload) (p p' : Payload) (d d' : Headless) : Prop
  | same (hp : p' = p) (hd : d' = d)
  | make {x : Object} (hp : p.object? = none) (hp' : p'.object? = some x)
      (hexternal : p'.isExternal = p.isExternal) (hx : x.isView = false) (h : d.Makes d' x none)
  /-- A view shows the object of the parent. -/
  | show {x y : Object} {o : Payload} (hp : p.object? = none) (hp' : p'.object? = some x)
      (hx : x.isView = true) (ho : origin = some o) (hy : o.object? = some y)
      (h : d.Makes d' x (some y))

/-- A call that makes an object or is refused leaves a payload with the object or as it was. -/
theorem attach_outcome {κ : ObjectKind} {put : Handle κ → Payload}
    {call : DeviceCall Headless (Handle κ)} {made : Handle κ} {P : Headless → Prop}
    (hcall : (∃ e, call d = (.error e, d)) ∨ ∃ d', call d = (.ok made, d') ∧ P d')
    (h : Payload.attach put call d = (outcome, d')) :
    (outcome.toOption.getD p = p ∧ d' = d) ∨ (outcome.toOption.getD p = put made ∧ P d') := by
  obtain ⟨rfl, houtcome⟩ := Payload.attach_cases h
  rcases hcall with ⟨e, hcall⟩ | ⟨d', hcall, hP⟩
  · rw [hcall] at houtcome ⊢
    rcases houtcome with ⟨h, hok, -⟩ | ⟨e', -, rfl⟩
    · cases hok
    · exact .inl ⟨rfl, rfl⟩
  · rw [hcall] at houtcome ⊢
    rcases houtcome with ⟨h, hok, rfl⟩ | ⟨e', herror, -⟩
    · cases hok
      exact .inr ⟨rfl, hP⟩
    · cases herror

/-- **Mounting a node makes the object that it lacks**, and no other. -/
theorem realizes (h : Payload.realize name origin p d = .ok (outcome, d')) :
    Realizes origin p (outcome.toOption.getD p) d d' := by
  unfold Payload.realize at h
  split at h
  · next desc =>
    have hcall := Headless.createBuffer_makes desc name d
    rcases attach_outcome hcall (Except.ok.inj h) with ⟨hp, hd⟩ | ⟨hp, hmakes⟩
    · exact .same hp hd
    · rw [hp]
      exact .make rfl rfl rfl rfl hmakes
  · next desc of b desc' shown =>
    have hcall := Headless.createBufferView_makes shown d
    rcases attach_outcome (.inr hcall) (Except.ok.inj h) with ⟨hp, hd⟩ | ⟨hp, hmakes⟩
    · exact .same hp hd
    · rw [hp]
      exact .show rfl rfl rfl rfl rfl hmakes
  · cases h
  · next desc external =>
    have hcall := Headless.createImage_makes desc name d
    rcases attach_outcome hcall (Except.ok.inj h) with ⟨hp, hd⟩ | ⟨hp, hmakes⟩
    · exact .same hp hd
    · rw [hp]
      exact .make rfl rfl rfl rfl hmakes
  · next desc of b desc' shown external =>
    have hcall := Headless.createImageView_makes shown d
    rcases attach_outcome (.inr hcall) (Except.ok.inj h) with ⟨hp, hd⟩ | ⟨hp, hmakes⟩
    · exact .same hp hd
    · rw [hp]
      exact .show rfl rfl rfl rfl rfl hmakes
  · cases h
  · cases h
    exact .same rfl rfl

/-- **Releasing a node destroys the object that it owns**, and no other. -/
theorem release_destroys (h : p.release d = .ok (p', d')) :
    (p.owned? = none ∧ p' = p ∧ d' = d) ∨
    ∃ x, p.owned? = some x ∧ p'.object? = none ∧ p'.isExternal = false ∧ d.Destroys d' x := by
  cases p with
  | swapchain source acquired =>
    cases h
    exact .inl ⟨rfl, rfl, rfl⟩
  | buffer desc handle =>
    cases handle with
    | none =>
      cases h
      exact .inl ⟨rfl, rfl, rfl⟩
    | some b =>
      obtain ⟨e, he, h⟩ := Except.bind_eq_ok_iff.1 h
      cases h
      exact .inr ⟨_, rfl, rfl, rfl, Headless.destroyBuffer_destroys he⟩
  | bufferView desc of handle =>
    cases handle with
    | none =>
      cases h
      exact .inl ⟨rfl, rfl, rfl⟩
    | some b =>
      cases h
      exact .inr ⟨_, rfl, rfl, rfl, Headless.destroyBufferView_destroys b d⟩
  | image desc handle external =>
    rcases handle with _ | b
    · cases h
      exact .inl ⟨by cases external <;> rfl, rfl, rfl⟩
    · cases external with
      | true =>
        cases h
        exact .inl ⟨rfl, rfl, rfl⟩
      | false =>
        obtain ⟨e, he, h⟩ := Except.bind_eq_ok_iff.1 h
        cases h
        exact .inr ⟨_, rfl, rfl, rfl, Headless.destroyImage_destroys he⟩
  | imageView desc of handle =>
    cases handle with
    | none =>
      cases h
      exact .inl ⟨rfl, rfl, rfl⟩
    | some b =>
      cases h
      exact .inr ⟨_, rfl, rfl, rfl, Headless.destroyImageView_destroys b d⟩

/-- **A release is refused only while a view shows the object.** -/
theorem exists_release (h : ∀ x, p.owned? = some x → ∀ v, (v, x) ∉ d.views) :
    ∃ p' d', p.release d = .ok (p', d') := by
  unfold Payload.release
  split
  · next desc b =>
    obtain ⟨e, he⟩ := Headless.exists_destroyBuffer (h _ rfl)
    exact ⟨_, e, Except.bind_eq_ok_iff.2 ⟨e, he, rfl⟩⟩
  · exact ⟨_, _, rfl⟩
  · next desc b =>
    obtain ⟨e, he⟩ := Headless.exists_destroyImage (h _ rfl)
    exact ⟨_, e, Except.bind_eq_ok_iff.2 ⟨e, he, rfl⟩⟩
  · exact ⟨_, _, rfl⟩
  · exact ⟨_, _, rfl⟩

end

/-! ## The device in an operation -/

section
open Relation (ReflTransGen)

variable {f f' : Forest} {d d' : Headless}

theorem Grows.change (h : Grows (f, d) (f', d')) : d.Change d' := by
  cases h with
  | clock => exact .same (.refl d)
  | register => exact .same (.refl d)
  | «unfold» => exact .same (.refl d)
  | acquire => exact .same (.refl d)
  | mountNode h =>
    rcases mountNode_ok h with ⟨-, rfl⟩ | ⟨n, outcome, -, hrealize, -⟩
    · exact .same (.refl d')
    · cases realizes hrealize with
      | same _ hd => exact hd ▸ .same (.refl d')
      | make _ _ _ _ hmakes => exact .make hmakes
      | «show» _ _ _ _ _ hmakes => exact .make hmakes

theorem Releases.change (h : Releases (f, d) (f', d')) : d.Change d' := by
  obtain ⟨h⟩ := h
  rcases releaseNode_ok h with ⟨-, rfl⟩ | ⟨n, payload, -, hrelease, -⟩
  · exact .same (.refl d')
  · rcases release_destroys hrelease with ⟨-, -, rfl⟩ | ⟨x, -, -, -, hd⟩
    · exact .same (.refl d')
    · exact .destroy hd

/-- **An operation comes to steps of the device.** -/
theorem Operation.changes {o : Operation} (ho : o.run f d = .ok (f', d')) :
    ReflTransGen Headless.Change d d' := by
  rcases o.run_cases ho with ⟨-, hgrows⟩ | ⟨-, hreleases⟩ | ⟨name, source, -, -, rfl, rfl⟩
  · exact hgrows.lift Prod.snd fun _ _ h => Grows.change h
  · exact hreleases.lift Prod.snd fun _ _ h => Releases.change h
  · exact .refl

/-- Numbers that were given out stay so. -/
theorem Headless.lastHandle_le (h : ReflTransGen Headless.Change d d') :
    d.lastHandle ≤ d'.lastHandle := by
  refine kept_by_all (P := fun e => d.lastHandle ≤ e.lastHandle) (fun e e' h he => ?_) h
    (Nat.le_refl _)
  cases h with
  | same h => exact Nat.le_trans he h.lastHandle
  | make h => exact Nat.le_trans he (h.lastHandle ▸ Nat.le_succ _)
  | destroy h => exact Nat.le_trans he (Nat.le_of_eq h.lastHandle.symm)

end

end FrameGraph
