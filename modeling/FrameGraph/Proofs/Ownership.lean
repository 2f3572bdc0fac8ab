import FrameGraph.Proofs.Objects
import FrameGraph.Proofs.WellFormed

/-!
# Who owns an object

Every object of the headless device is owned by one node, and every view shows the object of the
node's parent: the forest and the device keep one ledger (`Ledger`). Images made elsewhere are no
part of it; their numbers are no object's (`Headless.IsOutside`). Each small change of the forest
keeps the ledger and is one step of the device (`Ledger.grows`, `Ledger.releases`).
-/

set_option autoImplicit false

namespace FrameGraph

/-! ## Reading a forest -/

/-- Images made elsewhere that a node stands for or, as a swapchain, unfolds into. -/
def Node.outside (n : Node) : List (Handle .image) :=
  match n.payload with
  | .image _ h true => h.toList
  | .swapchain source _ => source.images
  | _ => []

theorem Node.outside_eq_nil {n : Node} (hexternal : n.payload.isExternal = false)
    (hkind : n.kind ≠ .swapchain) : n.outside = [] := by
  unfold Node.kind at hkind
  unfold outside
  split
  · next hp =>
    rw [hp] at hexternal
    cases hexternal
  · next hp =>
    rw [hp] at hkind
    exact absurd rfl hkind
  · rfl

/-- A node that is not mounted has no object, and swapchains are always mounted. -/
theorem Node.object?_of_not_backed {n : Node} (h : n.isBacked = false) :
    n.payload.object? = none ∧ n.kind ≠ .swapchain := by
  unfold Node.isBacked at h
  unfold Node.kind
  cases hp : n.payload <;> simp_all [Payload.isBacked, Payload.object?, Payload.kind]

/-- What a node has to do with objects. -/
def Node.holding (n : Node) : Option Nat × Option Object × Bool × List (Handle .image) :=
  (n.parent, n.payload.object?, n.payload.isExternal, n.outside)

namespace Forest

/-- Whether the node at a position has a property. -/
def At (f : Forest) (i : Nat) (P : Node → Prop) : Prop := ∃ n, f.nodes[i]? = some n ∧ P n

/-- Whether the node at a position has an object. -/
def Has (f : Forest) (i : Nat) (x : Object) : Prop := f.At i (·.payload.object? = some x)

/-- Whether the node at a position has an object that the forest has to destroy. -/
def Owns (f : Forest) (i : Nat) (x : Object) : Prop := f.At i (·.payload.owned? = some x)

variable {f f' : Forest} {n n' : Node} {i j : Nat} {P : Node → Prop} {x y : Object}

theorem at_put_iff (hn : f.nodes[i]? = some n) :
    (f.put i n').At j P ↔ j ≠ i ∧ f.At j P ∨ j = i ∧ P n' := by
  by_cases hij : j = i
  · subst hij
    simp [At, nodes_put_self hn]
  · simp [At, nodes_put_ne (Ne.symm hij), hij]

/-- What a node without gets, it has besides what all nodes had. -/
theorem at_put_given {view : Node → Option Object} (hn : f.nodes[i]? = some n)
    (hnone : view n = none) (hx : view n' = some x) :
    (f.put i n').At j (view · = some y) ↔ f.At j (view · = some y) ∨ j = i ∧ y = x := by
  refine (at_put_iff hn).trans ?_
  constructor
  · rintro (⟨-, h⟩ | ⟨rfl, h⟩)
    · exact .inl h
    · rw [hx] at h
      exact .inr ⟨rfl, (Option.some.inj h).symm⟩
  · rintro (⟨m, hm, h⟩ | ⟨rfl, rfl⟩)
    · refine .inl ⟨?_, m, hm, h⟩
      rintro rfl
      rw [hn] at hm
      obtain rfl := Option.some.inj hm
      rw [hnone] at h
      cases h
    · exact .inr ⟨rfl, hx⟩

/-- What is taken from a node, only the other nodes have. -/
theorem at_put_taken {view : Node → Option Object} (hn : f.nodes[i]? = some n)
    (hnone : view n' = none) :
    (f.put i n').At j (view · = some y) ↔ j ≠ i ∧ f.At j (view · = some y) := by
  refine (at_put_iff hn).trans (or_iff_left ?_)
  rintro ⟨-, h⟩
  rw [hnone] at h
  cases h

theorem at_push_iff : (f.push n).At j P ↔ f.At j P ∨ j = f.size ∧ P n := by
  constructor
  · rintro ⟨m, hm, hP⟩
    rcases nodes_push_cases hm with hm | ⟨rfl, rfl⟩
    · exact .inl ⟨m, hm, hP⟩
    · exact .inr ⟨rfl, hP⟩
  · rintro (⟨m, hm, hP⟩ | ⟨rfl, hP⟩)
    · exact ⟨m, nodes_push_of_some hm, hP⟩
    · exact ⟨n, nodes_push_size, hP⟩

theorem Has.unique (hx : f.Has i x) (hy : f.Has i y) : x = y := by
  obtain ⟨n, hn, hx⟩ := hx
  obtain ⟨m, hm, hy⟩ := hy
  rw [hn] at hm
  obtain rfl := Option.some.inj hm
  rw [hx] at hy
  exact Option.some.inj hy

theorem Owns.has (h : f.Owns i x) : f.Has i x := by
  obtain ⟨n, hn, hx⟩ := h
  exact ⟨n, hn, (Payload.owned?_eq_some_iff.1 hx).1⟩

/-- Views are never made elsewhere. -/
theorem Has.owns (h : f.Has i x) (hx : x.isView = true) : f.Owns i x := by
  obtain ⟨n, hn, hobject⟩ := h
  exact ⟨n, hn, Payload.owned?_eq_some_iff.2 ⟨hobject, Payload.isExternal_of_isView hobject hx⟩⟩

/-- An image that the forest does not own was made elsewhere. -/
theorem Has.owns_or_outside (h : f.Has i x) : f.Owns i x ∨ ∃ image : Handle .image,
    x = .image image ∧ f.At i (image ∈ ·.outside) ∧ f.At i (·.payload.isExternal = true) := by
  obtain ⟨n, hn, hobject⟩ := h
  cases hexternal : n.payload.isExternal with
  | false => exact .inl ⟨n, hn, Payload.owned?_eq_some_iff.2 ⟨hobject, hexternal⟩⟩
  | true =>
    refine .inr ?_
    have hself : f.At i (·.payload.isExternal = true) := ⟨n, hn, hexternal⟩
    unfold Payload.isExternal at hexternal
    split at hexternal
    · next desc handle external hp =>
      rw [hp] at hobject
      obtain ⟨image, rfl, rfl⟩ := Option.map_eq_some_iff.1 hobject
      exact ⟨image, rfl, ⟨n, hn, by simp [Node.outside, hp, hexternal]⟩, hself⟩
    · cases hexternal

/-- Buffers are never made elsewhere. -/
theorem owns_buffer_iff {b : Handle .buffer} :
    f.Owns i (.buffer b) ↔ f.Has i (.buffer b) := by
  refine ⟨Owns.has, fun h => ?_⟩
  rcases h.owns_or_outside with h | ⟨image, himage, -⟩
  · exact h
  · cases himage

/-- What nodes hold tells all that the ledger asks of them. -/
theorem at_of_holding (hs : f'.nodes.map Node.holding = f.nodes.map Node.holding)
    (hP : ∀ n n' : Node, n'.holding = n.holding → P n' → P n) (h : f'.At i P) : f.At i P := by
  obtain ⟨n', hn', hp⟩ := h
  have hi : (f.nodes.map Node.holding)[i]? = some n'.holding := by
    rw [← hs, List.getElem?_map, hn']
    rfl
  rw [List.getElem?_map, Option.map_eq_some_iff] at hi
  obtain ⟨n, hn, hsame⟩ := hi
  exact ⟨n, hn, hP n n' hsame.symm hp⟩

theorem has_of_holding (hs : f'.nodes.map Node.holding = f.nodes.map Node.holding)
    (h : f'.Has i x) : f.Has i x :=
  at_of_holding hs (fun _ _ hsame hx => (congrArg (·.2.1) hsame).symm.trans hx) h

theorem owns_of_holding (hs : f'.nodes.map Node.holding = f.nodes.map Node.holding)
    (h : f'.Owns i x) : f.Owns i x := by
  refine at_of_holding hs (fun n n' hsame hx => ?_) h
  obtain ⟨hobject, hinside⟩ := Payload.owned?_eq_some_iff.1 hx
  exact Payload.owned?_eq_some_iff.2 ⟨(congrArg (·.2.1) hsame).symm.trans hobject,
    (congrArg (·.2.2.1) hsame).symm.trans hinside⟩

theorem hierarchy_of_holding (hs : f'.nodes.map Node.holding = f.nodes.map Node.holding) :
    f'.hierarchy = f.hierarchy := by
  have hview (g : Forest) : g.hierarchy = (g.nodes.map Node.holding).map (·.1) := by
    rw [List.map_map]
    rfl
  rw [hview, hview, hs]

end Forest

/-! ## The ledger -/

/-- Whether an image was made elsewhere: its number is out, and no object of the device has it. -/
def Headless.IsOutside (d : Headless) (image : Handle .image) : Prop :=
  image.id ≤ d.lastHandle ∧ ∀ x ∈ d.made, x.id ≠ image.id

/-- Whether the forest and the device agree on all objects; `spare` are images made elsewhere. -/
structure Ledger (f : Forest) (d : Headless) (spare : List (Handle .image)) : Prop where
  books : d.Books
  alive : ∀ x, x ∈ d.alive ↔ ∃ i, f.Owns i x
  owner : ∀ i j x, f.Owns i x → f.Owns j x → i = j
  /-- A view shows the object of its parent. -/
  shows : ∀ i v, f.Has i v → v.isView = true →
    ∃ j y, i ∈ f.children j ∧ f.Has j y ∧ (v, y) ∈ d.views
  external : ∀ i, f.At i (·.payload.isExternal = true) → ∃ x, f.Has i x
  outside : ∀ i image, f.At i (image ∈ ·.outside) → d.IsOutside image
  spare : ∀ image ∈ spare, d.IsOutside image

namespace Headless.IsOutside

variable {d d' : Headless} {image : Handle .image} {x : Object} {shown : Option Object}

theorem same (h : d.IsOutside image) (hd : d.SameObjects d') : d'.IsOutside image := by
  refine ⟨Nat.le_trans h.1 hd.lastHandle, fun x hx => ?_⟩
  rw [hd.made] at hx
  exact h.2 x hx

theorem make (h : d.IsOutside image) (hd : d.Makes d' x shown) : d'.IsOutside image := by
  have hknown := h.1
  have hfresh := hd.id
  refine ⟨by rw [hd.lastHandle]; omega, fun y hy => ?_⟩
  rcases List.mem_cons.1 (hd.made.mem_iff.1 hy) with rfl | hy
  · omega
  · exact h.2 y hy

theorem destroy (h : d.IsOutside image) (hd : d.Destroys d' x) (hbooks : d.Books)
    (hx : x ∈ d.alive) : d'.IsOutside image := by
  refine ⟨by rw [hd.lastHandle]; exact h.1, fun y hy => ?_⟩
  exact h.2 y ((hbooks.made_of_destroys hd hx).mem_iff.1 hy)

end Headless.IsOutside

namespace Ledger

variable {f f' : Forest} {d d' : Headless} {spare spare' : List (Handle .image)} {n n' : Node}
  {i : Nat} {x : Object} {shown : Option Object}

theorem empty : Ledger {} {} [] where
  books := .empty
  alive x := by simp [Headless.alive, Forest.Owns, Forest.At]
  owner i j x hi := by simp [Forest.Owns, Forest.At] at hi
  shows i v hi := by simp [Forest.Has, Forest.At] at hi
  external i hi := by simp [Forest.At] at hi
  outside i image hi := by simp [Forest.At] at hi
  spare image hi := by cases hi

/-- Nobody owns an object that is only made now. -/
theorem not_owns_of_makes (hl : Ledger f d spare) (hd : d.Makes d' x shown) : ¬ f.Owns i x := by
  intro h
  have hmade : x ∈ d.made := List.mem_append_left _ ((hl.alive x).2 ⟨i, h⟩)
  have hknown := hl.books.known x hmade
  have hid := hd.id
  omega

/-- Other nodes own other objects. -/
theorem ne_iff_of_owns (hl : Ledger f d spare) {j : Nat} {y : Object} (hi : f.Owns i x)
    (hj : f.Owns j y) : j ≠ i ↔ y ≠ x := by
  refine ⟨fun hji hyx => hji ?_, fun hyx hji => hyx ?_⟩
  · subst hyx
    exact hl.owner j i y hj hi
  · subst hji
    exact hj.has.unique hi.has

/-- The ledger stays right where neither nodes nor device change their objects. -/
theorem same (hl : Ledger f d spare) (hs : f'.nodes.map Node.holding = f.nodes.map Node.holding)
    (hd : d.SameObjects d') (hspare : ∀ image ∈ spare', d'.IsOutside image) :
    Ledger f' d' spare' := by
  refine ⟨hl.books.same hd, fun x => ?_, fun i j x hi hj => ?_, fun i v hv hview => ?_,
    fun i hi => ?_, fun i image hi => ?_, hspare⟩
  · rw [hd.alive, hl.alive]
    exact ⟨fun ⟨i, hi⟩ => ⟨i, Forest.owns_of_holding hs.symm hi⟩,
      fun ⟨i, hi⟩ => ⟨i, Forest.owns_of_holding hs hi⟩⟩
  · exact hl.owner i j x (Forest.owns_of_holding hs hi) (Forest.owns_of_holding hs hj)
  · obtain ⟨j, y, hj, hy, hvy⟩ := hl.shows i v (Forest.has_of_holding hs hv) hview
    refine ⟨j, y, ?_, Forest.has_of_holding hs.symm hy, hd.views ▸ hvy⟩
    rw [Forest.children, Forest.hierarchy_of_holding hs]
    exact hj
  · have hexternal : f.At i (·.payload.isExternal = true) :=
      Forest.at_of_holding hs (fun _ _ hsame h => (congrArg (·.2.2.1) hsame).symm.trans h) hi
    obtain ⟨x, hx⟩ := hl.external i hexternal
    exact ⟨x, Forest.has_of_holding hs.symm hx⟩
  · have houtside : f.At i (image ∈ ·.outside) := by
      refine Forest.at_of_holding hs (fun n n' hsame h => ?_) hi
      have hsame : n'.outside = n.outside := congrArg (·.2.2.2) hsame
      exact hsame ▸ h
    exact (hl.outside i image houtside).same hd

/-- A node that owns nothing may be added. -/
theorem push (hl : Ledger f d spare) (howned : n.payload.owned? = none)
    (hview : ∀ v, n.payload.object? = some v → v.isView = false)
    (hexternal : n.payload.isExternal = true → ∃ x, n.payload.object? = some x)
    (houtside : ∀ image ∈ n.outside, d.IsOutside image) (hspare : ∀ image ∈ spare', image ∈ spare) :
    Ledger (f.push n) d spare' := by
  have howns {i : Nat} {x : Object} : (f.push n).Owns i x ↔ f.Owns i x := by
    refine Forest.at_push_iff.trans (or_iff_left ?_)
    rintro ⟨-, hx⟩
    rw [howned] at hx
    cases hx
  refine ⟨hl.books, fun x => ?_, fun i j x hi hj => hl.owner i j x (howns.1 hi) (howns.1 hj),
    fun i v hv hisview => ?_, fun i hi => ?_, fun i image hi => ?_,
    fun image h => hl.spare image (hspare image h)⟩
  · rw [hl.alive]
    exact exists_congr fun i => howns.symm
  · rcases Forest.at_push_iff.1 hv with hv | ⟨-, hv⟩
    · obtain ⟨j, y, hj, hy, hvy⟩ := hl.shows i v hv hisview
      refine ⟨j, y, ?_, Forest.at_push_iff.2 (.inl hy), hvy⟩
      rw [Forest.children_push]
      exact List.mem_append_left _ hj
    · rw [hview v hv] at hisview
      cases hisview
  · rcases Forest.at_push_iff.1 hi with hi | ⟨rfl, hn⟩
    · obtain ⟨x, hx⟩ := hl.external i hi
      exact ⟨x, Forest.at_push_iff.2 (.inl hx)⟩
    · obtain ⟨x, hx⟩ := hexternal hn
      exact ⟨x, Forest.at_push_iff.2 (.inr ⟨rfl, hx⟩)⟩
  · rcases Forest.at_push_iff.1 hi with hi | ⟨-, hi⟩
    · exact hl.outside i image hi
    · exact houtside image hi

/-- A node without an object may get a new one. -/
theorem make (hl : Ledger f d spare) (hn : f.nodes[i]? = some n) (hparent : n'.parent = n.parent)
    (hnone : n.payload.object? = none) (hx : n'.payload.owned? = some x)
    (hd : d.Makes d' x shown)
    (hshown : x.isView = true → ∃ j y, n.parent = some j ∧ f.Has j y ∧ shown = some y) :
    Ledger (f.put i n') d' spare := by
  obtain ⟨hobject, hinside⟩ := Payload.owned?_eq_some_iff.1 hx
  have hunowned : n.payload.owned? = none := Payload.owned?_of_object_none hnone
  have hhas {j : Nat} {y : Object} : (f.put i n').Has j y ↔ f.Has j y ∨ j = i ∧ y = x :=
    Forest.at_put_given hn hnone hobject
  have howns {j : Nat} {y : Object} : (f.put i n').Owns j y ↔ f.Owns j y ∨ j = i ∧ y = x :=
    Forest.at_put_given hn hunowned hx
  have hfresh {j : Nat} : ¬ f.Owns j x := hl.not_owns_of_makes hd
  have hkind : n'.kind ≠ .swapchain := Payload.kind_of_object hobject
  refine ⟨hl.books.make hd, fun y => ?_, fun j k y hj hk => ?_, fun j v hv hview => ?_,
    fun j hj => ?_, fun j image hj => ?_, fun image h => (hl.spare image h).make hd⟩
  · rw [hd.alive.mem_iff, List.mem_cons, hl.alive]
    constructor
    · rintro (rfl | ⟨j, hj⟩)
      · exact ⟨i, howns.2 (.inr ⟨rfl, rfl⟩)⟩
      · exact ⟨j, howns.2 (.inl hj)⟩
    · rintro ⟨j, hj⟩
      rcases howns.1 hj with hj | ⟨-, rfl⟩
      · exact .inr ⟨j, hj⟩
      · exact .inl rfl
  · rcases howns.1 hj with hj | ⟨rfl, rfl⟩
    · rcases howns.1 hk with hk | ⟨-, rfl⟩
      · exact hl.owner j k y hj hk
      · exact absurd hj hfresh
    · rcases howns.1 hk with hk | ⟨rfl, -⟩
      · exact absurd hk hfresh
      · rfl
  · rcases hhas.1 hv with hv | ⟨rfl, rfl⟩
    · obtain ⟨k, y, hk, hy, hvy⟩ := hl.shows j v hv hview
      refine ⟨k, y, ?_, hhas.2 (.inl hy), (hd.views v y).2 (.inl hvy)⟩
      rw [Forest.children_put hn hparent]
      exact hk
    · obtain ⟨k, y, hk, hy, rfl⟩ := hshown hview
      refine ⟨k, y, ?_, hhas.2 (.inl hy), (hd.views _ y).2 (.inr ⟨rfl, rfl⟩)⟩
      exact Forest.mem_children_iff.2 ⟨n', Forest.nodes_put_self hn, hparent.trans hk⟩
  · rcases (Forest.at_put_iff hn).1 hj with ⟨-, hj⟩ | ⟨rfl, hj⟩
    · obtain ⟨y, hy⟩ := hl.external j hj
      exact ⟨y, hhas.2 (.inl hy)⟩
    · exact ⟨x, hhas.2 (.inr ⟨rfl, rfl⟩)⟩
  · rcases (Forest.at_put_iff hn).1 hj with ⟨-, hj⟩ | ⟨-, hj⟩
    · exact (hl.outside j image hj).make hd
    · rw [Node.outside_eq_nil hinside hkind] at hj
      cases hj

/-- An object that no view shows may be taken from its node and destroyed. -/
theorem destroy (hl : Ledger f d spare) (hn : f.nodes[i]? = some n)
    (hparent : n'.parent = n.parent) (hkind : n'.kind = n.kind) (hx : n.payload.owned? = some x)
    (hnone : n'.payload.object? = none) (hinside : n'.payload.isExternal = false)
    (hd : d.Destroys d' x) : Ledger (f.put i n') d' spare := by
  have hxi : f.Owns i x := ⟨n, hn, hx⟩
  have halive : x ∈ d.alive := (hl.alive x).2 ⟨i, hxi⟩
  have hhas {j : Nat} {y : Object} : (f.put i n').Has j y ↔ j ≠ i ∧ f.Has j y :=
    Forest.at_put_taken hn hnone
  have howns {j : Nat} {y : Object} : (f.put i n').Owns j y ↔ j ≠ i ∧ f.Owns j y :=
    Forest.at_put_taken hn (Payload.owned?_of_object_none hnone)
  have hother {j : Nat} {y : Object} (h : f.Owns j y) : j ≠ i ↔ y ≠ x := hl.ne_iff_of_owns hxi h
  refine ⟨hl.books.destroy hd halive, fun y => ?_, fun j k y hj hk => ?_, fun j v hv hview => ?_,
    fun j hj => ?_, fun j image hj => ?_,
    fun image h => (hl.spare image h).destroy hd hl.books halive⟩
  · rw [hd.alive, List.mem_filter, hl.alive, decide_eq_true_eq]
    constructor
    · rintro ⟨⟨j, hj⟩, hyx⟩
      exact ⟨j, howns.2 ⟨(hother hj).2 hyx, hj⟩⟩
    · rintro ⟨j, hj⟩
      obtain ⟨hji, hj⟩ := howns.1 hj
      exact ⟨⟨j, hj⟩, (hother hj).1 hji⟩
  · exact hl.owner j k y (howns.1 hj).2 (howns.1 hk).2
  · obtain ⟨hji, hv⟩ := hhas.1 hv
    obtain ⟨k, y, hk, hy, hvy⟩ := hl.shows j v hv hview
    -- nothing shows the object, so this view shows another one
    have hki : k ≠ i := by
      rintro rfl
      obtain rfl := hy.unique hxi.has
      exact hd.unshown v hvy
    have hvx : v ≠ x := (hother (hv.owns hview)).1 hji
    refine ⟨k, y, ?_, hhas.2 ⟨hki, hy⟩, ?_⟩
    · rw [Forest.children_put hn hparent]
      exact hk
    · rw [hd.views, List.mem_filter]
      exact ⟨hvy, decide_eq_true hvx⟩
  · rcases (Forest.at_put_iff hn).1 hj with ⟨hji, hj⟩ | ⟨-, hj⟩
    · obtain ⟨y, hy⟩ := hl.external j hj
      exact ⟨y, hhas.2 ⟨hji, hy⟩⟩
    · rw [hinside] at hj
      cases hj
  · rcases (Forest.at_put_iff hn).1 hj with ⟨-, hj⟩ | ⟨-, hj⟩
    · exact (hl.outside j image hj).destroy hd hl.books halive
    · have hobject := (Payload.owned?_eq_some_iff.1 hx).1
      have hnot : n'.kind ≠ .swapchain := by
        rw [hkind]
        exact Payload.kind_of_object hobject
      rw [Node.outside_eq_nil hinside hnot] at hj
      cases hj

/-! ## Reading the ledger -/

section
variable (hl : Ledger f d spare)
include hl

/-- **The views of the device are those of the nodes**, each showing its parent's object. -/
theorem mem_views_iff {v x : Object} : (v, x) ∈ d.views ↔
    v.isView = true ∧ ∃ i j, f.Has i v ∧ i ∈ f.children j ∧ f.Has j x := by
  constructor
  · intro h
    have hview := (Headless.isView_of_mem_views h).1
    obtain ⟨i, hi⟩ := (hl.alive v).1 (Headless.mem_alive_of_mem_views h)
    obtain ⟨j, y, hj, hy, hvy⟩ := hl.shows i v hi.has hview
    obtain rfl := hl.books.view_unique h hvy
    exact ⟨hview, i, j, hi.has, hj, hy⟩
  · rintro ⟨hview, i, j, hi, hj, hx⟩
    obtain ⟨j', y, hj', hy, hvy⟩ := hl.shows i v hi hview
    obtain ⟨n, hn, hparent⟩ := Forest.mem_children_iff.1 hj
    obtain ⟨m, hm, hparent'⟩ := Forest.mem_children_iff.1 hj'
    rw [hn] at hm
    obtain rfl := Option.some.inj hm
    rw [hparent] at hparent'
    obtain rfl := Option.some.inj hparent'
    obtain rfl := hx.unique hy
    exact hvy

/-- What the device has made is owned by the node that has it. -/
theorem owns_of_made (hx : f.Has i x) (hmade : x ∈ d.made) : f.Owns i x := by
  rcases hx.owns_or_outside with hx | ⟨image, rfl, himage, -⟩
  · exact hx
  · exact absurd rfl ((hl.outside i image himage).2 _ hmade)

/-- No node has what was destroyed. -/
theorem not_destroyed (hx : f.Has i x) : x ∉ d.destroyed := by
  intro hdestroyed
  have howned := hl.owns_of_made hx (List.mem_append_right _ hdestroyed)
  exact hl.books.not_alive_of_destroyed hdestroyed ((hl.alive x).2 ⟨i, howned⟩)

/-- A number stands for the objects of two nodes only if both have one image made elsewhere. -/
theorem owner_of_id {i j : Nat} {x y : Object} (hi : f.Has i x) (hj : f.Has j y)
    (hid : x.id = y.id) : i = j ∨ ∃ image : Handle .image, x = .image image ∧ y = .image image ∧
      f.At i (·.payload.isExternal = true) ∧ f.At j (·.payload.isExternal = true) := by
  have hmade {i : Nat} {x : Object} (h : f.Owns i x) : x ∈ d.made :=
    List.mem_append_left _ ((hl.alive x).2 ⟨i, h⟩)
  rcases hi.owns_or_outside with hi | ⟨image, rfl, hi, hexternal⟩
  · rcases hj.owns_or_outside with hj | ⟨image, rfl, hj, -⟩
    · obtain rfl := hl.books.eq_of_id (hmade hi) (hmade hj) hid
      exact .inl (hl.owner i j x hi hj)
    · exact absurd hid ((hl.outside j image hj).2 x (hmade hi))
  · rcases hj.owns_or_outside with hj | ⟨image', rfl, -, hexternal'⟩
    · exact absurd hid.symm ((hl.outside i image hi).2 y (hmade hj))
    · obtain rfl : image = image' := by
        cases image
        cases image'
        exact congrArg _ hid
      exact .inr ⟨image, rfl, rfl, hexternal, hexternal'⟩

end

/-! ## Small changes -/

theorem mountNode {r : Except DeviceError Unit} (hl : Ledger f d spare)
    (h : f.mountNode d i = .ok (r, f', d')) : Ledger f' d' spare := by
  rcases mountNode_ok h with ⟨rfl, rfl⟩ | ⟨n, outcome, hn, hrealize, rfl⟩
  · exact hl
  · cases realizes hrealize with
    | same hp hd =>
      rw [hp]
      subst hd
      have hs := Forest.map_nodes_put (m := { n with life := f.life }) Node.holding hn rfl
      exact hl.same hs (.refl d') hl.spare
    | make hp hp' hexternal hx hmakes =>
      have hinside : n.payload.isExternal = false := by
        cases hexternal : n.payload.isExternal with
        | false => rfl
        | true =>
          -- an image made elsewhere is not made here
          obtain ⟨y, m, hm, hy⟩ := hl.external i ⟨n, hn, hexternal⟩
          rw [hn] at hm
          obtain rfl := Option.some.inj hm
          rw [hp] at hy
          cases hy
      have howned := Payload.owned?_eq_some_iff.2 ⟨hp', hexternal.trans hinside⟩
      refine hl.make hn rfl hp howned hmakes fun hview => ?_
      rw [hx] at hview
      cases hview
    | «show» hp hp' hx ho hy hmakes =>
      have howned := Payload.owned?_eq_some_iff.2 ⟨hp', Payload.isExternal_of_isView hp' hx⟩
      refine hl.make hn rfl hp howned hmakes fun _ => ?_
      obtain ⟨p, hparent, rfl⟩ := Option.map_eq_some_iff.1 ho
      obtain ⟨j, hj, hpj⟩ := Option.bind_eq_some_iff.1 hparent
      exact ⟨j, _, hj, ⟨p, hpj, hy⟩, rfl⟩

theorem register (hl : Ledger f d spare) (h : f.Registers n) : Ledger (f.push n) d spare := by
  obtain ⟨hnone, hkind⟩ := Node.object?_of_not_backed h.isBacked
  have hinside := Payload.isExternal_of_inside h.inside
  refine hl.push (Payload.owned?_of_object_none hnone) (fun v hv => ?_) (fun hexternal => ?_)
    (fun image himage => ?_) (fun image himage => himage)
  · rw [hnone] at hv
    cases hv
  · rw [hinside] at hexternal
    cases hexternal
  · rw [Node.outside_eq_nil hinside hkind] at himage
    cases himage

/-- A swapchain's image was made elsewhere, whoever stands for it. -/
theorem unfold {image : Handle .image} (hl : Ledger f d spare) (h : f.Shows n i image) :
    Ledger (f.push n) d spare := by
  obtain ⟨desc, hp⟩ := h.payload
  obtain ⟨s, source, acquired, hs, hsource, himage⟩ := h.source
  have houtside : d.IsOutside image := by
    refine hl.outside i image ⟨s, hs, ?_⟩
    simp only [Node.outside, hsource]
    exact List.mem_of_getElem? himage
  refine hl.push ?_ (fun v hv => ?_) (fun _ => ?_) (fun image' himage' => ?_)
    (fun image himage => himage)
  · simp [Payload.owned?, hp, Payload.isExternal]
  · rw [hp] at hv
    obtain rfl := Option.some.inj hv
    rfl
  · exact ⟨_, by rw [hp]; rfl⟩
  · simp only [Node.outside, hp, Option.mem_toList, Option.some.injEq] at himage'
    exact himage' ▸ houtside

theorem grows (hl : Ledger f d spare) (h : Grows (f, d) (f', d')) : Ledger f' d' spare := by
  cases h with
  | clock => exact hl.same rfl (.refl d) hl.spare
  | register _ h => exact hl.register h
  | «unfold» _ h => exact hl.unfold h
  | acquire _ index hn hp =>
    rename_i n i source acquired
    have hs := Forest.map_nodes_put (m := { n with payload := .swapchain source index })
      Node.holding hn (by simp [Node.holding, hp, Node.outside, Payload.object?,
        Payload.isExternal])
    exact hl.same hs (.refl d) hl.spare
  | mountNode h => exact hl.mountNode h

theorem releases (hl : Ledger f d spare) (h : Releases (f, d) (f', d')) : Ledger f' d' spare := by
  obtain ⟨h⟩ := h
  rcases releaseNode_ok h with ⟨rfl, rfl⟩ | ⟨n, payload, hn, hrelease, rfl⟩
  · exact hl
  · rcases release_destroys hrelease with ⟨-, rfl, rfl⟩ | ⟨x, hx, hnone, hinside, hd⟩
    · have hs := Forest.map_nodes_put
        (m := { n with current := if n.payload.forgetsState then .undefined else n.current })
        Node.holding hn rfl
      exact hl.same hs (.refl d') hl.spare
    · exact hl.destroy hn rfl (kind_of_bare (bare_of_release hrelease)) hx hnone hinside hd

/-! ## Operations and frames -/

/-- **Every operation keeps the ledger**, if the images that it brings in are made elsewhere. -/
theorem operate {o : Operation} (hl : Ledger f d spare) (himages : o.images ⊆ spare)
    (hspare : spare' ⊆ spare) (ho : o.run f d = .ok (f', d')) : Ledger f' d' spare' := by
  have hless {g : Forest} {e : Headless} (hg : Ledger g e spare) : Ledger g e spare' :=
    hg.same rfl (.refl e) fun image h => hg.spare image (hspare h)
  rcases o.run_cases ho with ⟨-, hgrows⟩ | ⟨-, hreleases⟩ | ⟨name, source, hsource, -, rfl, rfl⟩
  · exact hless (kept_by_all (P := fun s : Forest × Headless => Ledger s.1 s.2 spare)
      (fun _ _ hstep hs => hs.grows hstep) hgrows hl)
  · exact hless (kept_by_all (P := fun s : Forest × Headless => Ledger s.1 s.2 spare)
      (fun _ _ hstep hs => hs.releases hstep) hreleases hl)
  · refine hl.push rfl (fun v hv => ?_) (fun hexternal => ?_) (fun image himage => ?_)
      (fun image himage => hspare himage)
    · cases hv
    · cases hexternal
    · exact hl.spare image (himages (hsource ▸ himage))

/-- An image made elsewhere takes a number that no object has. -/
theorem mint (hl : Ledger f d spare) :
    Ledger f d.externalImage.2 (spare ++ [d.externalImage.1]) := by
  have hd := d.externalImage_same
  refine hl.same rfl hd fun image himage => ?_
  rcases List.mem_append.1 himage with himage | himage
  · exact (hl.spare image himage).same hd
  · obtain rfl := List.mem_singleton.1 himage
    refine ⟨Nat.le_refl _, fun x hx hid => ?_⟩
    have hknown : x.id ≤ d.lastHandle := hl.books.known x hx
    have hfresh : x.id = d.lastHandle + 1 := hid
    omega

/-- A frame leaves all objects alone. -/
theorem frame {passes : List Pass} {shaders : Registry} {a : Analysis} (hl : Ledger f d spare)
    (ha : (analyze passes f shaders).result = .ok (a, f')) (hd : d.SameObjects d') :
    Ledger f' d' spare := by
  obtain ⟨-, -, -, rfl⟩ := analyze_ok_iff.1 ha
  exact hl.same (Forest.map_nodes_carry (fun _ _ => rfl) f _) hd fun image h =>
    (hl.spare image h).same hd

end Ledger

end FrameGraph
