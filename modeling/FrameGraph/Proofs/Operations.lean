import FrameGraph.Proofs.Declarations
import FrameGraph.Proofs.Hierarchies
import FrameGraph.Resource.Mount
import Mathlib.Logic.Relation

/-!
# Operations between frames

Between frames resources are registered, mounted and released. Every operation that does not stop
comes to a sequence of small changes: it adds nodes and makes objects (`Grows`), it destroys objects
(`Releases`), or it brings in a swapchain (`Operation.run_cases`). What the small changes keep, the
operations keep: every node stays the resource that it is, with the state that it carries as long
as its object lives (`Operation.exists_node`).
-/

set_option autoImplicit false

namespace FrameGraph

/-- What is asked of the resources between frames. -/
inductive Operation
  | addBuffer (name : String) (desc : BufferDesc) (residency : Residency)
  | addBufferView (name origin : String) (desc : BufferViewDesc)
  | addImage (name : String) (desc : ImageDesc) (residency : Residency)
  | addImageView (name origin : String) (desc : ImageViewDesc)
  | addSwapchain (name : String) (source : SwapchainImport)
  | acquire (name : String) (index : Nat)
  | mount (name : String)
  | unmount (name : String) (life : Nat)
  | unmountExpired (life : Nat)

/-- Whether an operation is a mount. -/
def Operation.isMount : Operation → Bool
  | mount _ => true
  | _ => false

variable {δ : Type} [Device δ]

/-- Carries an operation out. A mount that the device ends early leaves what was made before. -/
def Operation.run (o : Operation) (f : Forest) (device : δ) : Except Fault (Forest × δ) :=
  match o with
  | addBuffer name desc residency => do return (← f.addBuffer name desc residency, device)
  | addBufferView name origin desc => do return (← f.addBufferView name origin desc, device)
  | addImage name desc residency => do return (← f.addImage name desc residency, device)
  | addImageView name origin desc => do return (← f.addImageView name origin desc, device)
  | addSwapchain name source => do return (← f.addSwapchain name source, device)
  | acquire name index => do return (← f.acquire name index, device)
  | mount name => do return (← (f.mount name device).result).2
  | unmount name life => do return (← f.unmount name life device).2
  | unmountExpired life => do return (← f.unmountExpired life device).2

namespace ResourceKind

/-- Whether nodes of the kind show another node. -/
def isView : ResourceKind → Bool
  | .bufferView | .imageView => true
  | _ => false

/-- Whether nodes of one kind hang below nodes of another: views below what they show, and images
below the swapchain that shows them. -/
def holds : ResourceKind → ResourceKind → Bool
  | .buffer, .bufferView | .image, .imageView | .swapchain, .image => true
  | _, _ => false

end ResourceKind

namespace Forest

/-! ## Adding and changing nodes -/

/-- Whether a node stands where nodes of its kind stand. Only what is no view can be a root. -/
inductive Seats (f : Forest) (n : Node) : Prop
  | root (hparent : n.parent = none) (hview : n.kind.isView = false)
  | below {j : Nat} {p : Node} (hparent : n.parent = some j) (hp : f.nodes[j]? = some p)
      (hholds : p.kind.holds n.kind = true)

/-- Whether a view names the node that it hangs below and is kept as long as that node. -/
def Links (f : Forest) (n : Node) : Prop :=
  ∀ origin, n.payload.origin? = some origin → ∃ j p, n.parent = some j ∧
    f.nodes[j]? = some p ∧ p.name = origin ∧ p.residency = n.residency

/-- The forest with one more node. -/
def push (f : Forest) (n : Node) : Forest := { f with nodes := f.nodes ++ [n] }

/-- The names that are taken. -/
def names (f : Forest) : List String := f.nodes.map (·.name)

/-- Whether a node can be added that has no object yet and does not hang below a swapchain. -/
structure Registers (f : Forest) (n : Node) : Prop where
  fresh : n.name ∉ f.names
  current : n.current = .undefined
  life : n.life = 0
  isBacked : n.isBacked = false
  inside : ∀ desc h, n.payload ≠ .image desc h true
  parent : ∀ j, n.parent = some j → ∃ p, f.nodes[j]? = some p ∧ p.kind ≠ .swapchain
  seat : f.Seats n
  links : f.Links n

/-- Whether a node is the default view of the image `n` at `i`. -/
structure IsDefaultView (v : Node) (n : Node) (i : Nat) : Prop where
  kind : v.kind = .imageView
  parent : v.parent = some i
  name : v.name = defaultViewName n.name

/-- Whether a node stands for the first image of a swapchain that has no node yet. -/
structure Shows (f : Forest) (n : Node) (i : Nat) (image : Handle .image) : Prop where
  fresh : n.name ∉ f.names
  current : n.current = .undefined
  residency : n.residency = .swapchain
  parent : n.parent = some i
  payload : ∃ desc, n.payload = .image desc (some image) true
  source : ∃ s source acquired, f.nodes[i]? = some s ∧ s.payload = .swapchain source acquired ∧
    source.images[(f.children i).length]? = some image

variable {f f' : Forest} {n : Node} {i : Nat}

theorem nodes_push_of_some {m : Node} (h : f.nodes[i]? = some m) :
    (f.push n).nodes[i]? = some m := by
  obtain ⟨hlt, -⟩ := List.getElem?_eq_some_iff.1 h
  exact (List.getElem?_append_left hlt).trans h

theorem nodes_push_size : (f.push n).nodes[f.size]? = some n := List.getElem?_concat_length

/-- The node at a place of the longer forest. -/
theorem nodes_push_cases {m : Node} (h : (f.push n).nodes[i]? = some m) :
    f.nodes[i]? = some m ∨ i = f.size ∧ m = n := getElem?_concat_cases h

theorem children_push : (f.push n).children i =
    f.children i ++ if n.parent = some i then [f.size] else [] := by
  have hconcat := Hierarchy.children_concat f.hierarchy n.parent i
  rw [hierarchy, List.length_map] at hconcat
  unfold children hierarchy push size
  rw [List.map_append]
  exact hconcat

/-- The forest with another node at a position. -/
def put (f : Forest) (i : Nat) (n : Node) : Forest := { f with nodes := f.nodes.set i n }

theorem modify_eq_put {change : Node → Node} (h : f.nodes[i]? = some n) :
    f.modify i change = f.put i (change n) := by
  unfold modify put
  rw [List.modify_eq_set_getElem?, h]
  rfl

theorem nodes_put_self {m : Node} (h : f.nodes[i]? = some n) :
    (f.put i m).nodes[i]? = some m := by
  obtain ⟨hlt, -⟩ := List.getElem?_eq_some_iff.1 h
  exact List.getElem?_set_self hlt

theorem nodes_put_ne {j : Nat} {m : Node} (h : i ≠ j) :
    (f.put i m).nodes[j]? = f.nodes[j]? := List.getElem?_set_ne h

/-- The node at a place of the changed forest. -/
theorem nodes_put_cases {j : Nat} {m m' : Node} (h : f.nodes[i]? = some n)
    (hm : (f.put i m).nodes[j]? = some m') : f.nodes[j]? = some m' ∨ j = i ∧ m' = m := by
  by_cases hij : i = j
  · subst hij
    rw [nodes_put_self h] at hm
    exact .inr ⟨rfl, (Option.some.inj hm).symm⟩
  · rw [nodes_put_ne hij] at hm
    exact .inl hm

/-- What becomes of a node when one is changed. -/
theorem exists_node_put {j : Nat} {m : Node} (m' : Node) (hm : f.nodes[j]? = some m)
    (hn : f.nodes[i]? = some n) :
    ∃ n', (f.put j m').nodes[i]? = some n' ∧ (n' = n ∨ n = m ∧ n' = m') := by
  by_cases hij : j = i
  · subst hij
    rw [hm] at hn
    exact ⟨m', nodes_put_self hm, .inr ⟨(Option.some.inj hn).symm, rfl⟩⟩
  · exact ⟨n, (nodes_put_ne hij).trans hn, .inl rfl⟩

/-- What all nodes tell does not change with a node that tells the same. -/
theorem map_nodes_put {α : Type} {m : Node} (view : Node → α) (h : f.nodes[i]? = some n)
    (hview : view m = view n) : (f.put i m).nodes.map view = f.nodes.map view := by
  refine List.ext_getElem? fun j => ?_
  simp only [List.getElem?_map]
  by_cases hij : i = j
  · subst hij
    rw [nodes_put_self h, h]
    simp [hview]
  · rw [nodes_put_ne hij]

theorem hierarchy_put {m : Node} (h : f.nodes[i]? = some n) (hparent : m.parent = n.parent) :
    (f.put i m).hierarchy = f.hierarchy := map_nodes_put (·.parent) h hparent

theorem children_put {m : Node} (h : f.nodes[i]? = some n) (hparent : m.parent = n.parent)
    (j : Nat) : (f.put i m).children j = f.children j := by
  unfold children
  rw [hierarchy_put h hparent]

theorem contains_of_mem_names {name : String} (h : name ∈ f.names) : f.contains name = true := by
  obtain ⟨m, hm, rfl⟩ := List.mem_map.1 h
  have hany : (f.nodes.findIdx? (·.name == m.name)).isSome := by
    rw [List.findIdx?_isSome]
    exact List.any_eq_true.2 ⟨m, hm, beq_self_eq_true _⟩
  obtain ⟨i, hi⟩ := Option.isSome_iff_exists.1 hany
  obtain ⟨hlt, -⟩ := List.findIdx?_eq_some_iff_getElem.1 hi
  simp [contains, find?, hi, place?, List.getElem?_eq_getElem hlt]

/-- Only a new name can be registered. -/
theorem insert_ok (h : f.insert n = .ok f') : f' = f.push n ∧ n.name ∉ f.names := by
  unfold insert at h
  split at h
  · cases h
  · next hcontains =>
    exact ⟨(Except.ok.inj h).symm, fun hname => hcontains (contains_of_mem_names hname)⟩

theorem origin_ok {name : String} {kind : ResourceKind} {p : Place}
    (h : f.origin name kind = .ok p) :
    f.nodes[p.index]? = some p.node ∧ p.node.name = name ∧ p.node.kind = kind := by
  obtain ⟨q, hq, h⟩ := Except.bind_eq_ok_iff.1 h
  split at h
  · next hkind =>
    obtain rfl := Except.ok.inj h
    exact ⟨(nodes_of_find hq).1, (nodes_of_find hq).2, hkind⟩
  · cases h

end Forest

/-! ## Small changes -/

/-- One change on the way of registering or mounting. -/
inductive Grows : Forest × δ → Forest × δ → Prop
  | clock (f : Forest) (d : δ) : Grows (f, d) ({ f with life := f.life + 1 }, d)
  | register {f : Forest} {n : Node} (d : δ) (h : f.Registers n) : Grows (f, d) (f.push n, d)
  | unfold {f : Forest} {n : Node} {i : Nat} {image : Handle .image} (d : δ)
      (h : f.Shows n i image) : Grows (f, d) (f.push n, d)
  | acquire {f : Forest} {n : Node} {i : Nat} {source : SwapchainImport} {acquired : Nat} (d : δ)
      (index : Nat) (h : f.nodes[i]? = some n) (hp : n.payload = .swapchain source acquired) :
      Grows (f, d) (f.put i { n with payload := .swapchain source index }, d)
  | mountNode {f f' : Forest} {d d' : δ} {i : Nat} {r : Except DeviceError Unit}
      (h : f.mountNode d i = .ok (r, f', d')) : Grows (f, d) (f', d')

/-- One change on the way of releasing. -/
inductive Releases : Forest × δ → Forest × δ → Prop
  | releaseNode {f f' : Forest} {d d' : δ} {i : Nat} (h : f.releaseNode d i = .ok (f', d')) :
      Releases (f, d) (f', d')

open Relation (ReflTransGen)

/-- What every change keeps, any number of changes keep. -/
theorem kept_by_all {σ : Type} {R : σ → σ → Prop} {P : σ → Prop}
    (hR : ∀ s s', R s s' → P s → P s') {s s' : σ} (h : ReflTransGen R s s') (hs : P s) : P s' := by
  induction h with
  | refl => exact hs
  | tail _ hstep ih => exact hR _ _ hstep ih

section
variable {f f' : Forest} {d d' : δ}

/-! ### Registering -/

theorem addBuffer_ok {name : String} {desc : BufferDesc} {residency : Residency}
    (h : f.addBuffer name desc residency = .ok f') :
    ∃ n, f' = f.push n ∧ f.Registers n ∧ n.kind = .buffer := by
  obtain ⟨rfl, hfresh⟩ := Forest.insert_ok h
  exact ⟨_, rfl, ⟨hfresh, rfl, rfl, rfl, by simp, by simp, .root rfl rfl, by simp [Forest.Links,
    Payload.origin?]⟩, rfl⟩

theorem addBufferView_ok {name origin : String} {desc : BufferViewDesc}
    (h : f.addBufferView name origin desc = .ok f') :
    ∃ n, f' = f.push n ∧ f.Registers n ∧ n.kind = .bufferView := by
  obtain ⟨p, hp, h⟩ := Except.bind_eq_ok_iff.1 h
  obtain ⟨hn, hname, hkind⟩ := Forest.origin_ok hp
  obtain ⟨rfl, hfresh⟩ := Forest.insert_ok h
  refine ⟨_, rfl, ⟨hfresh, rfl, rfl, rfl, by simp, ?_, .below rfl hn ?_, ?_⟩, rfl⟩
  · intro j hj
    obtain rfl := Option.some.inj hj
    exact ⟨p.node, hn, by rw [hkind]; decide⟩
  · rw [hkind]
    rfl
  · intro o ho
    obtain rfl := Option.some.inj ho
    exact ⟨p.index, p.node, rfl, hn, hname, rfl⟩

theorem addImageView_ok {name origin : String} {desc : ImageViewDesc}
    (h : f.addImageView name origin desc = .ok f') :
    ∃ v n i, f' = f.push v ∧ f.Registers v ∧ v.kind = .imageView ∧ v.name = name ∧
      v.parent = some i ∧ f.nodes[i]? = some n ∧ n.name = origin := by
  obtain ⟨p, hp, h⟩ := Except.bind_eq_ok_iff.1 h
  obtain ⟨hn, hname, hkind⟩ := Forest.origin_ok hp
  obtain ⟨rfl, hfresh⟩ := Forest.insert_ok h
  refine ⟨_, p.node, p.index, rfl, ⟨hfresh, rfl, rfl, rfl, by simp, ?_, .below rfl hn ?_, ?_⟩, rfl,
    rfl, rfl, hn, hname⟩
  · intro j hj
    obtain rfl := Option.some.inj hj
    exact ⟨p.node, hn, by rw [hkind]; decide⟩
  · rw [hkind]
    rfl
  · intro o ho
    obtain rfl := Option.some.inj ho
    exact ⟨p.index, p.node, rfl, hn, hname, rfl⟩

/-- An image is registered with its default view. -/
theorem addImage_ok {name : String} {desc : ImageDesc} {residency : Residency}
    (h : f.addImage name desc residency = .ok f') :
    ∃ n v, f' = (f.push n).push v ∧ f.Registers n ∧ (f.push n).Registers v ∧
      Forest.IsDefaultView v n f.size := by
  obtain ⟨g, hg, h⟩ := Except.bind_eq_ok_iff.1 h
  obtain ⟨rfl, hfresh⟩ := Forest.insert_ok hg
  obtain ⟨v, m, i, rfl, hv, hkind, hvname, hparent, hm, hname⟩ := addImageView_ok h
  have hi : i = f.size := by
    rcases Forest.nodes_push_cases hm with hm | ⟨hi, -⟩
    · exact absurd (List.mem_map.2 ⟨m, List.mem_of_getElem? hm, hname⟩) hfresh
    · exact hi
  subst hi
  exact ⟨_, v, rfl, ⟨hfresh, rfl, rfl, rfl, by simp, by simp, .root rfl rfl, by simp [Forest.Links,
    Payload.origin?]⟩, hv, hkind, hparent, hvname⟩

theorem addBuffer_grows {name : String} {desc : BufferDesc} {residency : Residency}
    (h : f.addBuffer name desc residency = .ok f') : ReflTransGen Grows (f, d) (f', d) := by
  obtain ⟨n, rfl, hn, -⟩ := addBuffer_ok h
  exact .single (.register d hn)

theorem addBufferView_grows {name origin : String} {desc : BufferViewDesc}
    (h : f.addBufferView name origin desc = .ok f') : ReflTransGen Grows (f, d) (f', d) := by
  obtain ⟨n, rfl, hn, -⟩ := addBufferView_ok h
  exact .single (.register d hn)

theorem addImageView_grows {name origin : String} {desc : ImageViewDesc}
    (h : f.addImageView name origin desc = .ok f') : ReflTransGen Grows (f, d) (f', d) := by
  obtain ⟨v, -, -, rfl, hv, -⟩ := addImageView_ok h
  exact .single (.register d hv)

theorem addImage_grows {name : String} {desc : ImageDesc} {residency : Residency}
    (h : f.addImage name desc residency = .ok f') : ReflTransGen Grows (f, d) (f', d) := by
  obtain ⟨n, v, rfl, hn, hv, -⟩ := addImage_ok h
  exact .tail (.single (.register d hn)) (.register d hv)

theorem acquire_ok {name : String} {index : Nat} (h : f.acquire name index = .ok f') :
    ∃ i n source acquired, f.nodes[i]? = some n ∧ n.name = name ∧
      n.payload = .swapchain source acquired ∧ index < source.images.length ∧
      f' = f.put i { n with payload := .swapchain source index } := by
  obtain ⟨p, hp, h⟩ := Except.bind_eq_ok_iff.1 h
  obtain ⟨hn, hname⟩ := Forest.nodes_of_find hp
  split at h
  · next source acquired hpayload =>
    split at h
    · next hindex =>
      obtain rfl := Except.ok.inj h
      exact ⟨p.index, p.node, source, acquired, hn, hname, hpayload, hindex,
        Forest.modify_eq_put hn⟩
    · cases h
  · cases h

theorem acquire_grows {name : String} {index : Nat} (h : f.acquire name index = .ok f') :
    ReflTransGen Grows (f, d) (f', d) := by
  obtain ⟨i, n, source, acquired, hn, -, hp, -, rfl⟩ := acquire_ok h
  exact .single (.acquire d index hn hp)

/-! ### Mounting -/

/-- An image of a swapchain is added with its default view. -/
theorem addSwapchainImage_ok {p : Place} {desc : ImageDesc} {image : Handle .image} {k : Nat}
    (h : f.addSwapchainImage p desc image k = .ok f') :
    ∃ n v, f' = (f.push n).push v ∧ n.name ∉ f.names ∧ n.current = .undefined ∧
      n.residency = .swapchain ∧ n.parent = some p.index ∧
      n.payload = .image desc (some image) true ∧ (f.push n).Registers v ∧
      Forest.IsDefaultView v n f.size := by
  obtain ⟨g, hg, h⟩ := Except.bind_eq_ok_iff.1 h
  obtain ⟨rfl, hfresh⟩ := Forest.insert_ok hg
  obtain ⟨rfl, hfresh'⟩ := Forest.insert_ok h
  refine ⟨_, _, rfl, hfresh, rfl, rfl, rfl, rfl, ⟨hfresh', rfl, rfl, rfl, by simp, ?_,
    .below rfl Forest.nodes_push_size rfl, ?_⟩, rfl, rfl, rfl⟩
  · intro j hj
    obtain rfl := Option.some.inj hj
    exact ⟨_, Forest.nodes_push_size, by simp [Node.kind, Payload.kind]⟩
  · intro o ho
    obtain rfl := Option.some.inj ho
    exact ⟨f.size, _, rfl, Forest.nodes_push_size, rfl, rfl⟩

/-- The images of a swapchain that have no node yet are added in their order. -/
theorem addSwapchainImages_grows {p : Place} {source : SwapchainImport} {acquired : Nat}
    (hp : p.node.payload = .swapchain source acquired) {images : List (Handle .image)} {k : Nat}
    (hk : source.images.drop k = images) {g : Forest} (hn : g.nodes[p.index]? = some p.node)
    (hchildren : (g.children p.index).length = k)
    (h : (images.zipIdx k).foldlM
      (fun f (image, k) => f.addSwapchainImage p source.imageDesc image k) g = .ok f') :
    ReflTransGen Grows (g, d) (f', d) := by
  induction images generalizing g k with
  | nil =>
    obtain rfl := Except.ok.inj h
    exact .refl
  | cons image images ih =>
    rw [List.zipIdx_cons, List.foldlM_cons, Except.bind_eq_ok_iff] at h
    obtain ⟨g', hg', h⟩ := h
    obtain ⟨n, v, rfl, hfresh, hcur, hres, hpar, hpay, hregisters, hview⟩ :=
      addSwapchainImage_ok hg'
    have himage : (source.images.drop k)[0]? = some image := by
      rw [hk]
      rfl
    rw [List.getElem?_drop, Nat.add_zero] at himage
    have hshows : g.Shows n p.index image :=
      ⟨hfresh, hcur, hres, hpar, ⟨_, hpay⟩, p.node, source, acquired, hn, hp,
        by rw [hchildren, himage]⟩
    obtain ⟨hlt, -⟩ := List.getElem?_eq_some_iff.1 hn
    have hne : g.size ≠ p.index := Nat.ne_of_gt hlt
    refine .trans (.trans (.single (.unfold d hshows)) (.single (.register d hregisters))) ?_
    refine ih (k := k + 1) ?_ ?_ ?_ h
    · rw [← List.tail_drop, hk]
      rfl
    · exact Forest.nodes_push_of_some (Forest.nodes_push_of_some hn)
    · rw [Forest.children_push, Forest.children_push, hpar, hview.parent]
      simp [hne, hchildren]

/-- Only a swapchain that has no children yet is unfolded. -/
theorem expandSwapchain_ok {i : Nat} (h : (f.expandSwapchain i).result = .ok f') :
    f' = f ∨ ∃ n source acquired, f.nodes[i]? = some n ∧ n.payload = .swapchain source acquired ∧
      f.children i = [] ∧ source.images.zipIdx.foldlM
        (fun f (image, k) => f.addSwapchainImage ⟨i, n⟩ source.imageDesc image k) f = .ok f' := by
  unfold Forest.expandSwapchain at h
  split at h
  · next p hplace =>
    obtain ⟨rfl, hn⟩ := Forest.place?_eq_some_iff.1 hplace
    split at h
    · next source acquired hp hchildren =>
      rw [Traced.result_bind, Traced.result_report] at h
      obtain ⟨-, -, h⟩ := Except.bind_eq_ok_iff.1 h
      rw [Traced.result_foldlM] at h
      exact .inr ⟨p.node, source, acquired, hn, hp, hchildren, h⟩
    · obtain rfl := Except.ok.inj h
      exact .inl rfl
  · obtain rfl := Except.ok.inj h
    exact .inl rfl

theorem expandSwapchain_grows {i : Nat} (h : (f.expandSwapchain i).result = .ok f') :
    ReflTransGen Grows (f, d) (f', d) := by
  rcases expandSwapchain_ok h with rfl | ⟨n, source, acquired, hn, hp, hchildren, h⟩
  · exact .refl
  · refine addSwapchainImages_grows (p := ⟨i, n⟩) hp (by simp) hn ?_ h
    rw [hchildren]
    rfl

theorem mountNodes_grows {is : List Nat} {r : Except DeviceError Unit}
    (h : f.mountNodes d is = .ok (r, f', d')) : ReflTransGen Grows (f, d) (f', d') := by
  induction is generalizing f d with
  | nil =>
    cases h
    exact .refl
  | cons i is ih =>
    obtain ⟨⟨r', g, e⟩, hg, h⟩ := Except.bind_eq_ok_iff.1 h
    cases r' with
    | ok u => exact .head (.mountNode hg) (ih h)
    | error e' =>
      cases h
      exact .single (.mountNode hg)

/-- A mount moves the clock on, unfolds a swapchain and mounts the tree. -/
theorem mount_ok {name : String} {r : Except DeviceError Unit}
    (h : (f.mount name d).result = .ok (r, f', d')) : ∃ p g, f.find name = .ok p ∧
      (Forest.expandSwapchain { f with life := f.life + 1 } (f.root p.index)).result = .ok g ∧
      g.mountNodes d (g.subtree (f.root p.index)) = .ok (r, f', d') := by
  simp only [Forest.mount, Traced.result_bind, Except.bind_eq_ok_iff] at h
  obtain ⟨p, hp, g, hg, h⟩ := h
  exact ⟨p, g, hp, hg, h⟩

/-- A mount ends as the mount of the tree does, once the swapchain has unfolded. -/
theorem mount_of_expanded {name : String} {p : Place} {g : Forest} (hp : f.find name = .ok p)
    (hg : (Forest.expandSwapchain { f with life := f.life + 1 } (f.root p.index)).result = .ok g) :
    (f.mount name d).result = g.mountNodes d (g.subtree (f.root p.index)) := by
  simp only [Forest.mount, Traced.result_bind, Traced.result_ofExcept, hp]
  show ((_ : Except Fault Forest) >>= _) = _
  rw [hg]
  rfl

theorem mount_grows {name : String} {r : Except DeviceError Unit}
    (h : (f.mount name d).result = .ok (r, f', d')) : ReflTransGen Grows (f, d) (f', d') := by
  obtain ⟨p, g, -, hg, h⟩ := mount_ok h
  exact .head (.clock f d) (.trans (expandSwapchain_grows hg) (mountNodes_grows h))

/-! ### Releasing -/

theorem releaseNodes_releases {is : List Nat} {s s' : Forest × δ}
    (h : is.foldlM (fun s j => s.1.releaseNode s.2 j) s = .ok s') : ReflTransGen Releases s s' :=
  foldlM_inv (P := fun s' => ReflTransGen Releases s s')
    (fun _ _ _ hs hstep => .tail hs (.releaseNode hstep)) h .refl

theorem releaseSubtree_releases {i : Nat} (h : f.releaseSubtree d i = .ok (f', d')) :
    ReflTransGen Releases (f, d) (f', d') := releaseNodes_releases h

theorem unmount_releases {name : String} {life : Nat} {r : Bool}
    (h : f.unmount name life d = .ok (r, f', d')) : ReflTransGen Releases (f, d) (f', d') := by
  obtain ⟨p, -, h⟩ := Except.bind_eq_ok_iff.1 h
  split at h
  · cases h
    exact .refl
  · obtain ⟨⟨g, e⟩, hg, h⟩ := Except.bind_eq_ok_iff.1 h
    cases h
    exact releaseSubtree_releases hg

theorem unmountExpired_releases {life n : Nat}
    (h : f.unmountExpired life d = .ok (n, f', d')) : ReflTransGen Releases (f, d) (f', d') := by
  obtain ⟨⟨g, e⟩, hg, h⟩ := Except.bind_eq_ok_iff.1 h
  cases h
  exact foldlM_inv (P := fun s => ReflTransGen Releases (f, d) s)
    (fun _ _ _ hs hstep => .trans hs (releaseSubtree_releases hstep)) hg .refl

/-! ### One node -/

theorem mountNode_ok {i : Nat} {r : Except DeviceError Unit}
    (h : f.mountNode d i = .ok (r, f', d')) :
    (f' = f ∧ d' = d) ∨ ∃ n outcome, f.nodes[i]? = some n ∧
      Payload.realize n.name ((n.parent.bind (f.nodes[·]?)).map (·.payload)) n.payload d =
        .ok (outcome, d') ∧
      f' = f.put i { n with life := f.life, payload := outcome.toOption.getD n.payload } := by
  unfold Forest.mountNode at h
  split at h
  · cases h
    exact .inl ⟨rfl, rfl⟩
  · next n hn =>
    obtain ⟨⟨outcome, e⟩, hrealize, h⟩ := Except.bind_eq_ok_iff.1 h
    cases outcome with
    | ok payload =>
      cases h
      exact .inr ⟨n, _, hn, hrealize, Forest.modify_eq_put hn⟩
    | error e' =>
      cases h
      exact .inr ⟨n, _, hn, hrealize, Forest.modify_eq_put hn⟩

theorem releaseNode_ok {i : Nat} (h : f.releaseNode d i = .ok (f', d')) :
    (f' = f ∧ d' = d) ∨ ∃ n payload, f.nodes[i]? = some n ∧
      n.payload.release d = .ok (payload, d') ∧
      f' = f.put i { n with
        payload, current := if n.payload.forgetsState then .undefined else n.current } := by
  unfold Forest.releaseNode at h
  split at h
  · cases h
    exact .inl ⟨rfl, rfl⟩
  · next n hn =>
    obtain ⟨⟨payload, e⟩, hrelease, h⟩ := Except.bind_eq_ok_iff.1 h
    cases h
    exact .inr ⟨n, payload, hn, hrelease, Forest.modify_eq_put hn⟩

theorem Releases.hierarchy {s s' : Forest × δ} (h : Releases s s') :
    s'.1.hierarchy = s.1.hierarchy := by
  obtain ⟨h⟩ := h
  rcases releaseNode_ok h with ⟨rfl, -⟩ | ⟨n, payload, hn, -, rfl⟩
  · rfl
  · exact Forest.hierarchy_put hn rfl

/-- Released objects are gone, and with them the state that they were used in. -/
theorem isBacked_of_release {p p' : Payload} (h : p.release d = .ok (p', d')) :
    (p.forgetsState = true → p'.isBacked = false) ∧
      (p.isBacked = false → p'.isBacked = false) := by
  unfold Payload.release at h
  split at h
  · obtain ⟨e, -, h⟩ := Except.bind_eq_ok_iff.1 h
    cases h
    simp [Payload.isBacked]
  · obtain ⟨e, -, h⟩ := Except.bind_eq_ok_iff.1 h
    cases h
    simp [Payload.isBacked]
  · obtain ⟨e, -, h⟩ := Except.bind_eq_ok_iff.1 h
    cases h
    simp [Payload.isBacked]
  · obtain ⟨e, -, h⟩ := Except.bind_eq_ok_iff.1 h
    cases h
    simp [Payload.isBacked]
  · next hbuffer hbufferView himage himageView =>
    cases h
    refine ⟨fun hforgets => ?_, id⟩
    cases p with
    | buffer desc handle =>
      cases handle with
      | none => rfl
      | some h => exact absurd rfl (hbuffer desc h)
    | image desc handle external =>
      cases handle with
      | none => rfl
      | some h =>
        cases external with
        | true => simp [Payload.forgetsState] at hforgets
        | false => exact absurd rfl (himage desc h)
    | bufferView _ _ _ => simp [Payload.forgetsState] at hforgets
    | imageView _ _ _ => simp [Payload.forgetsState] at hforgets
    | swapchain _ _ => simp [Payload.forgetsState] at hforgets

/-- What the forest does not own stays as it is. -/
theorem Payload.release_of_unowned {p : Payload} (h : p.isOwned = false) (d : δ) :
    p.release d = .ok (p, d) := by
  cases p with
  | image desc handle external =>
    cases handle with
    | none => rfl
    | some x =>
      obtain rfl : external = true := by simpa [isOwned] using h
      rfl
  | swapchain source acquired => rfl
  | _ =>
    obtain rfl := Option.isNone_iff_eq_none.1 (Option.isSome_eq_false_iff.1 h)
    rfl

/-- An object that exists is not made again. -/
theorem realize_of_backed {name : String} {origin : Option Payload} {p : Payload}
    (h : p.isBacked = true) : Payload.realize name origin p d = .ok (.ok p, d) := by
  unfold Payload.realize
  split
  all_goals first | rfl | cases h

/-! ### The resource behind a node -/

omit [Device δ] in
/-- What an attached handle leaves behind: the payload with the handle, or an error. -/
theorem Payload.attach_cases {κ : ObjectKind} {put : Handle κ → Payload}
    {call : DeviceCall δ (Handle κ)} {outcome : Except DeviceError Payload}
    (h : Payload.attach put call d = (outcome, d')) :
    d' = (call d).2 ∧ ((∃ h, (call d).1 = .ok h ∧ outcome = .ok (put h)) ∨
      ∃ e, (call d).1 = .error e ∧ outcome = .error e) := by
  unfold Payload.attach at h
  split at h
  · next h' d'' hcall =>
    cases h
    exact ⟨by rw [hcall], .inl ⟨h', by rw [hcall], rfl⟩⟩
  · next e d'' hcall =>
    cases h
    exact ⟨by rw [hcall], .inr ⟨e, by rw [hcall], rfl⟩⟩

/-- The payload as it is before its object is made. -/
def Payload.bare : Payload → Payload
  | .buffer desc _ => .buffer desc none
  | .bufferView desc origin _ => .bufferView desc origin none
  | .image desc _ external => .image desc none external
  | .imageView desc origin _ => .imageView desc origin none
  | .swapchain source acquired => .swapchain source acquired

@[simp] theorem Payload.kind_bare (p : Payload) : p.bare.kind = p.kind := by cases p <;> rfl

omit [Device δ] in
theorem bare_of_attach {κ : ObjectKind} {put : Handle κ → Payload}
    {call : DeviceCall δ (Handle κ)} {outcome : Except DeviceError Payload} {p : Payload}
    (h : Payload.attach put call d = (outcome, d')) (hput : ∀ h, (put h).bare = p.bare) :
    (outcome.toOption.getD p).bare = p.bare := by
  obtain ⟨-, ⟨made, -, rfl⟩ | ⟨e, -, rfl⟩⟩ := Payload.attach_cases h
  · exact hput made
  · rfl

/-- Mounting makes the object of a node and leaves what the node is. -/
theorem bare_of_realize {name : String} {origin : Option Payload} {p : Payload}
    {outcome : Except DeviceError Payload}
    (h : Payload.realize name origin p d = .ok (outcome, d')) :
    (outcome.toOption.getD p).bare = p.bare := by
  unfold Payload.realize at h
  split at h
  · exact bare_of_attach (Except.ok.inj h) fun _ => rfl
  · exact bare_of_attach (Except.ok.inj h) fun _ => rfl
  · cases h
  · exact bare_of_attach (Except.ok.inj h) fun _ => rfl
  · exact bare_of_attach (Except.ok.inj h) fun _ => rfl
  · cases h
  · cases h
    rfl

/-- Releasing destroys the object of a node and leaves what the node is. -/
theorem bare_of_release {p p' : Payload} (h : p.release d = .ok (p', d')) :
    p'.bare = p.bare := by
  unfold Payload.release at h
  split at h
  · obtain ⟨e, -, h⟩ := Except.bind_eq_ok_iff.1 h
    cases h
    rfl
  · obtain ⟨e, -, h⟩ := Except.bind_eq_ok_iff.1 h
    cases h
    rfl
  · obtain ⟨e, -, h⟩ := Except.bind_eq_ok_iff.1 h
    cases h
    rfl
  · obtain ⟨e, -, h⟩ := Except.bind_eq_ok_iff.1 h
    cases h
    rfl
  · cases h
    rfl

theorem kind_of_bare {p p' : Payload} (h : p'.bare = p.bare) : p'.kind = p.kind := by
  rw [← Payload.kind_bare, h, Payload.kind_bare]

/-- Whether a node stands for the same resource as before, whatever became of its object. -/
structure Node.Keeps (n n' : Node) : Prop where
  name : n'.name = n.name
  residency : n'.residency = n.residency
  parent : n'.parent = n.parent
  kind : n'.kind = n.kind

theorem Node.Keeps.refl (n : Node) : n.Keeps n := ⟨rfl, rfl, rfl, rfl⟩

theorem Node.Keeps.trans {l m n : Node} (hlm : l.Keeps m) (hmn : m.Keeps n) : l.Keeps n where
  name := hmn.name.trans hlm.name
  residency := hmn.residency.trans hlm.residency
  parent := hmn.parent.trans hlm.parent
  kind := hmn.kind.trans hlm.kind

theorem Grows.exists_node {s s' : Forest × δ} {i : Nat} {n : Node} (h : Grows s s')
    (hn : s.1.nodes[i]? = some n) : ∃ n', s'.1.nodes[i]? = some n' ∧
      n.Keeps n' ∧ n'.current = n.current := by
  cases h with
  | clock f d => exact ⟨n, hn, .refl n, rfl⟩
  | register d h => exact ⟨n, Forest.nodes_push_of_some hn, .refl n, rfl⟩
  | unfold d h => exact ⟨n, Forest.nodes_push_of_some hn, .refl n, rfl⟩
  | acquire d index hm hp =>
    obtain ⟨n', hn', rfl | ⟨rfl, rfl⟩⟩ := Forest.exists_node_put _ hm hn
    · exact ⟨n', hn', .refl n', rfl⟩
    · exact ⟨_, hn', ⟨rfl, rfl, rfl, by rw [Node.kind, Node.kind, hp]; rfl⟩, rfl⟩
  | mountNode h =>
    rcases mountNode_ok h with ⟨rfl, rfl⟩ | ⟨m, outcome, hm, hrealize, rfl⟩
    · exact ⟨n, hn, .refl n, rfl⟩
    · obtain ⟨n', hn', rfl | ⟨rfl, rfl⟩⟩ := Forest.exists_node_put _ hm hn
      · exact ⟨n', hn', .refl n', rfl⟩
      · exact ⟨_, hn', ⟨rfl, rfl, rfl, kind_of_bare (bare_of_realize hrealize)⟩, rfl⟩

theorem Releases.exists_node {s s' : Forest × δ} {i : Nat} {n : Node} (h : Releases s s')
    (hn : s.1.nodes[i]? = some n) : ∃ n', s'.1.nodes[i]? = some n' ∧
      n.Keeps n' ∧ (n'.current = n.current ∨ n'.isBacked = false) ∧
      (n.isBacked = false → n'.isBacked = false) := by
  obtain ⟨h⟩ := h
  rcases releaseNode_ok h with ⟨rfl, rfl⟩ | ⟨m, payload, hm, hrelease, rfl⟩
  · exact ⟨n, hn, .refl n, .inl rfl, id⟩
  · obtain ⟨n', hn', rfl | ⟨rfl, rfl⟩⟩ := Forest.exists_node_put _ hm hn
    · exact ⟨n', hn', .refl n', .inl rfl, id⟩
    · obtain ⟨hforgets, hunbacked⟩ := isBacked_of_release hrelease
      refine ⟨_, hn', ⟨rfl, rfl, rfl, kind_of_bare (bare_of_release hrelease)⟩, ?_, hunbacked⟩
      by_cases hf : n.payload.forgetsState = true
      · exact .inr (hforgets hf)
      · exact .inl (if_neg hf)

theorem exists_node_of_growsAll {s s' : Forest × δ} {i : Nat} {n : Node}
    (h : ReflTransGen Grows s s') (hn : s.1.nodes[i]? = some n) : ∃ n', s'.1.nodes[i]? = some n' ∧
      n.Keeps n' ∧ n'.current = n.current := by
  induction h with
  | refl => exact ⟨n, hn, .refl n, rfl⟩
  | tail _ hstep ih =>
    obtain ⟨n', hn', hk, hc⟩ := ih
    obtain ⟨n'', hn'', hk', hc'⟩ := hstep.exists_node hn'
    exact ⟨n'', hn'', hk.trans hk', hc'.trans hc⟩

theorem exists_node_of_releasesAll {s s' : Forest × δ} {i : Nat} {n : Node}
    (h : ReflTransGen Releases s s') (hn : s.1.nodes[i]? = some n) :
    ∃ n', s'.1.nodes[i]? = some n' ∧ n.Keeps n' ∧
      (n'.current = n.current ∨ n'.isBacked = false) := by
  induction h with
  | refl => exact ⟨n, hn, .refl n, .inl rfl⟩
  | tail _ hstep ih =>
    obtain ⟨n', hn', hk, hc⟩ := ih
    obtain ⟨n'', hn'', hk', hc', hb⟩ := hstep.exists_node hn'
    refine ⟨n'', hn'', hk.trans hk', ?_⟩
    rcases hc with hc | hc
    · exact hc'.imp_left fun hc' => hc'.trans hc
    · exact .inr (hb hc)

/-! ### Any operation -/

/-- A swapchain as it is registered. -/
def Node.ofSwapchain (name : String) (source : SwapchainImport) : Node :=
  { name, residency := .swapchain, payload := .swapchain source 0 }

theorem addSwapchain_ok {name : String} {source : SwapchainImport}
    (h : f.addSwapchain name source = .ok f') :
    f' = f.push (.ofSwapchain name source) ∧ name ∉ f.names ∧ source.images ≠ [] := by
  unfold Forest.addSwapchain at h
  split at h
  · cases h
  · next himages =>
    obtain ⟨rfl, hfresh⟩ := Forest.insert_ok h
    exact ⟨rfl, hfresh, himages⟩

/-- The images that an operation brings in. -/
def Operation.images : Operation → List (Handle .image)
  | .addSwapchain _ source => source.images
  | _ => []

/-- **An operation grows the forest, releases objects or brings in a swapchain.** -/
theorem Operation.run_cases {o : Operation} (h : o.run f d = .ok (f', d')) :
    (o.images = [] ∧ ReflTransGen Grows (f, d) (f', d')) ∨
    (o.images = [] ∧ ReflTransGen Releases (f, d) (f', d')) ∨
    ∃ name source, o.images = source.images ∧ name ∉ f.names ∧
      f' = f.push (.ofSwapchain name source) ∧ d' = d := by
  cases o with
  | addBuffer name desc residency =>
    obtain ⟨g, hg, h⟩ := Except.bind_eq_ok_iff.1 h
    cases h
    exact .inl ⟨rfl, addBuffer_grows hg⟩
  | addBufferView name origin desc =>
    obtain ⟨g, hg, h⟩ := Except.bind_eq_ok_iff.1 h
    cases h
    exact .inl ⟨rfl, addBufferView_grows hg⟩
  | addImage name desc residency =>
    obtain ⟨g, hg, h⟩ := Except.bind_eq_ok_iff.1 h
    cases h
    exact .inl ⟨rfl, addImage_grows hg⟩
  | addImageView name origin desc =>
    obtain ⟨g, hg, h⟩ := Except.bind_eq_ok_iff.1 h
    cases h
    exact .inl ⟨rfl, addImageView_grows hg⟩
  | addSwapchain name source =>
    obtain ⟨g, hg, h⟩ := Except.bind_eq_ok_iff.1 h
    cases h
    obtain ⟨rfl, hfresh, -⟩ := addSwapchain_ok hg
    exact .inr (.inr ⟨name, source, rfl, hfresh, rfl, rfl⟩)
  | acquire name index =>
    obtain ⟨g, hg, h⟩ := Except.bind_eq_ok_iff.1 h
    cases h
    exact .inl ⟨rfl, acquire_grows hg⟩
  | mount name =>
    obtain ⟨⟨r, g, e⟩, hr, h⟩ := Except.bind_eq_ok_iff.1 h
    cases h
    exact .inl ⟨rfl, mount_grows hr⟩
  | unmount name life =>
    obtain ⟨⟨r, g, e⟩, hr, h⟩ := Except.bind_eq_ok_iff.1 h
    cases h
    exact .inr (.inl ⟨rfl, unmount_releases hr⟩)
  | unmountExpired life =>
    obtain ⟨⟨r, g, e⟩, hr, h⟩ := Except.bind_eq_ok_iff.1 h
    cases h
    exact .inr (.inl ⟨rfl, unmountExpired_releases hr⟩)

/-- What an operation that touches no object makes of the nodes, as a whole: an image comes with its
default view. -/
inductive Forest.Alters (f : Forest) : Forest → Prop
  | add {n : Node} (h : f.Registers n) (hkind : n.kind ≠ .image) : Alters f (f.push n)
  | addImage {n v : Node} (hn : f.Registers n) (hv : (f.push n).Registers v)
      (hview : IsDefaultView v n f.size) : Alters f ((f.push n).push v)
  | addSwapchain {name : String} (source : SwapchainImport) (h : name ∉ f.names) :
      Alters f (f.push (.ofSwapchain name source))
  | acquire {n : Node} {i : Nat} {source : SwapchainImport} {acquired : Nat} (index : Nat)
      (hn : f.nodes[i]? = some n) (hp : n.payload = .swapchain source acquired) :
      Alters f (f.put i { n with payload := .swapchain source index })

/-- **An operation alters the nodes, releases objects or is a mount.** -/
theorem Operation.run_whole {o : Operation} (h : o.run f d = .ok (f', d')) :
    (o.isMount = false ∧ f.Alters f' ∧ d' = d) ∨
    (o.isMount = false ∧ ReflTransGen Releases (f, d) (f', d')) ∨
    ∃ name r, o = .mount name ∧ (f.mount name d).result = .ok (r, f', d') := by
  cases o with
  | addBuffer name desc residency =>
    obtain ⟨g, hg, h⟩ := Except.bind_eq_ok_iff.1 h
    cases h
    obtain ⟨n, rfl, hn, hkind⟩ := addBuffer_ok hg
    exact .inl ⟨rfl, .add hn (by simp [hkind]), rfl⟩
  | addBufferView name origin desc =>
    obtain ⟨g, hg, h⟩ := Except.bind_eq_ok_iff.1 h
    cases h
    obtain ⟨n, rfl, hn, hkind⟩ := addBufferView_ok hg
    exact .inl ⟨rfl, .add hn (by simp [hkind]), rfl⟩
  | addImage name desc residency =>
    obtain ⟨g, hg, h⟩ := Except.bind_eq_ok_iff.1 h
    cases h
    obtain ⟨n, v, rfl, hn, hv, hview⟩ := addImage_ok hg
    exact .inl ⟨rfl, .addImage hn hv hview, rfl⟩
  | addImageView name origin desc =>
    obtain ⟨g, hg, h⟩ := Except.bind_eq_ok_iff.1 h
    cases h
    obtain ⟨v, -, -, rfl, hv, hkind, -⟩ := addImageView_ok hg
    exact .inl ⟨rfl, .add hv (by simp [hkind]), rfl⟩
  | addSwapchain name source =>
    obtain ⟨g, hg, h⟩ := Except.bind_eq_ok_iff.1 h
    cases h
    obtain ⟨rfl, hfresh, -⟩ := addSwapchain_ok hg
    exact .inl ⟨rfl, .addSwapchain source hfresh, rfl⟩
  | acquire name index =>
    obtain ⟨g, hg, h⟩ := Except.bind_eq_ok_iff.1 h
    cases h
    obtain ⟨i, n, source, acquired, hn, -, hp, -, rfl⟩ := acquire_ok hg
    exact .inl ⟨rfl, .acquire index hn hp, rfl⟩
  | mount name =>
    obtain ⟨⟨r, g, e⟩, hr, h⟩ := Except.bind_eq_ok_iff.1 h
    cases h
    exact .inr (.inr ⟨name, r, rfl, hr⟩)
  | unmount name life =>
    obtain ⟨⟨r, g, e⟩, hr, h⟩ := Except.bind_eq_ok_iff.1 h
    cases h
    exact .inr (.inl ⟨rfl, unmount_releases hr⟩)
  | unmountExpired life =>
    obtain ⟨⟨r, g, e⟩, hr, h⟩ := Except.bind_eq_ok_iff.1 h
    cases h
    exact .inr (.inl ⟨rfl, unmountExpired_releases hr⟩)

/-- **What a node carries is lost only with its object.** -/
theorem Operation.exists_node {o : Operation} {i : Nat} {n : Node}
    (h : o.run f d = .ok (f', d')) (hn : f.nodes[i]? = some n) :
    ∃ n', f'.nodes[i]? = some n' ∧ n.Keeps n' ∧
      (n'.current = n.current ∨ n'.isBacked = false) := by
  rcases o.run_cases h with ⟨-, hgrows⟩ | ⟨-, hreleases⟩ | ⟨name, source, -, -, rfl, -⟩
  · obtain ⟨n', hn', hk, hc⟩ := exists_node_of_growsAll hgrows hn
    exact ⟨n', hn', hk, .inl hc⟩
  · exact exists_node_of_releasesAll hreleases hn
  · exact ⟨n, Forest.nodes_push_of_some hn, .refl n, .inl rfl⟩

end

end FrameGraph
