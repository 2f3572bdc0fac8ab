import FrameGraph.Proofs.Carried
import FrameGraph.Proofs.WellFormed

/-!
# What a frame reads of its resources

The declarations of a frame are looked up by name, and what is found there tells what they amount
to. Both stay the same where every node stays the resource that it is and keeps the object that it
has, whatever nodes and objects are added (`Forest.Retains`): the frame then declares the same uses
(`frameUses_of_retains`), in render passes with the same attachments (`targets_of_retains`). In
particular the states that nodes carry do not matter (`Forest.retains_carry`).
-/

set_option autoImplicit false

namespace FrameGraph

/-- Whether a node is a view follows from its kind. -/
theorem Payload.isSome_origin (p : Payload) : p.origin?.isSome = p.kind.isView := by
  cases p <;> rfl

/-- Whether a node is the same resource as before and has the same object if it had one. -/
structure Node.Retained (n n' : Node) : Prop extends Node.Keeps n n' where
  payload : n.isBacked = true → n'.payload = n.payload

theorem Node.Retained.refl (n : Node) : n.Retained n := ⟨.refl n, fun _ => rfl⟩

theorem Node.Retained.isBacked {n n' : Node} (h : n.Retained n') (hb : n.isBacked = true) :
    n'.isBacked = true := by
  rw [Node.isBacked, h.payload hb]
  exact hb

theorem Node.Retained.trans {l m n : Node} (hlm : l.Retained m) (hmn : m.Retained n) :
    l.Retained n where
  toKeeps := hlm.toKeeps.trans hmn.toKeeps
  payload hb := (hmn.payload (hlm.isBacked hb)).trans (hlm.payload hb)

/-- Whether every node of `f` is retained in `g`, at its position. -/
def Forest.Retains (f g : Forest) : Prop :=
  ∀ (i : Nat) n, f.nodes[i]? = some n → ∃ n', g.nodes[i]? = some n' ∧ n.Retained n'

/-- Whether a place holds the same resource as before. -/
structure Place.Retained (p q : Place) : Prop where
  index : q.index = p.index
  node : p.node.Retained q.node

namespace Forest

variable {f g g' : Forest} {n n' : Node}

theorem Retains.refl (f : Forest) : f.Retains f := fun _ n hn => ⟨n, hn, .refl n⟩

theorem Retains.trans (h : f.Retains g) (h' : g.Retains g') : f.Retains g' := by
  intro i n hn
  obtain ⟨n', hn', hr⟩ := h i n hn
  obtain ⟨n'', hn'', hr'⟩ := h' i n' hn'
  exact ⟨n'', hn'', hr.trans hr'⟩

theorem retains_push : f.Retains (f.push n) := fun _ m hm => ⟨m, nodes_push_of_some hm, .refl m⟩

theorem retains_put {i : Nat} (hn : f.nodes[i]? = some n) (hr : n.Retained n') :
    f.Retains (f.put i n') := by
  intro j m hm
  obtain ⟨m', hm', rfl | ⟨rfl, rfl⟩⟩ := exists_node_put n' hn hm
  · exact ⟨m', hm', .refl m'⟩
  · exact ⟨m', hm', hr⟩

/-- A frame leaves every node as it is, but for the state that it carries. -/
theorem retains_carry (f : Forest) (ts : List Timeline) : f.Retains (f.carry ts) := by
  intro i n hn
  obtain ⟨s, hs, -⟩ := exists_carry ts hn
  exact ⟨_, hs, ⟨rfl, rfl, rfl, rfl⟩, fun _ => rfl⟩

/-- The same is true backwards. -/
theorem carry_retains (f : Forest) (ts : List Timeline) : (f.carry ts).Retains f := by
  intro i n' hn'
  obtain ⟨n, hn⟩ := exists_of_nodes_carry hn'
  obtain ⟨s, hs, -⟩ := exists_carry ts hn
  rw [hn'] at hs
  obtain rfl := Option.some.inj hs
  exact ⟨n, hn, ⟨rfl, rfl, rfl, rfl⟩, fun _ => rfl⟩

/-! ## Looking up -/

section
variable (h : f.Retains g)
include h

/-- What the nodes tell of themselves stands at the same positions. -/
theorem Retains.map_prefix {α : Type} (view : Node → α)
    (hview : ∀ n n', n.Retained n' → view n' = view n) :
    f.nodes.map view <+: g.nodes.map view := by
  refine List.prefix_iff_getElem?.2 fun i hi => ?_
  rw [List.length_map] at hi
  obtain ⟨n', hn', hr⟩ := h i _ (List.getElem?_eq_getElem hi)
  simp [hn', hview _ _ hr]

theorem Retains.exists_children (i : Nat) : ∃ rest, g.children i = f.children i ++ rest := by
  obtain ⟨more, hmore⟩ := h.map_prefix (·.parent) fun _ _ hr => hr.parent
  have hg : g.hierarchy = f.hierarchy ++ more := hmore.symm
  obtain ⟨rest, hrest⟩ := Hierarchy.children_prefix f.hierarchy more i
  refine ⟨rest, ?_⟩
  rw [children, children, hg, ← hrest]

theorem Retains.place {i : Nat} {p : Place} (hp : f.place? i = some p) :
    ∃ q, g.place? i = some q ∧ p.Retained q := by
  obtain ⟨rfl, hn⟩ := place?_eq_some_iff.1 hp
  obtain ⟨n', hn', hr⟩ := h _ _ hn
  exact ⟨⟨p.index, n'⟩, place?_eq_some_iff.2 ⟨rfl, hn'⟩, rfl, hr⟩

theorem Retains.find {name : String} {p : Place} (hp : f.find name = .ok p) :
    ∃ q, g.find name = .ok q ∧ p.Retained q := by
  have hnames := h.map_prefix (·.name) fun _ _ hr => hr.name
  unfold Forest.find at hp
  split at hp
  · next p' hfind =>
    obtain rfl := Except.ok.inj hp
    obtain ⟨i, hi, hplace⟩ := Option.bind_eq_some_iff.1 hfind
    have hi' : (f.nodes.map (·.name)).findIdx? (· == name) = some i := by
      rw [List.findIdx?_map]
      exact hi
    have hg := hnames.findIdx?_eq_some hi'
    rw [List.findIdx?_map] at hg
    obtain ⟨q, hq, hr⟩ := h.place hplace
    have hgfind : g.find? name = some q := by
      unfold find?
      rw [show g.nodes.findIdx? (·.name == name) = some i from hg]
      exact hq
    refine ⟨q, ?_, hr⟩
    simp [Forest.find, hgfind]
  · cases hp

end

theorem resolve_cases {name : String} {p : Place} (h : f.resolve name = .ok p) :
    (f.find name = .ok p ∧ p.node.kind ≠ .swapchain) ∨
    ∃ q source acquired, f.find name = .ok q ∧ q.node.payload = .swapchain source acquired ∧
      ((f.children q.index)[acquired]?).bind f.place? = some p := by
  obtain ⟨q, hq, h⟩ := Except.bind_eq_ok_iff.1 h
  split at h
  · next source acquired hp =>
    split at h
    · next image himage =>
      obtain rfl := Except.ok.inj h
      exact .inr ⟨q, source, acquired, hq, hp, himage⟩
    · cases h
  · next hswapchain =>
    obtain rfl := Except.ok.inj h
    refine .inl ⟨hq, fun hkind => ?_⟩
    unfold Node.kind at hkind
    cases hp : q.node.payload with
    | swapchain source acquired => exact hswapchain source acquired hp
    | buffer _ _ => simp [hp, Payload.kind] at hkind
    | bufferView _ _ _ => simp [hp, Payload.kind] at hkind
    | image _ _ _ => simp [hp, Payload.kind] at hkind
    | imageView _ _ _ => simp [hp, Payload.kind] at hkind

theorem resolve_of_find {name : String} {p : Place} (h : f.find name = .ok p)
    (hkind : p.node.kind ≠ .swapchain) : f.resolve name = .ok p := by
  refine Except.bind_eq_ok_iff.2 ⟨p, h, ?_⟩
  split
  · next source acquired hp => exact absurd (by rw [Node.kind, hp]; rfl) hkind
  · rfl

theorem resolve_of_acquired {name : String} {p q : Place} {source : SwapchainImport}
    {acquired : Nat} (h : f.find name = .ok q) (hp : q.node.payload = .swapchain source acquired)
    (himage : ((f.children q.index)[acquired]?).bind f.place? = some p) :
    f.resolve name = .ok p := by
  refine Except.bind_eq_ok_iff.2 ⟨q, h, ?_⟩
  simp [hp, himage]

section
variable (h : f.Retains g)
include h

theorem Retains.resolve {name : String} {p : Place} (hp : f.resolve name = .ok p) :
    ∃ q, g.resolve name = .ok q ∧ p.Retained q := by
  rcases resolve_cases hp with ⟨hfind, hkind⟩ | ⟨o, source, acquired, hfind, hpayload, himage⟩
  · obtain ⟨q, hq, hr⟩ := h.find hfind
    exact ⟨q, resolve_of_find hq (by rw [hr.node.kind]; exact hkind), hr⟩
  · obtain ⟨o', ho', hindex, hr⟩ := h.find hfind
    have hbacked : o.node.isBacked = true := by rw [Node.isBacked, hpayload]; rfl
    have hpayload' : o'.node.payload = .swapchain source acquired :=
      (hr.payload hbacked).trans hpayload
    obtain ⟨j, hj, hplace⟩ := Option.bind_eq_some_iff.1 himage
    obtain ⟨q, hq, hrq⟩ := h.place hplace
    obtain ⟨rest, hrest⟩ := h.exists_children o.index
    refine ⟨q, resolve_of_acquired ho' hpayload' ?_, hrq⟩
    obtain ⟨hlt, -⟩ := List.getElem?_eq_some_iff.1 hj
    rw [hindex, hrest, List.getElem?_append_left hlt, hj]
    exact hq

/-- Where the parent of a view is registered, it is the same as before. -/
theorem Retains.tracked (hf : f.WellFormed) {name : String} {p : Place}
    (hp : f.tracked name = .ok p) : ∃ q, g.tracked name = .ok q ∧ p.Retained q := by
  obtain ⟨v, hv, hp⟩ := Except.bind_eq_ok_iff.1 hp
  obtain ⟨w, hw, hr⟩ := h.resolve hv
  have horigin : w.node.payload.origin?.isSome = v.node.payload.origin?.isSome := by
    rw [Payload.isSome_origin, Payload.isSome_origin]
    exact congrArg ResourceKind.isView hr.node.kind
  have hparent : w.node.parent = v.node.parent := hr.node.parent
  split at hp
  · next o parent ho hplace =>
    obtain rfl := Except.ok.inj hp
    obtain ⟨j, hj, hplace⟩ := Option.bind_eq_some_iff.1 hplace
    obtain ⟨q, hq, hrq⟩ := h.place hplace
    rw [ho] at horigin
    obtain ⟨o', ho'⟩ := Option.isSome_iff_exists.1 (horigin.trans rfl)
    refine ⟨q, Except.bind_eq_ok_iff.2 ⟨w, hw, ?_⟩, hrq⟩
    simp [ho', hparent, hj, hq]
  · next hnone =>
    obtain rfl := Except.ok.inj hp
    refine ⟨w, Except.bind_eq_ok_iff.2 ⟨w, hw, ?_⟩, hr⟩
    split
    · next o parent ho hplace =>
      -- then the name is that of a view, and its parent was registered before
      rw [ho] at horigin
      obtain ⟨o', ho'⟩ := Option.isSome_iff_exists.1 horigin.symm
      obtain ⟨j, hj, -⟩ := Option.bind_eq_some_iff.1 hplace
      rw [hparent] at hj
      obtain ⟨m, hm⟩ := hf.exists_parent (nodes_of_resolve hv) hj
      refine absurd ?_ (hnone o' ⟨j, m⟩ ho')
      simp [hj, place?, hm]
    · rfl

/-- The first of some nodes with a name is the same as before. -/
theorem Retains.find_child {is : List Nat} (rest : List Nat) {name : String} {p : Place}
    (his : ∀ i ∈ is, i < f.size)
    (hp : (is.filterMap f.place?).find? (fun c => c.node.name == name) = some p) :
    ∃ q, ((is ++ rest).filterMap g.place?).find? (fun c => c.node.name == name) = some q ∧
      p.Retained q := by
  induction is with
  | nil => simp at hp
  | cons i is ih =>
    obtain ⟨hi, his⟩ := List.forall_mem_cons.1 his
    have hplace : f.place? i = some ⟨i, f.nodes[i]⟩ :=
      place?_eq_some_iff.2 ⟨rfl, List.getElem?_eq_getElem hi⟩
    obtain ⟨q, hq, hr⟩ := h.place hplace
    have hname : q.node.name = f.nodes[i].name := hr.node.name
    rw [List.filterMap_cons_some hplace, List.find?_cons] at hp
    rw [List.cons_append, List.filterMap_cons_some hq, List.find?_cons, hname]
    split at hp
    · next hmatch =>
      obtain rfl := Option.some.inj hp
      rw [hmatch]
      exact ⟨q, rfl, hr⟩
    · next hmatch =>
      rw [hmatch]
      exact ih his hp

theorem Retains.view {name : String} {p : Place} (hp : f.view name = .ok p) :
    ∃ q, g.view name = .ok q ∧ p.Retained q := by
  obtain ⟨v, hv, hp⟩ := Except.bind_eq_ok_iff.1 hp
  obtain ⟨w, hw, hindex, hr⟩ := h.resolve hv
  obtain ⟨rest, hrest⟩ := h.exists_children v.index
  have hkind : w.node.kind = v.node.kind := hr.kind
  have hname : w.node.name = v.node.name := hr.name
  simp only [Forest.view, hw, bind, Except.bind, hkind, hname, hindex, hrest]
  split at hp
  · next hk =>
    obtain rfl := Except.ok.inj hp
    exact ⟨w, rfl, hindex, hr⟩
  · next hk =>
    obtain rfl := Except.ok.inj hp
    exact ⟨w, rfl, hindex, hr⟩
  · next hk =>
    dsimp only at hp
    split at hp
    · next child hchild =>
      obtain rfl := Except.ok.inj hp
      obtain ⟨q, hq, hrq⟩ := h.find_child rest (fun i hi => by
        have hlt := Hierarchy.lt_length_of_mem_children hi
        rwa [length_hierarchy] at hlt) hchild
      exact ⟨q, by rw [hq], hrq⟩
    · cases hp
  · cases hp

theorem Retains.imageViewHandle {name : String} {v : Handle .imageView}
    (hv : f.imageViewHandle name = .ok v) : g.imageViewHandle name = .ok v := by
  obtain ⟨p, hp, hv⟩ := Except.bind_eq_ok_iff.1 hv
  obtain ⟨q, hq, -, hr⟩ := h.view hp
  refine Except.bind_eq_ok_iff.2 ⟨q, hq, ?_⟩
  split at hv
  · next desc origin handle hpayload =>
    cases handle with
    | none => cases hv
    | some v' =>
      have hbacked : p.node.isBacked = true := by rw [Node.isBacked, hpayload]; rfl
      rw [hr.payload hbacked, hpayload]
      exact hv
  · cases hv

end

end Forest

/-! ## The uses of a frame -/

/-- What a use does depends on what stands behind the node. -/
theorem Usage.classify_congr {shaders : Registry} {pass : Pass} {use : Use} {n n' : Node}
    (h : n'.payload = n.payload) : classify shaders pass use n' = classify shaders pass use n := by
  have himage : n'.imageDesc? = n.imageDesc? := by simp only [Node.imageDesc?, h]
  have hbuffer : n'.bufferDesc? = n.bufferDesc? := by simp only [Node.bufferDesc?, h]
  have hlike : n'.isBufferLike = n.isBufferLike := by simp only [Node.isBufferLike, Node.kind, h]
  simp only [classify, ofAttachment, ofDraw, ofCompute, ofIndirect, himage, hbuffer, hlike]

theorem attach_of_retains {f g : Forest} (h : f.Retains g) {use : Use} {p q : Place}
    (hpq : p.Retained q) (hb : p.node.isBacked = true) {t t' : RenderTarget AttachmentUse}
    (ht : attach f use p t = .ok t') : attach g use q t = .ok t' := by
  have himage : q.node.imageDesc? = p.node.imageDesc? := by
    simp only [Node.imageDesc?, hpq.node.payload hb]
  unfold attach at ht ⊢
  rw [himage, hpq.index]
  split at ht
  · exact ht
  · next desc hdesc =>
    obtain ⟨view, hview, ht⟩ := Except.bind_eq_ok_iff.1 ht
    exact Except.bind_eq_ok_iff.2 ⟨view, h.imageViewHandle hview, ht⟩

section
variable {f g : Forest} {shaders : Registry} {pass : Pass}

theorem addUse_of_retains (h : f.Retains g) (hf : f.WellFormed) {done r : PassUses} {use : Use}
    (hr : (addUse f shaders pass done use).result = .ok r) :
    (addUse g shaders pass done use).result = .ok r := by
  obtain ⟨p, usage, target, hp, hb, husage, htarget, rfl⟩ := addUse_eq_ok_iff.1 hr
  obtain ⟨q, hq, hpq⟩ := h.tracked hf hp
  refine addUse_eq_ok_iff.2 ⟨q, usage, target, hq, hpq.node.isBacked hb, ?_, ?_, ?_⟩
  · rw [Usage.classify_congr (hpq.node.payload hb)]
    exact husage
  · cases htarget' : done.target with
    | none =>
      rw [htarget'] at htarget
      exact htarget
    | some t =>
      rw [htarget'] at htarget
      obtain ⟨t', ht', rfl⟩ := Except.map_eq_ok_iff.1 htarget
      exact Except.map_eq_ok_iff.2 ⟨t', attach_of_retains h hpq hb ht', rfl⟩
  · rw [hpq.index]

theorem passUses_of_retains (h : f.Retains g) (hf : f.WellFormed) {index : Nat} {r : PassUses}
    (hr : (passUses f shaders index pass).result = .ok r) :
    (passUses g shaders index pass).result = .ok r := by
  unfold passUses at hr ⊢
  rw [Traced.result_foldlM] at hr ⊢
  exact foldlM_ok_map (φ := id) (fun _ _ _ hstep => addUse_of_retains h hf hstep) hr

/-- **A frame declares the same uses of resources that are retained.** -/
theorem frameUses_of_retains (h : f.Retains g) (hf : f.WellFormed) {passes : List Pass}
    {uses : List PassUses} (huses : (frameUses f shaders passes).result = .ok uses) :
    (frameUses g shaders passes).result = .ok uses := by
  unfold frameUses at huses ⊢
  rw [Traced.result_mapM, mapM_eq_ok_iff] at huses ⊢
  exact huses.imp fun _ _ hpass => passUses_of_retains h hf hpass

end

/-! ## The attachments of a frame -/

/-- The timeline with its node seen through `φ`. -/
def Timeline.mapNode (φ : Node → Node) (t : Timeline) : Timeline := { t with node := φ t.node }

section
variable {φ : Node → Node}

/-- Timelines tell no more of their nodes than what is behind them. -/
theorem map_mapNode_ofFrame {nodes nodes' : List Node} {frame : List (List NodeUse)}
    (h : ∀ i ∈ Timeline.touched frame, ∃ n n', nodes[i]? = some n ∧ nodes'[i]? = some n' ∧
      n'.payload = n.payload ∧ φ n' = φ n) :
    (Timeline.ofFrame nodes' frame).map (·.mapNode φ) =
      (Timeline.ofFrame nodes frame).map (·.mapNode φ) := by
  unfold Timeline.ofFrame
  rw [List.map_filterMap, List.map_filterMap]
  refine List.filterMap_congr fun i hi => ?_
  obtain ⟨n, n', hn, hn', hpayload, hφ⟩ := h i hi
  rw [hn, hn', Option.map_some, Option.map_some, Option.map_some, Option.map_some,
    Timeline.entriesFrom_congr hpayload]
  simp only [Timeline.mapNode, hφ]

/-- Of the node of a timeline, an attachment needs to know how long its contents matter. -/
theorem finish_map_mapNode (hφ : ∀ n, (φ n).residency = n.residency) (ts : List Timeline)
    (pass : Nat) (y : AttachmentUse) :
    y.finish (ts.map (·.mapNode φ)) pass = y.finish ts pass := by
  have hfind : (ts.map (·.mapNode φ)).find? (·.index == y.tracked) =
      (ts.find? (·.index == y.tracked)).map (·.mapNode φ) := by
    rw [List.find?_map]
    rfl
  unfold AttachmentUse.finish
  rw [hfind]
  cases ts.find? (·.index == y.tracked) with
  | none => rfl
  | some t => simp only [Option.map_some, Timeline.mapNode, Timeline.stateAt?, hφ]

theorem targets_ofUses (hφ : ∀ n, (φ n).residency = n.residency) {f g : Forest}
    {uses : List PassUses} (h : (Analysis.ofUses g uses).timelines.map (·.mapNode φ) =
      (Analysis.ofUses f uses).timelines.map (·.mapNode φ)) :
    (Analysis.ofUses g uses).targets = (Analysis.ofUses f uses).targets := by
  refine List.map_congr_left fun t _ => ?_
  have hfinish : AttachmentUse.finish (Analysis.ofUses g uses).timelines t.pass =
      AttachmentUse.finish (Analysis.ofUses f uses).timelines t.pass := by
    funext y
    rw [← finish_map_mapNode hφ, h, finish_map_mapNode hφ]
  exact congrArg (fun finish => RenderTarget.map finish t) hfinish

end

/-- The node before any mount and any frame. -/
def Node.unused (n : Node) : Node := { n with life := 0, current := .undefined }

theorem Node.Retained.unused_eq {n n' : Node} (h : n.Retained n') (hb : n.isBacked = true) :
    n'.unused = n.unused := by
  cases n
  cases n'
  obtain ⟨⟨rfl, rfl, rfl, -⟩, hpayload⟩ := h
  obtain rfl := hpayload hb
  rfl

/-- **A frame has the same attachments on resources that are retained**, whatever states the
resources carry. -/
theorem targets_of_retains {f g : Forest} (h : f.Retains g) {shaders : Registry}
    {passes : List Pass} {uses : List PassUses}
    (huses : (frameUses f shaders passes).result = .ok uses) :
    (Analysis.ofUses g uses).targets = (Analysis.ofUses f uses).targets := by
  refine targets_ofUses (φ := Node.unused) (fun _ => rfl) (map_mapNode_ofFrame fun i hi => ?_)
  obtain ⟨n, hn, hb⟩ := exists_node_of_touched huses hi
  obtain ⟨n', hn', hr⟩ := h i n hn
  exact ⟨n, n', hn, hn', hr.payload hb, hr.unused_eq hb⟩

end FrameGraph
