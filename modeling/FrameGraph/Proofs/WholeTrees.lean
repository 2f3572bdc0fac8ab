import FrameGraph.Proofs.Mounting
import FrameGraph.Proofs.Swapchains

/-!
# Mounts of whole trees

A mount makes what is missing in one tree, and nothing else: one object for each node that has none
(`Forest.Creates`), while what is there stays and other trees are left alone
(`Forest.MountsTree`). After that there is nothing to make in the tree, so that another mount of it
only changes dates (`Forest.redate`). Nothing but a taken name ends a mount with a fault
(`mounts_whole_tree`).
-/

set_option autoImplicit false

namespace FrameGraph

open Relation (ReflTransGen)

variable {δ : Type} [Device δ]

/-! ## What a mount makes -/

/-- Whether one call of the device makes the object of a node, which takes the node from `p` to
`p'`. A view is made of the object of the parent, `origin`. -/
inductive Payload.MadeBy (name : String) (origin : Option Payload) :
    Payload → Payload → δ → δ → Prop
  | buffer {desc : BufferDesc} {h : Handle .buffer} {d d' : δ}
      (hcall : Device.createBuffer desc name d = (.ok h, d')) :
      MadeBy name origin (.buffer desc none) (.buffer desc (some h)) d d'
  | bufferView {desc : BufferViewDesc} {of : String} {shown : BufferDesc} {b : Handle .buffer}
      {h : Handle .bufferView} {d d' : δ} (horigin : origin = some (.buffer shown (some b)))
      (hcall : Device.createBufferView b desc name d = (.ok h, d')) :
      MadeBy name origin (.bufferView desc of none) (.bufferView desc of (some h)) d d'
  | image {desc : ImageDesc} {external : Bool} {h : Handle .image} {d d' : δ}
      (hcall : Device.createImage desc name d = (.ok h, d')) :
      MadeBy name origin (.image desc none external) (.image desc (some h) external) d d'
  | imageView {desc : ImageViewDesc} {of : String} {shown : ImageDesc} {x : Handle .image}
      {external : Bool} {h : Handle .imageView} {d d' : δ}
      (horigin : origin = some (.image shown (some x) external))
      (hcall : Device.createImageView x desc name d = (.ok h, d')) :
      MadeBy name origin (.imageView desc of none) (.imageView desc of (some h)) d d'

namespace Forest

/-- The payload of the node that a node hangs below. -/
def shown? (f : Forest) (n : Node) : Option Payload :=
  (n.parent.bind (f.nodes[·]?)).map (·.payload)

/-- Whether the device makes the objects of these nodes, one after the other and with one call for
each. The nodes are those of `f`, and `f'` is the forest that has the objects. -/
inductive Creates (f f' : Forest) : List Nat → δ → δ → Prop
  | nil (d : δ) : Creates f f' [] d d
  | cons {i : Nat} {is : List Nat} {n n' : Node} {d d' d'' : δ} (hn : f.nodes[i]? = some n)
      (hn' : f'.nodes[i]? = some n')
      (hmade : Payload.MadeBy n.name (f'.shown? n) n.payload n'.payload d d')
      (hrest : Creates f f' is d' d'') : Creates f f' (i :: is) d d''

/-- The positions of nodes without an object. -/
def unbacked (f : Forest) (is : List Nat) : List Nat :=
  is.filter fun i => (f.nodes[i]?).any (!·.isBacked)

/-- The forest in which the nodes at these positions have just been mounted. -/
def redate (f : Forest) (is : List Nat) : Forest where
  nodes := f.nodes.mapIdx fun i n => if i ∈ is then { n with life := f.life } else n
  life := f.life

end Forest

section
variable {name : String} {origin origin' : Option Payload} {p p' : Payload} {d d' : δ}

/-- A view is made alike as long as what it shows is there. -/
theorem Payload.MadeBy.mono (h : MadeBy name origin p p' d d')
    (horigin : ∀ o, origin = some o → o.isBacked = true → origin' = some o) :
    MadeBy name origin' p p' d d' := by
  cases h with
  | buffer hcall => exact .buffer hcall
  | bufferView hshown hcall => exact .bufferView (horigin _ hshown rfl) hcall
  | image hcall => exact .image hcall
  | imageView hshown hcall => exact .imageView (horigin _ hshown rfl) hcall

/-- **A node that goes through without an object gets one**, by one call of the device. -/
theorem madeBy_of_realize (hunbacked : p.isBacked = false)
    (h : p.realize name origin d = .ok (.ok p', d')) : p.MadeBy name origin p' d d' := by
  have hattach {κ : ObjectKind} {put : Handle κ → Payload} {call : DeviceCall δ (Handle κ)}
      (h : Payload.attach put call d = (.ok p', d')) :
      ∃ x, call d = (.ok x, d') ∧ p' = put x := by
    obtain ⟨rfl, ⟨x, hcall, hp⟩ | ⟨e, -, he⟩⟩ := Payload.attach_cases h
    · exact ⟨x, Prod.ext hcall rfl, Except.ok.inj hp⟩
    · cases he
  cases p with
  | buffer desc handle =>
    obtain rfl : handle = none := by simpa [Payload.isBacked] using hunbacked
    obtain ⟨x, hcall, rfl⟩ := hattach (Except.ok.inj h)
    exact .buffer hcall
  | image desc handle external =>
    obtain rfl : handle = none := by simpa [Payload.isBacked] using hunbacked
    obtain ⟨x, hcall, rfl⟩ := hattach (Except.ok.inj h)
    exact .image hcall
  | bufferView desc of handle =>
    obtain rfl : handle = none := by simpa [Payload.isBacked] using hunbacked
    rcases origin with _ | ⟨shown, _ | b⟩ | _ | _ | _ | _
    case some.buffer.some =>
      obtain ⟨x, hcall, rfl⟩ := hattach (Except.ok.inj h)
      exact .bufferView rfl hcall
    all_goals cases h
  | imageView desc of handle =>
    obtain rfl : handle = none := by simpa [Payload.isBacked] using hunbacked
    rcases origin with _ | _ | _ | ⟨shown, _ | x, external⟩ | _ | _
    case some.image.some =>
      obtain ⟨y, hcall, rfl⟩ := hattach (Except.ok.inj h)
      exact .imageView rfl hcall
    all_goals cases h
  | swapchain source acquired => cases hunbacked

end

/-! ## The nodes of a walk -/

namespace Forest

section
variable {f f' g : Forest} {d d' : δ} {i : Nat} {is : List Nat} {n : Node}

omit [Device δ] in
theorem mem_unbacked : i ∈ f.unbacked is ↔
    i ∈ is ∧ ∃ n, f.nodes[i]? = some n ∧ n.isBacked = false := by
  rw [unbacked, List.mem_filter]
  cases hn : f.nodes[i]? with
  | none => simp
  | some n => simp

theorem unbacked_cons_of_some (hn : f.nodes[i]? = some n) : f.unbacked (i :: is) =
    if n.isBacked = true then f.unbacked is else i :: f.unbacked is := by
  cases hb : n.isBacked with
  | true => simp [unbacked, hn, hb]
  | false => simp [unbacked, hn, hb]

theorem Creates.congr (h : Creates g f' is d d')
    (hsame : ∀ j ∈ is, g.nodes[j]? = f.nodes[j]?) : Creates f f' is d d' := by
  induction h with
  | nil => exact .nil _
  | cons hn hn' hmade _ ih =>
    obtain ⟨hfirst, hrest⟩ := List.forall_mem_cons.1 hsame
    exact .cons (hfirst.symm.trans hn) hn' hmade (ih hrest)

/-- Mounting one node leaves the others as they are. -/
theorem nodes_mountNode_ne {j : Nat} {r : Except DeviceError Unit}
    (h : f.mountNode d i = .ok (r, f', d')) (hij : i ≠ j) : f'.nodes[j]? = f.nodes[j]? := by
  rcases mountNode_ok h with ⟨rfl, -⟩ | ⟨n, outcome, -, -, rfl⟩
  · rfl
  · exact nodes_put_ne hij

/-- What happens at a node that is mounted. -/
theorem mountNode_cases (hn : f.nodes[i]? = some n)
    (h : f.mountNode d i = .ok (.ok (), f', d')) :
    ∃ payload, f' = f.put i { n with life := f.life, payload } ∧
      n.payload.realize n.name (f.shown? n) d = .ok (.ok payload, d') := by
  unfold mountNode at h
  simp only [hn] at h
  obtain ⟨⟨outcome, e⟩, hrealize, h⟩ := Except.bind_eq_ok_iff.1 h
  cases outcome with
  | error e' => cases h
  | ok payload =>
    cases h
    exact ⟨payload, modify_eq_put hn, hrealize⟩

/-- What a node shows stays where it is as long as it is there. -/
theorem Retains.shown? (h : f.Retains f') {o : Payload} (ho : f.shown? n = some o)
    (hbacked : o.isBacked = true) : f'.shown? n = some o := by
  obtain ⟨q, hq, rfl⟩ := Option.map_eq_some_iff.1 ho
  obtain ⟨j, hparent, hj⟩ := Option.bind_eq_some_iff.1 hq
  obtain ⟨q', hq', hr⟩ := h j q hj
  rw [Forest.shown?, hparent, Option.bind_some, hq', Option.map_some, hr.payload hbacked]

/-- **A walk that goes through makes one object for each node that had none.** -/
theorem creates_of_mountNodes (hnodup : is.Nodup)
    (h : f.mountNodes d is = .ok (.ok (), f', d')) : Creates f f' (f.unbacked is) d d' := by
  induction is generalizing f d with
  | nil =>
    cases h
    exact .nil _
  | cons i is ih =>
    obtain ⟨hi, hnodup⟩ := List.nodup_cons.1 hnodup
    have hretains := mountNodes_retains h
    obtain ⟨⟨out, g, c⟩, hg, h⟩ := Except.bind_eq_ok_iff.1 h
    cases out with
    | error e => cases h
    | ok u =>
      -- no node comes twice, so that those to come are as they were
      have hsame : ∀ j ∈ is, g.nodes[j]? = f.nodes[j]? := fun j hj =>
        nodes_mountNode_ne hg fun heq => hi (heq ▸ hj)
      have hunbacked : g.unbacked is = f.unbacked is :=
        List.filter_congr fun j hj => by rw [hsame j hj]
      have hrest : Creates f f' (f.unbacked is) c d' := by
        rw [← hunbacked]
        exact (ih hnodup h).congr fun j hj => hsame j (mem_unbacked.1 hj).1
      cases hn : f.nodes[i]? with
      | none =>
        have hnothing : f.mountNode d i = .ok (.ok (), f, d) := by
          unfold mountNode
          simp only [hn]
        cases hnothing.symm.trans hg
        simpa [unbacked, hn] using hrest
      | some n =>
        obtain ⟨payload, rfl, hrealize⟩ := mountNode_cases hn hg
        rw [unbacked_cons_of_some hn]
        by_cases hb : n.isBacked = true
        · rw [if_pos hb]
          rw [realize_of_backed hb] at hrealize
          cases hrealize
          exact hrest
        · rw [if_neg hb]
          have hself := nodes_put_self (m := { n with life := f.life, payload }) hn
          have hthere := mountNode_backed hg hself
          obtain ⟨n', hn', hr⟩ := mountNodes_retains h i _ hself
          have hmade := madeBy_of_realize (eq_false_of_ne_true hb) hrealize
          -- what is made stays, and so does what a view shows
          refine .cons hn hn' ?_ hrest
          rw [hr.payload hthere]
          exact hmade.mono fun o ho hob => hretains.shown? ho hob

/-! ## Mounting what is there -/

/-- A node that has its object is dated, and nothing is made. -/
theorem mountNode_of_backed (hn : f.nodes[i]? = some n) (hb : n.isBacked = true) (d : δ) :
    f.mountNode d i = .ok (.ok (), f.put i { n with life := f.life }, d) := by
  have hput : f.modify i (fun n' => { n' with life := f.life, payload := n.payload }) =
      f.put i { n with life := f.life } := modify_eq_put hn
  unfold mountNode
  simp only [hn, realize_of_backed hb, ← hput]
  rfl

omit [Device δ] in
theorem redate_cons (hn : f.nodes[i]? = some n) :
    (f.put i { n with life := f.life }).redate is = f.redate (i :: is) := by
  refine congrArg (Forest.mk · f.life) (List.ext_getElem? fun j => ?_)
  rw [List.getElem?_mapIdx, List.getElem?_mapIdx]
  by_cases hij : i = j
  · subst hij
    rw [nodes_put_self hn, hn]
    simp [put]
  · rw [nodes_put_ne hij]
    simp [put, Ne.symm hij]

/-- **Where all objects are there, a walk only changes dates**, whatever state the device is in. -/
theorem mountNodes_of_backed (hb : ∀ i ∈ is, ∃ n, f.nodes[i]? = some n ∧ n.isBacked = true)
    (d : δ) : f.mountNodes d is = .ok (.ok (), f.redate is, d) := by
  induction is generalizing f with
  | nil =>
    have hnothing : f.redate [] = f := by
      refine congrArg (Forest.mk · f.life) (List.ext_getElem? fun j => ?_)
      simp
    rw [hnothing]
    rfl
  | cons i is ih =>
    obtain ⟨⟨n, hn, hbacked⟩, hrest⟩ := List.forall_mem_cons.1 hb
    have hlater : ∀ j ∈ is, ∃ m, (f.put i { n with life := f.life }).nodes[j]? = some m ∧
        m.isBacked = true := by
      intro j hj
      obtain ⟨m, hm, hmb⟩ := hrest j hj
      obtain ⟨m', hm', rfl | ⟨rfl, rfl⟩⟩ := exists_node_put { n with life := f.life } hn hm
      · exact ⟨m', hm', hmb⟩
      · exact ⟨_, hm', hmb⟩
    rw [mountNodes, mountNode_of_backed hn hbacked, ← redate_cons hn]
    exact ih hlater

end

end Forest

/-! ## The tree of a name -/

/-- What a mount that goes through makes of a forest, when the tree of the root `r` has unfolded
into that of `g`. -/
structure Forest.MountsTree (f : Forest) (d : δ) (r : Nat) (g f' : Forest) (d' : δ) : Prop where
  life : f'.life = f.life + 1
  /-- The nodes are those of the unfolded forest, but for objects and dates. -/
  outline : f'.nodes.map Node.outline = g.nodes.map Node.outline
  tree : ∀ (i : Nat) n, f'.nodes[i]? = some n → f'.root i = r →
    n.isBacked = true ∧ n.life = f'.life
  /-- What was there before is there still. -/
  retains : f.Retains f'
  others : ∀ (i : Nat) n, f'.root i ≠ r → (f'.nodes[i]? = some n ↔ f.nodes[i]? = some n)
  /-- One object was made for each node of the tree that had none. -/
  made : ∃ is : List Nat, is.Nodup ∧
    (∀ i, i ∈ is ↔ g.root i = r ∧ ∃ n, g.nodes[i]? = some n ∧ n.isBacked = false) ∧
    g.Creates f' is d d'
  /-- Another mount of the tree makes nothing and changes only dates. -/
  again : ∀ name p (e : δ), f'.find name = .ok p → f'.root p.index = r →
    (f'.mount name e).result =
      .ok (.ok (), Forest.redate { f' with life := f'.life + 1 } (f'.subtree r), e)

section
variable {f f' g : Forest} {d d' : δ} {os : List Operation} {name : String} {r : Nat}

/-- A swapchain whose tree was mounted has children. -/
theorem children_of_mounted (hfollows : f.Follows os)
    (hg : (Forest.expandSwapchain { f with life := f.life + 1 } r).result = .ok g)
    (h : g.mountNodes d (g.subtree r) = .ok (.ok (), f', d')) {n : Node}
    (hn : f'.nodes[r]? = some n) (hkind : n.kind = .swapchain) : f'.children r ≠ [] := by
  have hsame : f'.children r = g.children r :=
    congrArg (Hierarchy.children · r) (mountNodes_hierarchy h)
  cases hp : n.payload with
  | swapchain source acquired =>
    obtain ⟨hexpands, hunfolds⟩ := Forest.expandSwapchain_keepsSwapchains hg
    obtain ⟨m, hm, -, hmp⟩ := (mountNodes_keepsSwapchains h).exists_swapchain hn hp
    obtain ⟨s, hs, -, hsp⟩ := hexpands.exists_swapchain hm hmp
    -- it has an image, since one is acquired
    have hinside := (hfollows.presents r s source acquired hs hsp).inside
    rw [hsame]
    by_cases hbare : f.children r = []
    · have hlength := (hunfolds s source acquired hs hsp hbare).length
      intro hnone
      rw [hnone, List.length_nil] at hlength
      omega
    · rcases hexpands.children r s source acquired hs hsp with hchildren | ⟨hnone, -⟩
      · rw [hchildren]
        exact hbare
      · exact absurd hnone hbare
  | _ =>
    rw [Node.kind, hp] at hkind
    cases hkind

namespace Forest

omit [Device δ] in
/-- The walk of a tree comes to nodes that are there. -/
theorem WellFormed.exists_of_mem_subtree (hf : f.WellFormed) {n : Node} {i : Nat}
    (hn : f.nodes[r]? = some n) (hi : i ∈ f.subtree r) : ∃ m, f.nodes[i]? = some m := by
  obtain rfl | ⟨q, -, hqi⟩ := ((Hierarchy.mem_subtree_iff hf.ordered).1 hi).cases_tail
  · exact ⟨n, hn⟩
  · obtain ⟨m, hm, -⟩ := mem_children_iff.1 hqi
    exact ⟨m, hm⟩

/-- **A mount of a tree whose objects are all there only changes dates.** -/
theorem mount_of_backed {p : Place} (hf : f.WellFormed) (hp : f.find name = .ok p)
    (hr : f.root p.index = r)
    (hbacked : ∀ (i : Nat) n, f.nodes[i]? = some n → f.root i = r → n.isBacked = true)
    (hunfolded : ∀ n, f.nodes[r]? = some n → n.kind = .swapchain → f.children r ≠ []) (d : δ) :
    (f.mount name d).result =
      .ok (.ok (), Forest.redate { f with life := f.life + 1 } (f.subtree r), d) := by
  subst hr
  obtain ⟨top, htop, -⟩ := exists_root hf (nodes_of_find hp).1
  have hsame : (expandSwapchain { f with life := f.life + 1 } (f.root p.index)).result =
      .ok { f with life := f.life + 1 } := expandSwapchain_of_unfolded hunfolded
  rw [mount_of_expanded hp hsame]
  refine mountNodes_of_backed (fun i hi => ?_) d
  obtain ⟨n, hn⟩ := hf.exists_of_mem_subtree htop hi
  have hroot : f.root i = f.root p.index :=
    (Hierarchy.mem_subtree_root_iff hf.ordered
      (Hierarchy.climbs_root hf.ordered p.index).top_of).1 hi
  exact ⟨n, hn, hbacked i n hn hroot⟩

end Forest

theorem mountsTree_of_mount {p : Place} (hf : f.WellFormed) (hfollows : f.Follows os)
    (hp : f.find name = .ok p)
    (hg : (Forest.expandSwapchain { f with life := f.life + 1 } (f.root p.index)).result = .ok g)
    (h : (f.mount name d).result = .ok (.ok (), f', d')) (hf' : f'.WellFormed) :
    f.MountsTree d (f.root p.index) g f' d' := by
  have hexpands := expands_of_find hf hp hg
  have hnodes := h
  rw [mount_of_expanded hp hg] at hnodes
  have hretains := Forest.mount_retains h
  have htree {i : Nat} {n : Node} (hn : f'.nodes[i]? = some n) :=
    Forest.tree_backed_of_mount hf h hp hn
  have hlife : f'.life = f.life + 1 := (mountNodes_node hnodes).1.trans hexpands.life
  refine ⟨hlife, Forest.mount_outline h hp hg, fun i n hn hi => ?_, hretains, fun i n hi => ?_, ?_,
    fun name' q e hq hroot => ?_⟩
  · obtain ⟨hbacked, hdate⟩ := (htree hn).1 hi
    exact ⟨hbacked, hdate.trans hlife.symm⟩
  · refine ⟨fun hn => (htree hn).2 hi, fun hn => ?_⟩
    obtain ⟨n', hn', -⟩ := hretains i n hn
    obtain rfl := Option.some.inj (((htree hn').2 hi).symm.trans hn)
    exact hn'
  · have hnodup := Hierarchy.nodup_subtree hexpands.wellFormed.ordered (f.root p.index)
    refine ⟨g.unbacked (g.subtree (f.root p.index)), hnodup.filter _, fun i => ?_, ?_⟩
    · rw [Forest.mem_unbacked, hexpands.mem_subtree_iff]
    · exact Forest.creates_of_mountNodes hnodup hnodes
  · refine Forest.mount_of_backed hf' hq hroot (fun i n hn hi => ((htree hn).1 hi).1) ?_ e
    exact fun n hn hkind => children_of_mounted hfollows hg hnodes hn hkind

end

/-- **A mount makes the whole tree of a name and nothing else.** Where no name is taken that a
swapchain unfolds into, a mount is no fault; and if the device refuses nothing, then it has made
one object for each node of the tree that had none. -/
theorem mounts_whole_tree {os : List Operation} {f : Forest} {name : String} {p : Place}
    (h : f.Reached δ os) (hp : f.find name = .ok p) (hfree : f.Unfoldable (f.root p.index))
    (d : δ) : ∃ g r f' d',
      (Forest.expandSwapchain { f with life := f.life + 1 } (f.root p.index)).result = .ok g ∧
      (f.mount name d).result = .ok (r, f', d') ∧
      (r = .ok () → f.MountsTree d (f.root p.index) g f' d') := by
  have hclock : Forest.Unfoldable { f with life := f.life + 1 } (f.root p.index) := hfree
  obtain ⟨g, hg⟩ := Forest.exists_expandSwapchain hclock
  have hgrows : ReflTransGen Grows (f, d) (g, d) := .head (.clock f d) (expandSwapchain_grows hg)
  have hgrelated := related_of_growsAll hgrows h.related
  obtain ⟨⟨r, f', d'⟩, hnodes⟩ :=
    (expands_of_find h.wellFormed hp hg).exists_mountNodes hgrelated d
  have hmount : (f.mount name d).result = .ok (r, f', d') := by
    rw [mount_of_expanded hp hg, hnodes]
  refine ⟨g, r, f', d', hg, hmount, ?_⟩
  rintro rfl
  have hgrown := mount_grows hmount
  exact mountsTree_of_mount h.wellFormed h.follows hp hg hmount
    (wellFormed_of_growsAll hgrown h.wellFormed)

/-! ### A window next to a rug -/

namespace Porch

def window : SwapchainImport := ⟨[⟨1⟩], .b8g8r8a8Unorm, ⟨4, 4⟩⟩

def history : List Operation := [
  .addImage "rug" {} .transient,
  .addSwapchain "window" window,
  .mount "rug"]

def forest : Forest where
  nodes := [
    { name := "rug", residency := .transient, payload := .image {} (some ⟨2⟩) false, life := 1 },
    { name := "rug/rug"
      residency := .transient
      payload := .imageView (ImageDesc.defaultView {}) "rug" (some ⟨3⟩)
      parent := some 0
      life := 1 },
    { name := "window", residency := .swapchain, payload := .swapchain window 0 }]
  life := 1

def device : Headless where
  lastHandle := 3
  created := { images := 1, imageViews := 1 }
  images := [(⟨2⟩, "rug")]
  imageViews := [(⟨3⟩, ⟨2⟩)]

theorem reached : forest.Reached Headless history :=
  .operate (.operate (.operate .start
    (d := { lastHandle := 1 }) rfl) (d := { lastHandle := 1 }) rfl) (d := { lastHandle := 1 }) rfl

/-- Nothing stands in the way of the window. -/
theorem unfoldable : forest.Unfoldable 2 := by
  rintro n source acquired hn hp -
  obtain rfl := Option.some.inj hn
  obtain ⟨rfl, rfl⟩ := Payload.swapchain.inj hp
  intro j _ hj
  obtain rfl : j = 0 := Nat.lt_one_iff.1 hj
  exact ⟨by decide, by decide⟩

end Porch

/-- The mount of the window makes the view of its image. -/
theorem mounts_whole_tree_porch : Porch.forest.Reached Headless Porch.history ∧
    ∃ p g f' d', Porch.forest.find "window" = .ok p ∧ p.index = 2 ∧ Porch.forest.Unfoldable 2 ∧
      (Porch.forest.mount "window" Porch.device).result = .ok (.ok (), f', d') ∧
      d'.imageViews = [(⟨3⟩, ⟨2⟩), (⟨4⟩, ⟨1⟩)] ∧
      Porch.forest.MountsTree Porch.device 2 g f' d' := by
  have hfind : Porch.forest.find "window" = .ok ⟨2, .ofSwapchain "window" Porch.window⟩ := rfl
  obtain ⟨g, r, f', d', -, hmount, hall⟩ :=
    mounts_whole_tree Porch.reached hfind Porch.unfoldable Porch.device
  have hrun : ∃ f' d', (Porch.forest.mount "window" Porch.device).result = .ok (.ok (), f', d') ∧
      d'.imageViews = [(⟨3⟩, ⟨2⟩), (⟨4⟩, ⟨1⟩)] := ⟨_, _, rfl, rfl⟩
  obtain ⟨f'', d'', hrun, hviews⟩ := hrun
  cases hmount.symm.trans hrun
  exact ⟨Porch.reached, _, g, f', d', hfind, rfl, Porch.unfoldable, hmount, hviews, hall rfl⟩

end FrameGraph
