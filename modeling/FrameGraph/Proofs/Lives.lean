import FrameGraph.Proofs.Kinship

/-!
# When nodes were mounted

A mount dates every node of the tree that it mounts, so a node is never younger than its parent, and
one whose object is there is exactly as old as its root (`Forest.Dated`). What could break this is a
mount that ends early. The headless device refuses only buffers and images without extent. Such a
node is a root, and nothing in its tree ever had an object (`Forest.Founded`,
`mountNodes_refused`): a mount either dates the whole tree or ends at its root.
-/

set_option autoImplicit false

namespace FrameGraph

open Relation (ReflTransGen)

/-- Whether the headless device can make the object of a node, where it has to be made. -/
def Payload.Makeable : Payload → Prop
  | .buffer desc _ => desc.size ≠ 0
  | .image desc _ external => external = true ∨ desc.width ≠ 0 ∧ desc.height ≠ 0
  | _ => True

theorem Payload.makeable_bare (p : Payload) : p.bare.Makeable ↔ p.Makeable := by
  cases p <;> rfl

/-- A swapchain is nothing that has to be made. -/
theorem Payload.kind_of_not_makeable {p : Payload} (h : ¬ p.Makeable) : p.kind ≠ .swapchain := by
  cases p with
  | swapchain source acquired => exact absurd trivial h
  | _ => simp [kind]

/-- Whether the object of a node could be made, and that which it shows. -/
structure Forest.Founds (f : Forest) (n : Node) : Prop where
  external : n.payload.isExternal = true → n.isBacked = true
  makeable : n.isBacked = true → n.payload.Makeable
  shown : n.isBacked = true → n.kind.isView = true →
    ∀ j p, n.parent = some j → f.nodes[j]? = some p → p.payload.Makeable

def Forest.Founded (f : Forest) : Prop := ∀ (i : Nat) n, f.nodes[i]? = some n → f.Founds n

/-- Whether the node at `i` was mounted no later than its parent, when its root was if its object is
there, and not in a mount to come. -/
structure Forest.Aged (f : Forest) (i : Nat) (n : Node) : Prop where
  parent : ∀ j p, n.parent = some j → f.nodes[j]? = some p → n.life ≤ p.life
  root : n.isBacked = true → ∀ r, f.nodes[f.root i]? = some r → n.life = r.life
  now : n.life ≤ f.life

def Forest.Dated (f : Forest) : Prop := ∀ (i : Nat) n, f.nodes[i]? = some n → f.Aged i n

/-! ## What can be made -/

section
variable {d d' : Headless} {name : String} {origin : Option Payload} {p p' : Payload}
  {outcome : Except DeviceError Payload}

/-- **The headless device refuses only a buffer or an image without extent.** -/
theorem realize_refused {e : DeviceError}
    (h : Payload.realize name origin p d = .ok (.error e, d')) :
    p.isBacked = false ∧ p.kind.isView = false ∧ (p.isExternal = false → ¬ p.Makeable) := by
  unfold Payload.realize at h
  split at h
  · next desc =>
    obtain ⟨-, ⟨made, -, hout⟩ | ⟨e', hcall, -⟩⟩ := Payload.attach_cases (Except.ok.inj h)
    · cases hout
    · refine ⟨rfl, rfl, fun _ hsize => ?_⟩
      simp [Device.createBuffer, Headless.createBuffer, if_neg hsize] at hcall
  · obtain ⟨-, ⟨made, -, hout⟩ | ⟨e', hcall, -⟩⟩ := Payload.attach_cases (Except.ok.inj h)
    · cases hout
    · cases hcall
  · cases h
  · next desc external =>
    obtain ⟨-, ⟨made, -, hout⟩ | ⟨e', hcall, -⟩⟩ := Payload.attach_cases (Except.ok.inj h)
    · cases hout
    · refine ⟨rfl, rfl, fun hexternal hextent => ?_⟩
      obtain ⟨hwidth, hheight⟩ := hextent.resolve_left (Bool.eq_false_iff.1 hexternal)
      simp [Device.createImage, Headless.createImage, hwidth, hheight] at hcall
  · obtain ⟨-, ⟨made, -, hout⟩ | ⟨e', hcall, -⟩⟩ := Payload.attach_cases (Except.ok.inj h)
    · cases hout
    · cases hcall
  · cases h
  · cases h

/-- An object that is there after a mount was there before, or it has been made, and for a view the
object that it shows was there. -/
theorem realize_backed (h : Payload.realize name origin p d = .ok (outcome, d'))
    (hb : (outcome.toOption.getD p).isBacked = true) : p.isBacked = true ∨
      p.Makeable ∧ (p.kind.isView = true → ∃ o, origin = some o ∧ o.isBacked = true) := by
  unfold Payload.realize at h
  split at h
  · next desc =>
    obtain ⟨-, ⟨made, hcall, -⟩ | ⟨e, -, rfl⟩⟩ := Payload.attach_cases (Except.ok.inj h)
    · refine .inr ⟨fun hsize => ?_, fun hview => by cases hview⟩
      simp [Device.createBuffer, Headless.createBuffer, hsize] at hcall
    · cases hb
  · exact .inr ⟨trivial, fun _ => ⟨_, rfl, rfl⟩⟩
  · cases h
  · next desc external =>
    obtain ⟨-, ⟨made, hcall, -⟩ | ⟨e, -, rfl⟩⟩ := Payload.attach_cases (Except.ok.inj h)
    · refine .inr ⟨.inr ?_, fun hview => by cases hview⟩
      by_contra hextent
      have hempty : desc.width = 0 ∨ desc.height = 0 := by omega
      simp [Device.createImage, Headless.createImage, hempty] at hcall
    · cases hb
  · exact .inr ⟨trivial, fun _ => ⟨_, rfl, rfl⟩⟩
  · cases h
  · cases h
    exact .inl hb

/-- A release takes the object of a node, or leaves the node as it is. -/
theorem release_same_or_unbacked (h : p.release d = .ok (p', d')) :
    p' = p ∨ p'.isBacked = false ∧ p.isExternal = false := by
  unfold Payload.release at h
  split at h
  · obtain ⟨e, -, h⟩ := Except.bind_eq_ok_iff.1 h
    cases h
    exact .inr ⟨rfl, rfl⟩
  · obtain ⟨e, -, h⟩ := Except.bind_eq_ok_iff.1 h
    cases h
    exact .inr ⟨rfl, rfl⟩
  · obtain ⟨e, -, h⟩ := Except.bind_eq_ok_iff.1 h
    cases h
    exact .inr ⟨rfl, rfl⟩
  · obtain ⟨e, -, h⟩ := Except.bind_eq_ok_iff.1 h
    cases h
    exact .inr ⟨rfl, rfl⟩
  · cases h
    exact .inl rfl

end

namespace Forest

variable {f f' g : Forest} {n n' : Node} {i j r : Nat}

/-! ## Nodes that could be made -/

theorem Founded.empty : Founded {} := by
  intro i n hn
  simp at hn

/-- The nodes may change in all that does not count here. -/
theorem Founded.mono (h : f.Founded) (hf : ∀ (i : Nat) n', f'.nodes[i]? = some n' →
      ∃ n, f.nodes[i]? = some n ∧ n'.parent = n.parent ∧ n'.payload = n.payload) :
    f'.Founded := by
  intro i n' hn'
  obtain ⟨n, hn, hparent, hpayload⟩ := hf i n' hn'
  have hfounds := h i n hn
  refine ⟨?_, ?_, fun hb hview j p' hj hp' => ?_⟩
  · rw [Node.isBacked, hpayload]
    exact hfounds.external
  · rw [Node.isBacked, hpayload]
    exact hfounds.makeable
  · rw [Node.isBacked, hpayload] at hb
    rw [Node.kind, hpayload] at hview
    rw [hparent] at hj
    obtain ⟨p, hp, -, hpp⟩ := hf j p' hp'
    rw [hpp]
    exact hfounds.shown hb hview j p hj hp

theorem Founded.push (h : f.Founded) (hf : f.WellFormed) (hexternal : n.payload.isExternal = true →
    n.isBacked = true) (hmakeable : n.isBacked = true → n.payload.Makeable)
    (hview : n.isBacked = true → n.kind.isView = false) : (f.push n).Founded := by
  intro i m hm
  rcases nodes_push_cases hm with hm | ⟨-, rfl⟩
  · refine ⟨(h i m hm).external, (h i m hm).makeable, fun hb hv j p hj hp => ?_⟩
    obtain ⟨q, hq⟩ := hf.exists_parent hm hj
    rw [nodes_push_of_some hq] at hp
    obtain rfl := Option.some.inj hp
    exact (h i m hm).shown hb hv j q hj hq
  · refine ⟨hexternal, hmakeable, fun hb hv => ?_⟩
    rw [hview hb] at hv
    cases hv

/-- A node may change as long as it can be made if it could be made before. -/
theorem Founded.put (h : f.Founded) (hn : f.nodes[i]? = some n)
    (hmakeable : n.payload.Makeable → n'.payload.Makeable) (hself : f.Founds n') :
    (f.put i n').Founded := by
  have hshown {m : Node} (hm : f.Founds m) : (f.put i n').Founds m := by
    refine ⟨hm.external, hm.makeable, fun hb hv j p hj hp => ?_⟩
    rcases nodes_put_cases hn hp with hp | ⟨rfl, rfl⟩
    · exact hm.shown hb hv j p hj hp
    · exact hmakeable (hm.shown hb hv j n hj hn)
  intro j m hm
  rcases nodes_put_cases hn hm with hm | ⟨-, rfl⟩
  · exact hshown (h j m hm)
  · exact hshown hself

/-! ## Dates -/

theorem Dated.empty : Dated {} := by
  intro i n hn
  simp at hn

/-- A node keeps its root as long as no node gets another parent. -/
theorem root_of_kept (hf : f.WellFormed) (hg : g.WellFormed)
    (hkeep : ∀ (j : Nat) m, f.nodes[j]? = some m → ∃ m', g.nodes[j]? = some m' ∧
      m'.parent = m.parent) (hn : f.nodes[i]? = some n) : g.root i = f.root i := by
  obtain ⟨hi, -⟩ := List.getElem?_eq_some_iff.1 (hierarchy_of_nodes hn)
  refine (Hierarchy.Climbs.mono hf.ordered (Hierarchy.climbs_root hf.ordered i) hi
    fun j parent hj => ?_).root_eq hg.ordered
  obtain ⟨m, hm, rfl⟩ : ∃ m, f.nodes[j]? = some m ∧ m.parent = parent := by
    rw [hierarchy, List.getElem?_map] at hj
    exact Option.map_eq_some_iff.1 hj
  obtain ⟨m', hm', hparent⟩ := hkeep j m hm
  rw [hierarchy_of_nodes hm', hparent]

/-- Objects may go, and the clock may move on. -/
theorem Dated.mono (h : f.Dated) (hsame : f'.hierarchy = f.hierarchy) (hlife : f.life ≤ f'.life)
    (hf : ∀ (i : Nat) n', f'.nodes[i]? = some n' → ∃ n, f.nodes[i]? = some n ∧
      n'.parent = n.parent ∧ n'.life = n.life ∧ (n'.isBacked = true → n.isBacked = true)) :
    f'.Dated := by
  intro i n' hn'
  obtain ⟨n, hn, hparent, hage, hbacked⟩ := hf i n' hn'
  have haged := h i n hn
  refine ⟨fun j p' hj hp' => ?_, fun hb r' hr' => ?_, ?_⟩
  · obtain ⟨p, hp, -, hpage, -⟩ := hf j p' hp'
    rw [hparent] at hj
    rw [hage, hpage]
    exact haged.parent j p hj hp
  · rw [root, hsame] at hr'
    obtain ⟨r, hr, -, hrage, -⟩ := hf _ r' hr'
    rw [hage, hrage]
    exact haged.root (hbacked hb) r hr
  · rw [hage]
    exact Nat.le_trans haged.now hlife

/-- A node that was never mounted may be added if it has no object or is a root. -/
theorem Dated.push (h : f.Dated) (hf : f.WellFormed) (hf' : (f.push n).WellFormed)
    (hlife : n.life = 0) (hroot : n.isBacked = false ∨ n.parent = none) : (f.push n).Dated := by
  intro i m hm
  rcases nodes_push_cases hm with hm | ⟨rfl, rfl⟩
  · refine ⟨fun j p hj hp => ?_, fun hb r hr => ?_, (h i m hm).now⟩
    · obtain ⟨q, hq⟩ := hf.exists_parent hm hj
      rw [nodes_push_of_some hq] at hp
      obtain rfl := Option.some.inj hp
      exact (h i m hm).parent j q hj hq
    · rw [root_of_kept hf hf' (fun j m hm => ⟨m, nodes_push_of_some hm, rfl⟩) hm] at hr
      obtain ⟨q, hq, -⟩ := exists_root hf hm
      rw [nodes_push_of_some hq] at hr
      obtain rfl := Option.some.inj hr
      exact (h i m hm).root hb q hq
  · refine ⟨fun j p _ _ => ?_, fun hb r hr => ?_, ?_⟩
    · rw [hlife]
      exact Nat.zero_le _
    · rcases hroot with hroot | hroot
      · rw [hroot] at hb
        cases hb
      · rw [root_of_top hm hroot, hm] at hr
        obtain rfl := Option.some.inj hr
        rfl
    · rw [hlife]
      exact Nat.zero_le _

end Forest

section
variable {δ : Type} [Device δ] {f f' g : Forest} {d d' : δ} {i j r : Nat}

/-! ## Mounting a tree -/

theorem mountNode_node {out : Except DeviceError Unit} (h : f.mountNode d i = .ok (out, f', d')) :
    f'.life = f.life ∧ ∀ (j : Nat) n', f'.nodes[j]? = some n' → ∃ n, f.nodes[j]? = some n ∧
      (j ≠ i → n' = n) ∧ (j = i → n'.life = f.life) := by
  have hput (n m : Node) (hn : f.nodes[i]? = some n) (hm : m.life = f.life) :
      ∀ (j : Nat) n', (f.put i m).nodes[j]? = some n' → ∃ n, f.nodes[j]? = some n ∧
        (j ≠ i → n' = n) ∧ (j = i → n'.life = f.life) := by
    intro j n' hn'
    by_cases hij : i = j
    · subst hij
      rw [Forest.nodes_put_self hn] at hn'
      obtain rfl := Option.some.inj hn'
      exact ⟨n, hn, fun h => absurd rfl h, fun _ => hm⟩
    · rw [Forest.nodes_put_ne hij] at hn'
      exact ⟨n', hn', fun _ => rfl, fun h => absurd h.symm hij⟩
  unfold Forest.mountNode at h
  split at h
  · next hnone =>
    cases h
    refine ⟨rfl, fun j n' hn' => ⟨n', hn', fun _ => rfl, fun hj => ?_⟩⟩
    rw [hj, hnone] at hn'
    cases hn'
  · next n hn =>
    obtain ⟨⟨outcome, c⟩, -, h⟩ := Except.bind_eq_ok_iff.1 h
    cases outcome with
    | ok payload =>
      cases h
      rw [Forest.modify_eq_put hn]
      exact ⟨rfl, hput n _ hn rfl⟩
    | error e =>
      cases h
      rw [Forest.modify_eq_put hn]
      exact ⟨rfl, hput n _ hn rfl⟩

/-- A mount leaves the nodes that it does not come to as they are. -/
theorem mountNodes_node {is : List Nat} {out : Except DeviceError Unit}
    (h : f.mountNodes d is = .ok (out, f', d')) : f'.life = f.life ∧
      ∀ (j : Nat) n', f'.nodes[j]? = some n' → ∃ n, f.nodes[j]? = some n ∧ (j ∉ is → n' = n) := by
  induction is generalizing f d with
  | nil =>
    cases h
    exact ⟨rfl, fun j n' hn' => ⟨n', hn', fun _ => rfl⟩⟩
  | cons i is ih =>
    obtain ⟨⟨out', g, e⟩, hg, h⟩ := Except.bind_eq_ok_iff.1 h
    obtain ⟨hlife, hnode⟩ := mountNode_node hg
    cases out' with
    | ok u =>
      obtain ⟨hlife', hnode'⟩ := ih h
      refine ⟨hlife'.trans hlife, fun j n' hn' => ?_⟩
      obtain ⟨m, hm, hrest⟩ := hnode' j n' hn'
      obtain ⟨n, hn, hfirst, -⟩ := hnode j m hm
      refine ⟨n, hn, fun hj => ?_⟩
      have hlater := hrest (List.not_mem_of_not_mem_cons hj)
      exact hlater.trans (hfirst (List.ne_of_not_mem_cons hj))
    | error e' =>
      cases h
      refine ⟨hlife, fun j n' hn' => ?_⟩
      obtain ⟨n, hn, hfirst, -⟩ := hnode j n' hn'
      exact ⟨n, hn, fun hj => hfirst (List.ne_of_not_mem_cons hj)⟩

/-- **A mount that goes through dates every node that it comes to.** -/
theorem mountNodes_life {is : List Nat} (h : f.mountNodes d is = .ok (.ok (), f', d')) {n' : Node}
    (hn' : f'.nodes[j]? = some n') (hj : j ∈ is) : n'.life = f.life := by
  induction is generalizing f d with
  | nil => cases hj
  | cons i is ih =>
    obtain ⟨⟨out', g, e⟩, hg, h⟩ := Except.bind_eq_ok_iff.1 h
    obtain ⟨hlife, hnode⟩ := mountNode_node hg
    cases out' with
    | error e' => cases h
    | ok u =>
      by_cases hrest : j ∈ is
      · exact (ih h hrest).trans hlife
      · obtain ⟨m, hm, hsame⟩ := (mountNodes_node h).2 j n' hn'
        obtain ⟨n, -, -, hdate⟩ := hnode j m hm
        rw [hsame hrest]
        exact hdate ((List.mem_cons.1 hj).resolve_right hrest)

/-- A mount that is refused has gone through up to the node at which it ends. -/
theorem mountNodes_refused {is : List Nat} {e : DeviceError}
    (h : f.mountNodes d is = .ok (.error e, f', d')) :
    ∃ before k after g c, is = before ++ k :: after ∧ f.mountNodes d before = .ok (.ok (), g, c) ∧
      g.mountNode c k = .ok (.error e, f', d') := by
  induction is generalizing f d with
  | nil => cases h
  | cons i is ih =>
    obtain ⟨⟨out', g, c⟩, hg, h⟩ := Except.bind_eq_ok_iff.1 h
    cases out' with
    | error e' =>
      cases h
      exact ⟨[], i, is, f, d, rfl, rfl, hg⟩
    | ok u =>
      obtain ⟨before, k, after, g', c', rfl, hbefore, hk⟩ := ih h
      refine ⟨i :: before, k, after, g', c', rfl, ?_, hk⟩
      rw [Forest.mountNodes, Except.bind_eq_ok_iff]
      exact ⟨_, hg, hbefore⟩

/-- Unfolding adds nodes to the tree of the swapchain and leaves the others. -/
theorem node_of_unfolds {r : Nat} (h : ReflTransGen (Forest.Unfolds r) f g) : g.life = f.life ∧
    (∀ (j : Nat) n, f.nodes[j]? = some n → g.nodes[j]? = some n) ∧
    ∀ (j : Nat) n, g.nodes[j]? = some n → f.nodes[j]? = some n ∨ n.parent = some r ∨
      ∃ (k : Nat) (m : Node), n.parent = some k ∧ g.nodes[k]? = some m ∧ m.parent = some r := by
  induction h with
  | refl => exact ⟨rfl, fun _ _ hn => hn, fun _ _ hn => .inl hn⟩
  | @tail c _ _ hstep ih =>
    obtain ⟨hlife, hold, hnew⟩ := ih
    cases hstep with
    | @image n v hparent hview =>
      have hkeep {k : Nat} {m : Node} (hm : c.nodes[k]? = some m) :
          ((c.push n).push v).nodes[k]? = some m :=
        Forest.nodes_push_of_some (Forest.nodes_push_of_some hm)
      refine ⟨hlife, fun j m hm => hkeep (hold j m hm), fun j m hm => ?_⟩
      rcases Forest.nodes_push_cases hm with hm | ⟨rfl, rfl⟩
      · rcases Forest.nodes_push_cases hm with hm | ⟨rfl, rfl⟩
        · refine (hnew j m hm).imp_right (Or.imp_right ?_)
          rintro ⟨k, p, hk, hp, hpr⟩
          exact ⟨k, p, hk, hkeep hp, hpr⟩
        · exact .inr (.inl hparent)
      · exact .inr (.inr ⟨c.size, n, hview.parent,
          Forest.nodes_push_of_some Forest.nodes_push_size, hparent⟩)

/-- What a mount finds when it has unfolded the tree of the root `r`: all that is new is in this
tree. -/
structure Forest.Expands (f : Forest) (r : Nat) (g : Forest) : Prop where
  wellFormed : g.WellFormed
  life : g.life = f.life + 1
  top : ∃ n, f.nodes[r]? = some n ∧ n.parent = none
  kept : ∀ (j : Nat) n, f.nodes[j]? = some n → g.nodes[j]? = some n
  new : ∀ (j : Nat) n, g.nodes[j]? = some n → f.nodes[j]? = some n ∨ g.root j = r

namespace Forest.Expands

variable (h : f.Expands r g)
include h

theorem root_self : g.root r = r := by
  obtain ⟨n, hn, hparent⟩ := h.top
  exact Forest.root_of_top (h.kept r n hn) hparent

theorem root_kept {n : Node} (hf : f.WellFormed) (hn : f.nodes[j]? = some n) :
    g.root j = f.root j :=
  Forest.root_of_kept hf h.wellFormed (fun k m hm => ⟨m, h.kept k m hm, rfl⟩) hn

theorem mem_subtree_iff : j ∈ g.subtree r ↔ g.root j = r := by
  refine Hierarchy.mem_subtree_root_iff h.wellFormed.ordered ?_
  rw [← h.root_self]
  exact (Hierarchy.climbs_root h.wellFormed.ordered _).top_of

end Forest.Expands

/-- A mount unfolds the tree that holds the name, before it comes to the nodes. -/
theorem expands_of_find {name : String} {p : Place} (hf : f.WellFormed) (hp : f.find name = .ok p)
    (hg : (Forest.expandSwapchain { f with life := f.life + 1 } (f.root p.index)).result = .ok g) :
    f.Expands (f.root p.index) g := by
  have hgrows : ReflTransGen Grows (f, ({} : Headless)) (g, {}) :=
    .head (.clock f _) (expandSwapchain_grows hg)
  have hgf := wellFormed_of_growsAll hgrows hf
  obtain ⟨n, hn, hparent⟩ := Forest.exists_root hf (Forest.nodes_of_find hp).1
  rcases expandSwapchain_unfolds hg with rfl | ⟨-, hunfolds⟩
  · exact ⟨hgf, rfl, ⟨n, hn, hparent⟩, fun _ _ hm => hm, fun _ _ hm => .inl hm⟩
  · obtain ⟨hlife, hold, hnew⟩ := node_of_unfolds hunfolds
    have htop : g.root (f.root p.index) = f.root p.index :=
      Forest.root_of_top (hold _ n hn) hparent
    refine ⟨hgf, hlife, ⟨n, hn, hparent⟩, hold, fun j m hm => (hnew j m hm).imp_right ?_⟩
    rintro (hmr | ⟨k, q, hmk, hq, hqr⟩)
    · rw [Forest.root_of_parent hgf hm hmr, htop]
    · rw [Forest.root_of_parent hgf hm hmk, Forest.root_of_parent hgf hq hqr, htop]

/-- **A mount that goes through dates the whole tree** and leaves all other nodes as they are. -/
theorem tree_of_mount {name : String} (h : (f.mount name d).result = .ok (.ok (), f', d'))
    (hf : f.WellFormed) : ∃ p, f.find name = .ok p ∧ f'.life = f.life + 1 ∧
      (∀ (j : Nat) n', f'.nodes[j]? = some n' → f'.root j ≠ f.root p.index →
        f.nodes[j]? = some n') ∧
      (∀ (j : Nat) n', f'.nodes[j]? = some n' → f'.root j = f.root p.index → n'.life = f'.life) ∧
      ∀ (j : Nat) m, f.nodes[j]? = some m → f'.root j = f.root j := by
  obtain ⟨p, g, hp, hg, h⟩ := mount_ok h
  have hexpands := expands_of_find hf hp hg
  refine ⟨p, hp, ?_⟩
  generalize f.root p.index = r at h hexpands ⊢
  have hroot (j : Nat) : f'.root j = g.root j :=
    congrArg (Hierarchy.root · j) (mountNodes_hierarchy h)
  obtain ⟨hlife, hnode⟩ := mountNodes_node h
  refine ⟨hlife.trans hexpands.life, fun j n' hn' hj => ?_, fun j n' hn' hj => ?_, fun j m hm => ?_⟩
  · rw [hroot] at hj
    obtain ⟨m, hm, hkept⟩ := hnode j n' hn'
    rw [hkept fun hin => hj (hexpands.mem_subtree_iff.1 hin)]
    exact (hexpands.new j m hm).resolve_right hj
  · rw [hlife]
    exact mountNodes_life h hn' (hexpands.mem_subtree_iff.2 ((hroot j).symm.trans hj))
  · rw [hroot]
    exact hexpands.root_kept hf hm

end

/-! ## Small changes -/

section
variable {f f' g : Forest} {d d' : Headless} {i j r : Nat}

theorem founds_of_mountNode {n : Node} {outcome : Except DeviceError Payload} (h : f.Founded)
    (hn : f.nodes[i]? = some n)
    (hrealize : Payload.realize n.name ((n.parent.bind (f.nodes[·]?)).map (·.payload)) n.payload d =
      .ok (outcome, d')) :
    f.Founds { n with life := f.life, payload := outcome.toOption.getD n.payload } := by
  have hbare := bare_of_realize hrealize
  have hfounds := h i n hn
  refine ⟨fun hexternal => ?_, fun hb => ?_, fun hb hview j p hj hp => ?_⟩
  · -- an image made elsewhere is there, so that nothing is made
    rw [← Payload.isExternal_bare, hbare, Payload.isExternal_bare] at hexternal
    have hb := hfounds.external hexternal
    rw [realize_of_backed hb] at hrealize
    obtain ⟨rfl, -⟩ := Prod.mk.inj (Except.ok.inj hrealize)
    exact hb
  · rw [← Payload.makeable_bare, hbare, Payload.makeable_bare]
    rcases realize_backed hrealize hb with hb | ⟨hmakeable, -⟩
    · exact hfounds.makeable hb
    · exact hmakeable
  · have hkind : n.kind.isView = true := by
      rw [← hview]
      exact congrArg _ (kind_of_bare hbare).symm
    rcases realize_backed hrealize hb with hb | ⟨-, horigin⟩
    · exact hfounds.shown hb hkind j p hj hp
    · obtain ⟨o, ho, hob⟩ := horigin hkind
      have hparent : n.parent = some j := hj
      rw [hparent, Option.bind_some, hp, Option.map_some] at ho
      obtain rfl := Option.some.inj ho
      exact (h j p hp).makeable hob

theorem Grows.founded {s s' : Forest × Headless} (h : Grows s s') (hf : s.1.WellFormed)
    (hs : s.1.Founded) : s'.1.Founded := by
  cases h with
  | clock f d => exact hs.mono fun i n hn => ⟨n, hn, rfl, rfl⟩
  | register d h =>
    have hunbacked {P : Prop} (hb : _ = true) : P := Bool.noConfusion (hb.symm.trans h.isBacked)
    refine hs.push hf (fun hexternal => ?_) hunbacked hunbacked
    rw [Payload.isExternal_of_inside h.inside] at hexternal
    cases hexternal
  | unfold d h =>
    obtain ⟨desc, hp⟩ := h.payload
    refine hs.push hf (fun _ => ?_) (fun _ => ?_) fun _ => ?_
    · rw [Node.isBacked, hp]
      rfl
    · rw [hp]
      exact .inl rfl
    · rw [Node.kind, hp]
      rfl
  | acquire d index hn hp =>
    refine hs.put hn (fun _ => trivial) ⟨fun h => ?_, fun _ => trivial, fun _ hview => ?_⟩
    · cases h
    · cases hview
  | mountNode h =>
    rcases mountNode_ok h with ⟨rfl, rfl⟩ | ⟨n, outcome, hn, hrealize, rfl⟩
    · exact hs
    · refine hs.put hn (fun hmakeable => ?_) (founds_of_mountNode hs hn hrealize)
      rw [← Payload.makeable_bare, bare_of_realize hrealize, Payload.makeable_bare]
      exact hmakeable

theorem Releases.founded {s s' : Forest × Headless} (h : Releases s s') (hs : s.1.Founded) :
    s'.1.Founded := by
  obtain ⟨h⟩ := h
  rcases releaseNode_ok h with ⟨rfl, rfl⟩ | ⟨n, payload, hn, hrelease, rfl⟩
  · exact hs
  · have hfounds := hs _ n hn
    refine hs.put hn (fun hmakeable => ?_) ?_
    · rw [← Payload.makeable_bare, bare_of_release hrelease, Payload.makeable_bare]
      exact hmakeable
    · rcases release_same_or_unbacked hrelease with rfl | ⟨hunbacked, hexternal⟩
      · exact ⟨hfounds.external, hfounds.makeable, hfounds.shown⟩
      · have hnone {P : Prop} (hb : payload.isBacked = true) : P :=
          Bool.noConfusion (hb.symm.trans hunbacked)
        refine ⟨fun h => ?_, hnone, hnone⟩
        rw [← Payload.isExternal_bare, bare_of_release hrelease, Payload.isExternal_bare,
          hexternal] at h
        cases h

theorem founded_of_growsAll (h : ReflTransGen Grows (f, d) (f', d')) (hf : f.WellFormed)
    (hs : f.Founded) : f'.WellFormed ∧ f'.Founded :=
  kept_by_all (P := fun s : Forest × Headless => s.1.WellFormed ∧ s.1.Founded)
    (fun _ _ hstep hs => ⟨hstep.wellFormed hs.1, hstep.founded hs.1 hs.2⟩) h ⟨hf, hs⟩

theorem Operation.founded {o : Operation} (h : o.run f d = .ok (f', d')) (hf : f.WellFormed)
    (hs : f.Founded) : f'.Founded := by
  rcases o.run_cases h with ⟨-, hgrows⟩ | ⟨-, hreleases⟩ | ⟨name, source, -, -, rfl, -⟩
  · exact (founded_of_growsAll hgrows hf hs).2
  · exact kept_by_all (P := fun s => s.1.Founded) (fun _ _ => Releases.founded) hreleases hs
  · exact hs.push hf (fun _ => rfl) (fun _ => trivial) fun _ => rfl

/-! ## What a mount makes of the dates -/

/-- **A mount is refused at a root without extent, if at all.** -/
theorem mountNode_refused {e : DeviceError} (h : f.mountNode d i = .ok (.error e, f', d'))
    (hrelated : f.Related) (hfounded : f.Founded) : ∃ n, f.nodes[i]? = some n ∧
      f' = f.put i { n with life := f.life } ∧ n.parent = none ∧ n.isBacked = false ∧
      ¬ n.payload.Makeable := by
  unfold Forest.mountNode at h
  split at h
  · cases h
  · next n hn =>
    obtain ⟨⟨outcome, c⟩, hrealize, h⟩ := Except.bind_eq_ok_iff.1 h
    cases outcome with
    | ok payload => cases h
    | error e' =>
      cases h
      obtain ⟨hunbacked, hview, hmakeable⟩ := realize_refused hrealize
      have hexternal : n.payload.isExternal = false := by
        by_contra hexternal
        have hb := (hfounded i n hn).external (by simpa using hexternal)
        exact Bool.noConfusion (hb.symm.trans hunbacked)
      exact ⟨n, hn, Forest.modify_eq_put hn, hrelated.isRoot hn hview hexternal, hunbacked,
        hmakeable hexternal⟩

/-- A tree may be dated as a whole, with nodes that are new to it. -/
theorem Forest.Dated.of_tree (h : f.Dated) (hf' : f'.WellFormed)
    (hlife : f.life ≤ f'.life)
    (hout : ∀ (j : Nat) n, f'.nodes[j]? = some n → f'.root j ≠ r → f.nodes[j]? = some n)
    (hin : ∀ (j : Nat) n, f'.nodes[j]? = some n → f'.root j = r → n.life = f'.life)
    (hroot : ∀ (j : Nat) n, f.nodes[j]? = some n → f'.root j = f.root j) : f'.Dated := by
  intro j n hn
  have hparent {k : Nat} (hk : n.parent = some k) : f'.root k = f'.root j :=
    (Forest.root_of_parent hf' hn hk).symm
  have htop : f'.root (f'.root j) = f'.root j := Hierarchy.root_root hf'.ordered j
  by_cases hj : f'.root j = r
  · have hage := hin j n hn hj
    refine ⟨fun k p hk hp => ?_, fun _ m hm => ?_, Nat.le_of_eq hage⟩
    · exact Nat.le_of_eq (hage.trans (hin k p hp ((hparent hk).trans hj)).symm)
    · rw [hage, hin _ m hm (htop.trans hj)]
  · have hn' := hout j n hn hj
    have haged := h j n hn'
    refine ⟨fun k p hk hp => ?_, fun hb m hm => ?_, Nat.le_trans haged.now hlife⟩
    · have hk' : f'.root k ≠ r := by rwa [hparent hk]
      exact haged.parent k p hk (hout k p hp hk')
    · have hm' := hout _ m hm (by rwa [htop])
      rw [hroot j n hn'] at hm'
      exact haged.root hb m hm'

/-- A root without an object may be dated alone if its object cannot be made. -/
theorem Forest.Dated.of_refused {n : Node} {l : Nat} (h : f.Dated) (hf : f.WellFormed)
    (hrelated : f.Related) (hfounded : f.Founded) (hn : f.nodes[r]? = some n)
    (hparent : n.parent = none) (hunbacked : n.isBacked = false)
    (hmakeable : ¬ n.payload.Makeable) (hlife : f.life ≤ l) :
    (Forest.put { f with life := l } r { n with life := l }).Dated := by
  have hkind : n.kind ≠ .swapchain := Payload.kind_of_not_makeable hmakeable
  have hat {j : Nat} {m : Node}
      (hm : (Forest.put { f with life := l } r { n with life := l }).nodes[j]? = some m) :
      f.nodes[j]? = some m ∨ j = r ∧ m = { n with life := l } := Forest.nodes_put_cases hn hm
  have hroot (j : Nat) :
      (Forest.put { f with life := l } r { n with life := l }).root j = f.root j :=
    congrArg (fun h => Hierarchy.root h j) (Forest.hierarchy_put (f := f) hn rfl)
  intro j m hm
  rcases hat hm with hm | ⟨rfl, rfl⟩
  · have haged := h j m hm
    refine ⟨fun k p hk hp => ?_, fun hb s hs => ?_, Nat.le_trans haged.now hlife⟩
    · rcases hat hp with hp | ⟨rfl, rfl⟩
      · exact haged.parent k p hk hp
      · exact Nat.le_trans haged.now hlife
    · rw [hroot] at hs
      rcases hat hs with hs | ⟨hj, rfl⟩
      · exact haged.root hb s hs
      · -- an object in this tree would show the one that could not be made
        exfalso
        have hs' : f.nodes[f.root j]? = some n := by rw [hj, hn]
        rcases hrelated.place_in_tree hf hm hs' hkind with htop | hbelow
        · rw [htop, hm] at hs'
          obtain rfl := Option.some.inj hs'
          exact Bool.noConfusion (hb.symm.trans hunbacked)
        · have hview := hrelated.isView_of_parent hm hbelow hs' hkind
          exact hmakeable ((hfounded j m hm).shown hb hview _ n hbelow hs')
  · refine ⟨fun k p hk _ => ?_, fun hb => ?_, Nat.le_refl l⟩
    · rw [hparent] at hk
      cases hk
    · exact Bool.noConfusion (hb.symm.trans hunbacked)

/-- A mount that is refused ends at the root of the tree. -/
theorem mountNodes_subtree_refused {e : DeviceError} (hf : f.WellFormed) (hrelated : f.Related)
    (hfounded : f.Founded) (htop : f.root r = r)
    (h : f.mountNodes d (f.subtree r) = .ok (.error e, f', d')) :
    f.mountNode d r = .ok (.error e, f', d') := by
  obtain ⟨before, k, after, g, c, htree, hbefore, hk⟩ := mountNodes_refused h
  have hgrows : ReflTransGen Grows (f, d) (g, c) := mountNodes_grows hbefore
  have hgrelated := related_of_growsAll hgrows hrelated
  have hsame : g.hierarchy = f.hierarchy := mountNodes_hierarchy hbefore
  obtain ⟨n, hn, -, hparent, -, -⟩ :=
    mountNode_refused hk hgrelated (founded_of_growsAll hgrows hf hfounded).2
  have hkr : k = r := by
    have hmem : k ∈ f.subtree r := by simp [htree]
    have hroot := (Hierarchy.mem_subtree_root_iff hf.ordered ?_).1 hmem
    · have hktop : g.root k = k := Forest.root_of_top hn hparent
      rw [Forest.root, hsame] at hktop
      exact hktop.symm.trans hroot
    · rw [← htop]
      exact (Hierarchy.climbs_root hf.ordered r).top_of
  subst hkr
  -- the root is met first, and only once
  have hfirst : k :: (f.children k).flatMap f.subtree = before ++ k :: after := by
    rw [← htree]
    exact (Hierarchy.subtree_eq hf.ordered k).symm
  cases before with
  | nil =>
    cases hbefore
    exact hk
  | cons b before =>
    obtain ⟨rfl, -⟩ := List.cons.inj hfirst
    have hnodup : (f.subtree k).Nodup := Hierarchy.nodup_subtree hf.ordered k
    rw [htree] at hnodup
    simp at hnodup

/-- **A mount dates the whole tree or ends at its root**, which then has no object. -/
theorem dated_of_mount {name : String} {out : Except DeviceError Unit}
    (h : (f.mount name d).result = .ok (out, f', d')) (hf : f.WellFormed) (hrelated : f.Related)
    (hfounded : f.Founded) (hdated : f.Dated) : f'.Dated := by
  have hf' : f'.WellFormed := (founded_of_growsAll (mount_grows h) hf hfounded).1
  cases out with
  | ok u =>
    obtain ⟨p, -, hlife, hout, hin, hroot⟩ := tree_of_mount h hf
    exact hdated.of_tree hf' (hlife ▸ Nat.le_succ _) hout hin hroot
  | error e =>
    obtain ⟨p, g, hp, hg, h⟩ := mount_ok h
    have hgrows : ReflTransGen Grows (f, d) (g, d) := .head (.clock f d) (expandSwapchain_grows hg)
    obtain ⟨hgf, hgfounded⟩ := founded_of_growsAll hgrows hf hfounded
    have hgrelated := related_of_growsAll hgrows hrelated
    have hexpands := expands_of_find hf hp hg
    generalize f.root p.index = r at hg h hexpands
    have hrefused := mountNodes_subtree_refused hgf hgrelated hgfounded hexpands.root_self h
    obtain ⟨m, hm, rfl, -, hunbacked, hmakeable⟩ := mountNode_refused hrefused hgrelated hgfounded
    obtain ⟨n, hn, hparent⟩ := hexpands.top
    rw [hexpands.kept r n hn] at hm
    obtain rfl := Option.some.inj hm
    rcases expandSwapchain_unfolds hg with rfl | ⟨⟨s, hs, hkind⟩, -⟩
    · exact hdated.of_refused hf hrelated hfounded hn hparent hunbacked hmakeable (Nat.le_succ _)
    · have hs' : f.nodes[r]? = some s := hs
      rw [hn] at hs'
      obtain rfl := Option.some.inj hs'
      exact absurd hkind (Payload.kind_of_not_makeable hmakeable)

/-! ## Operations and frames -/

theorem Releases.dated {s s' : Forest × Headless} (h : Releases s s') (hs : s.1.Dated) :
    s'.1.Dated := by
  have hsame := h.hierarchy
  obtain ⟨h⟩ := h
  rcases releaseNode_ok h with ⟨rfl, rfl⟩ | ⟨m, payload, hm, hrelease, rfl⟩
  · exact hs
  · refine hs.mono hsame (Nat.le_refl _) fun i n' hn' => ?_
    rcases Forest.nodes_put_cases hm hn' with hn | ⟨rfl, rfl⟩
    · exact ⟨n', hn, rfl, rfl, id⟩
    · refine ⟨m, hm, rfl, rfl, fun hb => ?_⟩
      rcases release_same_or_unbacked hrelease with rfl | ⟨hunbacked, -⟩
      · exact hb
      · exact Bool.noConfusion (hb.symm.trans hunbacked)

/-- **Every operation keeps the dates right.** -/
theorem Operation.dated {o : Operation} (h : o.run f d = .ok (f', d')) (hf : f.WellFormed)
    (hrelated : f.Related) (hfounded : f.Founded) (hdated : f.Dated) : f'.Dated := by
  have hf' := Operation.wellFormed h hf
  rcases o.run_whole h with ⟨-, halters, -⟩ | ⟨-, hreleases⟩ | ⟨name, r, -, hmount⟩
  · cases halters with
    | add hn _ => exact hdated.push hf hf' hn.life (.inl hn.isBacked)
    | addImage hn hv _ =>
      have hpush := Grows.wellFormed (.register d hn) hf
      exact (hdated.push hf hpush hn.life (.inl hn.isBacked)).push hpush hf' hv.life
        (.inl hv.isBacked)
    | addSwapchain source _ => exact hdated.push hf hf' rfl (.inr rfl)
    | acquire index hn hp =>
      refine hdated.mono (Forest.hierarchy_put hn rfl) (Nat.le_refl _) fun i n' hn' => ?_
      rcases Forest.nodes_put_cases hn hn' with hn' | ⟨rfl, rfl⟩
      · exact ⟨n', hn', rfl, rfl, id⟩
      · exact ⟨_, hn, rfl, rfl, fun _ => by rw [Node.isBacked, hp]; rfl⟩
  · exact kept_by_all (P := fun s => s.1.Dated) (fun _ _ => Releases.dated) hreleases hdated
  · exact dated_of_mount hmount hf hrelated hfounded hdated

/-- A node after a frame is one from before it but for its state. -/
theorem exists_node_of_carry {ts : List Timeline} {n' : Node} (h : (f.carry ts).nodes[i]? = some n') :
    ∃ n, f.nodes[i]? = some n ∧ n'.parent = n.parent ∧ n'.life = n.life ∧ n'.payload = n.payload := by
  obtain ⟨n, hn⟩ := Forest.exists_of_nodes_carry h
  obtain ⟨s, hs, -⟩ := Forest.exists_carry ts hn
  rw [h] at hs
  obtain rfl := Option.some.inj hs
  exact ⟨n, hn, rfl, rfl, rfl⟩

theorem founded_of_frame {passes : List Pass} {shaders : Registry} {a : Analysis}
    (h : (analyze passes f shaders).result = .ok (a, f')) (hf : f.Founded) : f'.Founded := by
  obtain ⟨-, -, -, rfl⟩ := analyze_ok_iff.1 h
  refine hf.mono fun i n' hn' => ?_
  obtain ⟨n, hn, hparent, -, hpayload⟩ := exists_node_of_carry hn'
  exact ⟨n, hn, hparent, hpayload⟩

/-- **Every frame keeps the dates right.** -/
theorem dated_of_frame {passes : List Pass} {shaders : Registry} {a : Analysis}
    (h : (analyze passes f shaders).result = .ok (a, f')) (hf : f.Dated) : f'.Dated := by
  obtain ⟨-, -, -, rfl⟩ := analyze_ok_iff.1 h
  refine hf.mono (f.hierarchy_carry _) (Nat.le_of_eq (f.life_carry _).symm) fun i n' hn' => ?_
  obtain ⟨n, hn, hparent, hlife, hpayload⟩ := exists_node_of_carry hn'
  refine ⟨n, hn, hparent, hlife, fun hb => ?_⟩
  rw [Node.isBacked, hpayload] at hb
  exact hb

end

end FrameGraph
