import FrameGraph.Proofs.Recompiling
import FrameGraph.Proofs.WellBuilt

/-!
# What a mount achieves

A mount that goes through leaves the object of every node of its tree in place
(`tree_backed_of_mount`). On a proper forest it does go through where its root can be made
(`Proper.exists_mount`): a view is met after what it shows, and the headless device refuses nothing
but a root. Of a node a mount changes only the handle and the date (`mount_outline`).
-/

set_option autoImplicit false

namespace FrameGraph

open Relation (ReflTransGen)

/-- Below the top of a subtree, a parent stands before its children. -/
theorem Hierarchy.parent_before {h : Hierarchy} (ho : h.Ordered) {r i p : Nat} {pre post : List Nat}
    (hsplit : h.subtree r = pre ++ i :: post) (hp : h[i]? = some (some p)) (hne : i ≠ r) :
    p ∈ pre := by
  have hi : i ∈ h.subtree r := by simp [hsplit]
  have hmem : p ∈ h.subtree r := by
    obtain rfl | ⟨q, hrq, hqi⟩ := ((mem_subtree_iff ho).1 hi).cases_tail
    · exact absurd rfl hne
    · obtain rfl : p = q := by simpa [hp] using above_iff.1 hqi
      exact (mem_subtree_iff ho).2 hrq
  rw [hsplit, List.mem_append, List.mem_cons] at hmem
  rcases hmem with hmem | rfl | hmem
  · exact hmem
  · exact absurd (ho p p hp) (Nat.lt_irrefl p)
  · -- then the child would stand on both sides of its parent
    obtain ⟨xs, ys, rfl⟩ := List.append_of_mem hmem
    have hsplit' : h.subtreeTo h.length r = (pre ++ i :: xs) ++ p :: ys := by
      rw [List.append_assoc]
      exact hsplit
    have hafter : i ∈ ys := children_after ho (Nat.le_add_left _ _) hsplit' (mem_children.2 hp)
    have hnodup := nodup_subtree ho r
    rw [hsplit] at hnodup
    have hnot := (List.nodup_cons.1 (List.nodup_append.1 hnodup).2.1).1
    exact absurd (by simp [hafter]) hnot

/-! ## One node -/

section
variable {δ : Type} [Device δ]

omit [Device δ] in
theorem attach_backed {κ : ObjectKind} {put : Handle κ → Payload}
    (hput : ∀ x, (put x).isBacked = true) (call : DeviceCall δ (Handle κ)) (d : δ) :
    ∃ out d', (.ok (Payload.attach put call d) : Except Fault _) = .ok (out, d') ∧
      ∀ p', out = .ok p' → p'.isBacked = true := by
  refine ⟨_, _, rfl, fun p' hp' => ?_⟩
  obtain ⟨-, ⟨x, -, hx⟩ | ⟨e, -, he⟩⟩ :=
    Payload.attach_cases (Prod.eta (Payload.attach put call d)).symm
  · obtain rfl := Except.ok.inj (hp'.symm.trans hx)
    exact hput x
  · cases hp'.symm.trans he

/-- **Only a view without the object that it shows is a fault**, and what is made is there. -/
theorem realize_backs (name : String) (origin : Option Payload) (p : Payload) (d : δ) :
    ((∃ e, Payload.realize name origin p d = .error e) ∧ p.kind.isView = true ∧
      p.isBacked = false ∧ ∀ o, origin = some o → o.kind.holds p.kind = true → o.isBacked = false) ∨
    ∃ out d', Payload.realize name origin p d = .ok (out, d') ∧
      ∀ p', out = .ok p' → p'.isBacked = true := by
  by_cases hb : p.isBacked = true
  · exact .inr ⟨.ok p, d, realize_of_backed hb, fun p' hp' => Except.ok.inj hp' ▸ hb⟩
  · cases p with
    | buffer desc handle =>
      obtain rfl : handle = none := by simpa [Payload.isBacked] using hb
      exact .inr (attach_backed (fun _ => rfl) _ d)
    | image desc handle external =>
      obtain rfl : handle = none := by simpa [Payload.isBacked] using hb
      exact .inr (attach_backed (fun _ => rfl) _ d)
    | bufferView desc of handle =>
      obtain rfl : handle = none := by simpa [Payload.isBacked] using hb
      rcases origin with _ | ⟨shown, _ | x⟩ | _ | _ | _ | _
      case some.buffer.some => exact .inr (attach_backed (fun _ => rfl) _ d)
      all_goals exact .inl ⟨⟨_, rfl⟩, rfl, rfl, fun o ho hholds => by
        cases ho <;> first | rfl | cases hholds⟩
    | imageView desc of handle =>
      obtain rfl : handle = none := by simpa [Payload.isBacked] using hb
      rcases origin with _ | _ | _ | ⟨shown, _ | x, external⟩ | _ | _
      case some.image.some => exact .inr (attach_backed (fun _ => rfl) _ d)
      all_goals exact .inl ⟨⟨_, rfl⟩, rfl, rfl, fun o ho hholds => by
        cases ho <;> first | rfl | cases hholds⟩
    | swapchain source acquired => exact absurd rfl hb

end

/-- What a mount leaves as it is of a node: all but the handle and the date. -/
def Node.outline (n : Node) : Node := { n with payload := n.payload.bare, life := 0 }

namespace Forest

section
variable {δ : Type} [Device δ] {f f' g : Forest} {d d' : δ} {n n' : Node} {i j r : Nat}

theorem mountNode_backed (h : f.mountNode d i = .ok (.ok (), f', d'))
    (hn' : f'.nodes[i]? = some n') : n'.isBacked = true := by
  unfold mountNode at h
  split at h
  · next hnone =>
    cases h
    rw [hnone] at hn'
    cases hn'
  · next n hn =>
    obtain ⟨⟨out, c⟩, hrealize, h⟩ := Except.bind_eq_ok_iff.1 h
    cases out with
    | error e => cases h
    | ok payload =>
      cases h
      rw [modify_eq_put hn, nodes_put_self hn] at hn'
      obtain rfl := Option.some.inj hn'
      rcases realize_backs n.name ((n.parent.bind (f.nodes[·]?)).map (·.payload)) n.payload d with
        ⟨⟨e, he⟩, -⟩ | ⟨out, c', hout, hbacked⟩
      · cases he.symm.trans hrealize
      · obtain ⟨rfl, -⟩ := Prod.mk.inj (Except.ok.inj (hout.symm.trans hrealize))
        exact hbacked payload rfl

theorem mountNode_outline {r : Except DeviceError Unit}
    (h : f.mountNode d i = .ok (r, f', d')) :
    f'.nodes.map Node.outline = f.nodes.map Node.outline := by
  rcases mountNode_ok h with ⟨rfl, -⟩ | ⟨n, outcome, hn, hrealize, rfl⟩
  · rfl
  · refine map_nodes_put Node.outline hn ?_
    simp only [Node.outline, bare_of_realize hrealize]

/-! ## The nodes of a tree -/

theorem mountNodes_outline {is : List Nat} {r : Except DeviceError Unit}
    (h : f.mountNodes d is = .ok (r, f', d')) :
    f'.nodes.map Node.outline = f.nodes.map Node.outline := by
  induction is generalizing f d with
  | nil =>
    cases h
    rfl
  | cons i is ih =>
    obtain ⟨⟨out, g, c⟩, hg, h⟩ := Except.bind_eq_ok_iff.1 h
    cases out with
    | ok u => exact (ih h).trans (mountNode_outline hg)
    | error e =>
      cases h
      exact mountNode_outline hg

theorem mountNodes_backed {is : List Nat} (h : f.mountNodes d is = .ok (.ok (), f', d'))
    (hj : j ∈ is) (hn' : f'.nodes[j]? = some n') : n'.isBacked = true := by
  induction is generalizing f d with
  | nil => cases hj
  | cons i is ih =>
    obtain ⟨⟨out, g, c⟩, hg, h⟩ := Except.bind_eq_ok_iff.1 h
    cases out with
    | error e => cases h
    | ok u =>
      by_cases hrest : j ∈ is
      · exact ih h hrest
      · obtain ⟨m, hm, hsame⟩ := (mountNodes_node h).2 j n' hn'
        rw [hsame hrest]
        obtain rfl := (List.mem_cons.1 hj).resolve_right hrest
        exact mountNode_backed hg hm

/-- A node after a change that keeps the outlines is one from before it. -/
theorem exists_node_of_outline (h : f'.nodes.map Node.outline = f.nodes.map Node.outline)
    (hn' : f'.nodes[i]? = some n') :
    ∃ n, f.nodes[i]? = some n ∧ n'.outline = n.outline := by
  have hi := congrArg (·[i]?) h
  simp only [List.getElem?_map, hn', Option.map_some] at hi
  obtain ⟨n, hn, hout⟩ := Option.map_eq_some_iff.1 hi.symm
  exact ⟨n, hn, hout.symm⟩

theorem exists_mountNode (hrelated : f.Related) (hshown : ∀ n j, f.nodes[i]? = some n →
      n.kind.isView = true → n.parent = some j → ∃ p, f.nodes[j]? = some p ∧ p.isBacked = true)
    (d : δ) : ∃ s, f.mountNode d i = .ok s := by
  unfold mountNode
  split
  · exact ⟨_, rfl⟩
  · next n hn =>
    rcases realize_backs n.name ((n.parent.bind (f.nodes[·]?)).map (·.payload)) n.payload d with
      ⟨-, hview, -, hunbacked⟩ | ⟨out, c, hout, -⟩
    · obtain ⟨j, p, hparent, hp, -⟩ := (hrelated i n hn).seat.exists_shown hview
      obtain ⟨q, hq, hb⟩ := hshown n j hn hview hparent
      have hholds := (hrelated i n hn).seat.holds_of_parent hparent hq
      have horigin : (n.parent.bind (f.nodes[·]?)).map (·.payload) = some q.payload := by
        rw [hparent, Option.bind_some, hq, Option.map_some]
      exact Bool.noConfusion (hb.symm.trans (hunbacked q.payload horigin hholds))
    · simp only [hout]
      cases out <;> exact ⟨_, rfl⟩

/-- Nodes can be mounted one after the other, without a fault, if what a view shows is there when
its turn comes. -/
theorem exists_mountNodes {is : List Nat} (hrelated : f.Related)
    (horder : ∀ pre i post, is = pre ++ i :: post → ∀ n j, f.nodes[i]? = some n →
      n.kind.isView = true → n.parent = some j →
      j ∈ pre ∨ ∃ p, f.nodes[j]? = some p ∧ p.isBacked = true) (d : δ) :
    ∃ s, f.mountNodes d is = .ok s := by
  induction is generalizing f d with
  | nil => exact ⟨_, rfl⟩
  | cons i is ih =>
    obtain ⟨⟨out, g, c⟩, hg⟩ := exists_mountNode hrelated (fun n j hn hview hparent =>
      (horder [] i is rfl n j hn hview hparent).resolve_left List.not_mem_nil) d
    cases out with
    | error e => exact ⟨(.error e, g, c), Except.bind_eq_ok_iff.2 ⟨_, hg, rfl⟩⟩
    | ok u =>
      have hlater : ∀ pre k post, is = pre ++ k :: post → ∀ n' j, g.nodes[k]? = some n' →
          n'.kind.isView = true → n'.parent = some j →
          j ∈ pre ∨ ∃ p, g.nodes[j]? = some p ∧ p.isBacked = true := by
        intro pre k post hsplit n' j hn' hview hparent
        obtain ⟨n, hn, hout⟩ := exists_node_of_outline (mountNode_outline hg) hn'
        have hkind : n.kind = n'.kind := kind_of_bare (congrArg Node.payload hout).symm
        have hup : n.parent = n'.parent := (congrArg Node.parent hout).symm
        rcases horder (i :: pre) k post (by rw [hsplit, List.cons_append]) n j hn
          (by rw [hkind, hview]) (hup.trans hparent) with hmem | ⟨p, hp, hb⟩
        · rcases List.mem_cons.1 hmem with rfl | hmem
          · -- what the view shows has just been made
            obtain ⟨l, q, hl, hq, -⟩ :=
              (Grows.related (.mountNode hg) hrelated k n' hn').seat.exists_shown hview
            obtain rfl := Option.some.inj (hparent.symm.trans hl)
            exact .inr ⟨q, hq, mountNode_backed hg hq⟩
          · exact .inl hmem
        · obtain ⟨q, hq, hr⟩ := mountNode_retains hg j p hp
          exact .inr ⟨q, hq, hr.isBacked hb⟩
      obtain ⟨s, hs⟩ := ih (Grows.related (.mountNode hg) hrelated) hlater c
      exact ⟨s, Except.bind_eq_ok_iff.2 ⟨_, hg, hs⟩⟩

/-- **The nodes of an unfolded tree can be mounted** without a fault: the root shows nothing, and
all other nodes come after their parents. -/
theorem Expands.exists_mountNodes (h : f.Expands r g) (hrelated : g.Related) (d : δ) :
    ∃ s, g.mountNodes d (g.subtree r) = .ok s := by
  refine Forest.exists_mountNodes hrelated (fun pre i post hsplit m j hm _ hup => .inl ?_) d
  refine Hierarchy.parent_before h.wellFormed.ordered hsplit ?_ ?_
  · rw [← hup]
    exact hierarchy_of_nodes hm
  · rintro rfl
    obtain ⟨n, hn, hparent⟩ := h.top
    rw [h.kept i n hn] at hm
    obtain rfl := Option.some.inj hm
    cases hparent.symm.trans hup

/-! ## Mounting a name -/

theorem mount_outline {name : String} {p : Place} {r : Except DeviceError Unit}
    (h : (f.mount name d).result = .ok (r, f', d')) (hp : f.find name = .ok p)
    (hg : (expandSwapchain { f with life := f.life + 1 } (f.root p.index)).result = .ok g) :
    f'.nodes.map Node.outline = g.nodes.map Node.outline := by
  obtain ⟨q, g', hq, hg', h⟩ := mount_ok h
  obtain rfl := Except.ok.inj (hp.symm.trans hq)
  obtain rfl := Except.ok.inj (hg.symm.trans hg')
  exact mountNodes_outline h

/-- **A mount that goes through makes the whole tree**: every node of it has its object, and is
dated. The other nodes stay as they are. -/
theorem tree_backed_of_mount {name : String} {p : Place} (hf : f.WellFormed)
    (h : (f.mount name d).result = .ok (.ok (), f', d')) (hp : f.find name = .ok p)
    (hn' : f'.nodes[j]? = some n') :
    (f'.root j = f.root p.index → n'.isBacked = true ∧ n'.life = f.life + 1) ∧
    (f'.root j ≠ f.root p.index → f.nodes[j]? = some n') := by
  obtain ⟨q, hq, hlife, hout, hin, -⟩ := tree_of_mount h hf
  obtain rfl := Except.ok.inj (hp.symm.trans hq)
  refine ⟨fun hj => ⟨?_, (hin j n' hn' hj).trans hlife⟩, hout j n' hn'⟩
  obtain ⟨q, g, hq, hg, hnodes⟩ := mount_ok h
  obtain rfl := Except.ok.inj (hp.symm.trans hq)
  have hroot : f'.root j = g.root j := congrArg (Hierarchy.root · j) (mountNodes_hierarchy hnodes)
  have hmem := (expands_of_find hf hp hg).mem_subtree_iff.2 (hroot.symm.trans hj)
  exact mountNodes_backed hnodes hmem hn'

end

section
variable {f g : Forest}

/-- **A mount of a registered name goes through** if the swapchain unfolds and the root can be
made. -/
theorem Proper.exists_mount {name : String} {p : Place} (hf : f.Proper)
    (hp : f.find name = .ok p)
    (hg : (expandSwapchain { f with life := f.life + 1 } (f.root p.index)).result = .ok g)
    (hmake : ∀ n, g.nodes[f.root p.index]? = some n → n.payload.Makeable) (d : Headless) :
    ∃ f' d', (f.mount name d).result = .ok (.ok (), f', d') := by
  have hgrows : ReflTransGen Grows (f, d) (g, d) := .head (.clock f d) (expandSwapchain_grows hg)
  have hgfounded := (founded_of_growsAll hgrows hf.wellFormed hf.founded).2
  have hgrelated := related_of_growsAll hgrows hf.related
  have hexpands := expands_of_find hf.wellFormed hp hg
  rw [mount_of_expanded hp hg]
  obtain ⟨⟨out, f', d'⟩, hmount⟩ := hexpands.exists_mountNodes hgrelated d
  cases out with
  | ok u => exact ⟨f', d', hmount⟩
  | error e =>
    have hrefused := mountNodes_subtree_refused hexpands.wellFormed hgrelated hgfounded
      hexpands.root_self hmount
    obtain ⟨m, hm, -, -, -, hnot⟩ := mountNode_refused hrefused hgrelated hgfounded
    exact absurd (hmake m hm) hnot

end

end Forest

end FrameGraph
