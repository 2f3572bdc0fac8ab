import FrameGraph.Proofs.Frames
import FrameGraph.Proofs.Hierarchies
import FrameGraph.Proofs.Operations

/-!
# Well-formed forests

In a well-formed forest no name is taken twice and every parent stands before its children. The
empty forest is well-formed, and operations and frames keep it so (`Operation.wellFormed`,
`wellFormed_of_frame`); every forest of a run is well-formed.
-/

set_option autoImplicit false

namespace FrameGraph

/-- Whether names tell nodes apart and parents stand before their children. -/
structure Forest.WellFormed (f : Forest) : Prop where
  names : f.names.Nodup
  ordered : f.hierarchy.Ordered

instance (f : Forest) : Decidable f.WellFormed :=
  decidable_of_iff (f.names.Nodup ∧ f.hierarchy.Ordered)
    ⟨fun ⟨hnames, hordered⟩ => ⟨hnames, hordered⟩, fun hf => ⟨hf.names, hf.ordered⟩⟩

open Relation (ReflTransGen)

namespace Forest

variable {f : Forest} {n m : Node} {i j : Nat}

theorem hierarchy_push : (f.push n).hierarchy = f.hierarchy ++ [n.parent] := List.map_append

theorem names_push : (f.push n).names = f.names ++ [n.name] := List.map_append

theorem length_hierarchy : f.hierarchy.length = f.size := List.length_map _

theorem hierarchy_of_nodes (h : f.nodes[i]? = some n) : f.hierarchy[i]? = some n.parent := by
  simp [hierarchy, h]

theorem mem_children_iff : j ∈ f.children i ↔ ∃ n, f.nodes[j]? = some n ∧ n.parent = some i := by
  rw [children, Hierarchy.mem_children, hierarchy, List.getElem?_map, Option.map_eq_some_iff]

/-- A name stands for one node. -/
theorem WellFormed.index_unique (hf : f.WellFormed) (hn : f.nodes[i]? = some n)
    (hm : f.nodes[j]? = some m) (hname : n.name = m.name) : i = j := by
  have hi : f.names[i]? = some m.name := by simp [Forest.names, hn, hname]
  have hj : f.names[j]? = some m.name := by simp [Forest.names, hm]
  obtain ⟨hlt, hget⟩ := List.getElem?_eq_some_iff.1 hi
  exact (List.getElem?_inj hlt hf.names).1 (hi.trans hj.symm)

/-- A name finds the node that has it. -/
theorem WellFormed.find?_name (hf : f.WellFormed) (hn : f.nodes[i]? = some n) :
    f.find? n.name = some ⟨i, n⟩ := by
  have hname : n.name ∈ f.names := List.mem_map.2 ⟨n, List.mem_of_getElem? hn, rfl⟩
  obtain ⟨⟨j, m⟩, hp⟩ := Option.isSome_iff_exists.1 (contains_of_mem_names hname)
  have hfind : f.find n.name = .ok ⟨j, m⟩ := by rw [find, hp]
  obtain ⟨hm, hmname⟩ := nodes_of_find hfind
  obtain rfl := hf.index_unique hm hn hmname
  rw [hm] at hn
  obtain rfl := Option.some.inj hn
  exact hp

/-- The parent of a node is another node. -/
theorem WellFormed.exists_parent (hf : f.WellFormed) (hn : f.nodes[i]? = some n)
    (hparent : n.parent = some j) : ∃ p, f.nodes[j]? = some p := by
  have hlt : j < i := hf.ordered i j (by rw [hierarchy_of_nodes hn, hparent])
  obtain ⟨hi, -⟩ := List.getElem?_eq_some_iff.1 hn
  exact ⟨_, List.getElem?_eq_getElem (Nat.lt_trans hlt hi)⟩

theorem WellFormed.empty : WellFormed {} where
  names := List.nodup_nil
  ordered i p h := by simp [hierarchy] at h

theorem WellFormed.push (hf : f.WellFormed) (hname : n.name ∉ f.names)
    (hparent : ∀ j, n.parent = some j → ∃ p, f.nodes[j]? = some p) : (f.push n).WellFormed where
  names := by
    rw [names_push, List.nodup_append]
    refine ⟨hf.names, by simp, fun a ha b hb => ?_⟩
    obtain rfl := List.mem_singleton.1 hb
    rintro rfl
    exact hname ha
  ordered := by
    rw [hierarchy_push]
    refine hf.ordered.concat fun j hj => ?_
    obtain ⟨p, hp⟩ := hparent j hj
    obtain ⟨hlt, -⟩ := List.getElem?_eq_some_iff.1 hp
    rw [length_hierarchy]
    exact hlt

theorem WellFormed.put (hf : f.WellFormed) (hn : f.nodes[i]? = some n) (hname : m.name = n.name)
    (hparent : m.parent = n.parent) : (f.put i m).WellFormed where
  names := by
    rw [Forest.names, map_nodes_put _ hn hname]
    exact hf.names
  ordered := by
    rw [hierarchy_put hn hparent]
    exact hf.ordered

end Forest

/-! ## Operations -/

section
variable {δ : Type} [Device δ] {f f' : Forest} {d d' : δ}

theorem Grows.wellFormed {s s' : Forest × δ} (h : Grows s s') (hs : s.1.WellFormed) :
    s'.1.WellFormed := by
  cases h with
  | clock f d => exact ⟨hs.names, hs.ordered⟩
  | register d h =>
    refine hs.push h.fresh fun j hj => ?_
    obtain ⟨p, hp, -⟩ := h.parent j hj
    exact ⟨p, hp⟩
  | unfold d h =>
    refine hs.push h.fresh fun j hj => ?_
    obtain ⟨p, _, _, hp, -⟩ := h.source
    rw [h.parent] at hj
    obtain rfl := Option.some.inj hj
    exact ⟨p, hp⟩
  | acquire d index hn hp => exact hs.put hn rfl rfl
  | mountNode h =>
    rcases mountNode_ok h with ⟨rfl, rfl⟩ | ⟨m, outcome, hm, -, rfl⟩
    · exact hs
    · exact hs.put hm rfl rfl

theorem Releases.wellFormed {s s' : Forest × δ} (h : Releases s s') (hs : s.1.WellFormed) :
    s'.1.WellFormed := by
  obtain ⟨h⟩ := h
  rcases releaseNode_ok h with ⟨rfl, rfl⟩ | ⟨m, payload, hm, -, rfl⟩
  · exact hs
  · exact hs.put hm rfl rfl

theorem wellFormed_of_growsAll (h : ReflTransGen Grows (f, d) (f', d')) (hf : f.WellFormed) :
    f'.WellFormed :=
  kept_by_all (P := fun s => s.1.WellFormed) (fun _ _ => Grows.wellFormed) h hf

/-- **Every operation keeps a forest well-formed.** -/
theorem Operation.wellFormed {o : Operation} (h : o.run f d = .ok (f', d'))
    (hf : f.WellFormed) : f'.WellFormed := by
  rcases o.run_cases h with ⟨-, hgrows⟩ | ⟨-, hreleases⟩ | ⟨name, source, -, hfresh, rfl, -⟩
  · exact wellFormed_of_growsAll hgrows hf
  · exact kept_by_all (P := fun s => s.1.WellFormed) (fun _ _ => Releases.wellFormed) hreleases hf
  · exact hf.push hfresh (by simp [Node.ofSwapchain])

end

/-! ## Frames -/

/-- **Every frame keeps a forest well-formed.** -/
theorem wellFormed_of_frame {passes : List Pass} {f f' : Forest} {shaders : Registry}
    {a : Analysis} (h : (analyze passes f shaders).result = .ok (a, f')) (hf : f.WellFormed) :
    f'.WellFormed := by
  obtain ⟨-, -, -, rfl⟩ := analyze_ok_iff.1 h
  refine ⟨?_, ?_⟩
  · rw [Forest.names, Forest.map_nodes_carry fun _ _ => rfl]
    exact hf.names
  · rw [Forest.hierarchy_carry]
    exact hf.ordered

end FrameGraph
