import FrameGraph.Proofs.Aliases
import FrameGraph.Proofs.Holdings
import FrameGraph.Proofs.Mounting
import FrameGraph.Proofs.Unfolding
import FrameGraph.Sample.Run

/-!
# Mounting several names

What mounting names one after the other comes to: the trees of all of them have their objects and
are dated after the start (`mountAll_trees`). It goes through where each name can be mounted
(`exists_mountAll`). So when all roots are mounted in a frame, the frame releases nothing
(`expired_of_mountAll`).
-/

set_option autoImplicit false

namespace FrameGraph

open Relation (ReflTransGen)

/-! ## Runs that may end -/

namespace Sample.RunM

variable {α β ε : Type}

theorem bind_ok_iff {x : RunM α} {k : α → RunM β} {b : β} :
    (x >>= k).run.result = .ok (.ok b) ↔
      ∃ a, x.run.result = .ok (.ok a) ∧ (k a).run.result = .ok (.ok b) := by
  show (x.run >>= fun r => ExceptT.bindCont k r).result = .ok (.ok b) ↔ _
  rw [Traced.result_bind, Except.bind_eq_ok_iff]
  constructor
  · rintro ⟨r, hx, hk⟩
    cases r with
    | ok a => exact ⟨a, hx, hk⟩
    | error e => cases hk
  · rintro ⟨a, hx, hk⟩
    exact ⟨.ok a, hx, hk⟩

theorem traced_ok_iff {x : Traced α} {a : α} :
    (RunM.traced x).run.result = .ok (.ok a) ↔ x.result = .ok a := by
  show (Except.ok <$> x).result = .ok (.ok a) ↔ _
  rw [Traced.result_map, Except.map_eq_ok_iff]
  constructor
  · rintro ⟨b, hx, hb⟩
    rw [hx, Except.ok.inj hb]
  · intro hx
    exact ⟨a, hx, rfl⟩

theorem report_ok (l : LogLine) : (RunM.report l).run.result = .ok (.ok ()) := rfl

/-- A step that may be left out, and goes through where it is not. -/
theorem ite_bind_ok_iff {p : Prop} [Decidable p] {x : RunM Unit} {y : RunM β} {b : β}
    (hx : x.run.result = .ok (.ok ())) :
    (if p then x >>= fun _ => y else y).run.result = .ok (.ok b) ↔ y.run.result = .ok (.ok b) := by
  split
  · rw [bind_ok_iff]
    exact ⟨fun ⟨_, _, hy⟩ => hy, fun hy => ⟨(), hx, hy⟩⟩
  · rfl

theorem orEnd_ok_iff {wrap : ε → RunError} {x : Except ε α} {a : α} :
    (RunM.orEnd wrap x).run.result = .ok (.ok a) ↔ x = .ok a := by
  show (.ok (x.mapError wrap) : Except Fault _) = .ok (.ok a) ↔ _
  cases x with
  | ok b => simp [Except.mapError]
  | error e => simp [Except.mapError]

end Sample.RunM

/-! ## Resources and their ledger -/

/-- What operations and frames keep of the resources and the device. -/
structure Accounted (f : Forest) (d : Headless) (spare : List (Handle .image)) : Prop where
  proper : f.Proper
  ledger : Ledger f d spare

namespace Accounted

variable {f f' : Forest} {d d' : Headless} {spare : List (Handle .image)}

theorem operate {o : Operation} (h : Accounted f d spare) (himages : o.images ⊆ spare)
    (ho : o.run f d = .ok (f', d')) : Accounted f' d' spare where
  proper := h.proper.operate ho
  ledger := h.ledger.operate himages (List.Subset.refl _) ho

theorem compile {graph : PassGraph} {shaders : Registry} {cache cache' : ObjectCache}
    {r : Except DeviceError Plan} (h : Accounted f d spare)
    (hc : (compileFrame graph f shaders cache d).result = .ok (r, f', cache', d')) :
    Accounted f' d' spare := by
  obtain ⟨⟨a, ha⟩, hd⟩ := compileFrame_ok hc
  exact ⟨h.proper.frame ha, h.ledger.frame ha hd⟩

end Accounted

/-! ## Mounting names in order -/

namespace Sample

variable {s s' : RunState} {names : List String} {name : String} {spare : List (Handle .image)}

theorem mountAll_nil_ok_iff : (mountAll [] s).run.result = .ok (.ok s') ↔ s' = s := by
  show (.ok (.ok s) : Except Fault (Except RunError RunState)) = .ok (.ok s') ↔ _
  simp [eq_comm]

theorem mountAll_concat_ok_iff : (mountAll (names ++ [name]) s).run.result = .ok (.ok s') ↔
    ∃ t f d, (mountAll names s).run.result = .ok (.ok t) ∧
      (t.forest.mount name t.device).result = .ok (.ok (), f, d) ∧
      s' = { t with forest := f, device := d } := by
  unfold mountAll
  rw [List.foldlM_append, RunM.bind_ok_iff]
  simp only [List.foldlM_cons, List.foldlM_nil, RunM.bind_ok_iff, RunM.traced_ok_iff,
    RunM.orEnd_ok_iff]
  constructor
  · rintro ⟨t, ht, u, ⟨⟨r, f, d⟩, hmount, ⟨⟩, hr, hu⟩, hs⟩
    obtain rfl := hr
    cases hu
    cases hs
    exact ⟨t, f, d, ht, hmount, rfl⟩
  · rintro ⟨t, f, d, ht, hmount, rfl⟩
    exact ⟨t, ht, _, ⟨_, hmount, (), rfl, rfl⟩, rfl⟩

/-- **Mounting keeps the books**, and changes neither the passes nor the cache. -/
theorem mountAll_keeps (h : (mountAll names s).run.result = .ok (.ok s'))
    (hs : Accounted s.forest s.device spare) : Accounted s'.forest s'.device spare ∧
      ReflTransGen Mounts (s.forest, s.device) (s'.forest, s'.device) ∧
      s'.forest.life = s.forest.life + names.length ∧ s'.graph = s.graph ∧ s'.cache = s.cache := by
  induction names using List.reverseRecOn generalizing s' with
  | nil =>
    obtain rfl := mountAll_nil_ok_iff.1 h
    exact ⟨hs, .refl, rfl, rfl, rfl⟩
  | append_singleton names name ih =>
    obtain ⟨t, f, d, ht, hmount, rfl⟩ := mountAll_concat_ok_iff.1 h
    obtain ⟨haccounted, hmounts, hlife, hgraph, hcache⟩ := ih ht
    have hrun : (Operation.mount name).run t.forest t.device = .ok (f, d) := by
      show (do return (← (t.forest.mount name t.device).result).2 : Except Fault _) = _
      rw [hmount]
      rfl
    obtain ⟨p, -, hnow, -⟩ := tree_of_mount hmount haccounted.proper.wellFormed
    refine ⟨haccounted.operate (List.nil_subset _) hrun, hmounts.tail ⟨name, hrun⟩, ?_, hgraph,
      hcache⟩
    rw [hnow, hlife, List.length_append, List.length_singleton]
    omega

/-- **Mounting names makes their trees**: every node of them has its object and is dated after the
start. -/
theorem mountAll_trees (h : (mountAll names s).run.result = .ok (.ok s'))
    (hs : Accounted s.forest s.device spare) {i : Nat} {n r : Node}
    (hn : s'.forest.nodes[i]? = some n) (hr : s'.forest.nodes[s'.forest.root i]? = some r)
    (hname : r.name ∈ names) : n.isBacked = true ∧ s.forest.life < n.life := by
  induction names using List.reverseRecOn generalizing s' n r with
  | nil => cases hname
  | append_singleton names name ih =>
    have hwf := (mountAll_keeps h hs).1.proper.wellFormed
    obtain ⟨t, f, d, ht, hmount, rfl⟩ := mountAll_concat_ok_iff.1 h
    obtain ⟨haccounted, -, hlife, -⟩ := mountAll_keeps ht hs
    have hproper := haccounted.proper
    obtain ⟨p, hp, -, hout, -, hroots⟩ := tree_of_mount hmount hproper.wellFormed
    by_cases htree : f.root i = t.forest.root p.index
    · obtain ⟨hbacked, hdate⟩ := (Forest.tree_backed_of_mount hproper.wellFormed hmount hp hn).1 htree
      exact ⟨hbacked, by omega⟩
    · -- the tree is not the one that was mounted last, so that its root has another name
      have hn' := hout i n hn htree
      have hroot : f.root i = t.forest.root i := hroots i n hn'
      have hr' : t.forest.nodes[f.root i]? = some r :=
        hout _ r hr (by rwa [Forest.root, Forest.root, Hierarchy.root_root hwf.ordered])
      refine ih ht hn' (hroot ▸ hr') ((List.mem_append.1 hname).resolve_right fun hlast => ?_)
      obtain rfl : r.name = name := List.mem_singleton.1 hlast
      obtain rfl := Except.ok.inj (hp.symm.trans (Forest.find_of_nodes hproper.wellFormed hr'))
      refine htree ?_
      rw [hroot]
      exact (Hierarchy.root_root hproper.wellFormed.ordered i).symm

/-- **A frame that mounts all roots releases nothing**: none of them has expired. -/
theorem expired_of_mountAll (h : (mountAll names s).run.result = .ok (.ok s'))
    (hs : Accounted s.forest s.device spare)
    (hnames : ∀ (i : Nat) n, s'.forest.nodes[i]? = some n → n.parent = none → n.name ∈ names)
    {f : Forest} (hf : ∀ (i : Nat) n', f.nodes[i]? = some n' → ∃ n, s'.forest.nodes[i]? = some n ∧
      n'.parent = n.parent ∧ n'.life = n.life) : f.expired (s.forest.life + 1) = [] := by
  refine Forest.expired_eq_nil fun i n' hn' hparent' => ?_
  obtain ⟨n, hn, hparent, hlife⟩ := hf i n' hn'
  have hroot : s'.forest.root i = i := Forest.root_of_top hn (hparent ▸ hparent')
  have hr : s'.forest.nodes[s'.forest.root i]? = some n := by rw [hroot, hn]
  rw [hlife]
  exact (mountAll_trees h hs hn hr (hnames i n hn (hparent ▸ hparent'))).2

end Sample

/-! ## Names that can be mounted -/

/-- What is left of a node without its object, its date and its state. -/
def Node.sketch (n : Node) : Node := n.outline.unused

namespace Forest

variable {f f' : Forest} {d : Headless} {name : String}

theorem sketch_of_outline (h : f'.nodes.map Node.outline = f.nodes.map Node.outline) :
    f'.nodes.map Node.sketch = f.nodes.map Node.sketch := by
  have hview (g : Forest) : g.nodes.map Node.sketch =
      (g.nodes.map Node.outline).map Node.unused := by
    rw [List.map_map]
    rfl
  rw [hview, hview, h]

/-- Whether the name is that of a root that can be made, and has its images if it is a
swapchain. -/
def Mountable (f : Forest) (name : String) : Prop :=
  ∃ (i : Nat) (n : Node), f.nodes[i]? = some n ∧ n.name = name ∧ n.parent = none ∧
    n.payload.Makeable ∧ (n.kind = .swapchain → ∃ j, j ∈ f.children i)

theorem Mountable.of_sketch (h : f'.nodes.map Node.sketch = f.nodes.map Node.sketch)
    (hm : f.Mountable name) : f'.Mountable name := by
  have hview (g : Forest) : g.hierarchy = (g.nodes.map Node.sketch).map (·.parent) := by
    rw [List.map_map]
    rfl
  obtain ⟨i, n, hn, hname, hparent, hmake, hunfolded⟩ := hm
  have hi := congrArg (·[i]?) h
  simp only [List.getElem?_map, hn, Option.map_some] at hi
  obtain ⟨n', hn', hout⟩ := Option.map_eq_some_iff.1 hi
  refine ⟨i, n', hn', (congrArg Node.name hout).trans hname,
    (congrArg Node.parent hout).trans hparent, ?_, fun hkind => ?_⟩
  · rw [← Payload.makeable_bare, show n'.payload.bare = n.payload.bare from
      congrArg Node.payload hout, Payload.makeable_bare]
    exact hmake
  · rw [children, hview, h, ← hview]
    exact hunfolded ((kind_of_bare (congrArg Node.payload hout)).symm.trans hkind)

theorem Proper.exists_mount_of_mountable (hf : f.Proper) (hm : f.Mountable name) (d : Headless) :
    ∃ f' d', (f.mount name d).result = .ok (.ok (), f', d') ∧
      f'.nodes.map Node.outline = f.nodes.map Node.outline := by
  obtain ⟨i, n, hn, rfl, hparent, hmake, hunfolded⟩ := hm
  have hp : f.find n.name = .ok ⟨i, n⟩ := find_of_nodes hf.wellFormed hn
  have htop : f.root i = i := root_of_top hn hparent
  have hg : (expandSwapchain { f with life := f.life + 1 } (f.root i)).result =
      .ok { f with life := f.life + 1 } := by
    rw [htop]
    refine expandSwapchain_of_unfolded fun m hm hkind => ?_
    obtain rfl := Option.some.inj (hn.symm.trans hm)
    obtain ⟨j, hj⟩ := hunfolded hkind
    exact List.ne_nil_of_mem hj
  obtain ⟨f', d', hmount⟩ := hf.exists_mount hp hg (fun m hm => by
    rw [htop] at hm
    obtain rfl := Option.some.inj (hn.symm.trans hm)
    exact hmake) d
  have hout := mount_outline hmount hp hg
  exact ⟨f', d', hmount, hout⟩

end Forest

/-- **All names that can be mounted are mounted** one after the other, and no nodes are added. -/
theorem Sample.exists_mountAll {s : RunState} {names : List String} {spare : List (Handle .image)}
    (hs : Accounted s.forest s.device spare) (h : ∀ name ∈ names, s.forest.Mountable name) :
    ∃ s', (mountAll names s).run.result = .ok (.ok s') ∧
      s'.forest.nodes.map Node.outline = s.forest.nodes.map Node.outline := by
  induction names using List.reverseRecOn with
  | nil => exact ⟨s, mountAll_nil_ok_iff.2 rfl, rfl⟩
  | append_singleton names name ih =>
    obtain ⟨t, ht, hout⟩ := ih fun m hm => h m (List.mem_append_left _ hm)
    have hname := (h name (by simp)).of_sketch (Forest.sketch_of_outline hout)
    obtain ⟨f', d', hmount, hout'⟩ :=
      (mountAll_keeps ht hs).1.proper.exists_mount_of_mountable hname t.device
    exact ⟨_, mountAll_concat_ok_iff.2 ⟨t, f', d', ht, hmount, rfl⟩, hout'.trans hout⟩

end FrameGraph
