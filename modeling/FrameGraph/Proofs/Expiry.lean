import FrameGraph.Proofs.Aliases
import FrameGraph.Proofs.Histories
import FrameGraph.Proofs.Holdings
import Mathlib.Data.Set.Card

/-!
# Releasing what has expired

A release of what has expired looks for the trees that hold objects before it releases any, while a
release of a single tree looks at one date. Both come to the same (`unmountExpired_eq`): a tree
without objects is as it was after its release (`Forest.releaseSubtree_of_unowned`), and no release
gives objects to another tree (`ownsObjects_of_releasesAll`). And neither takes the object of a node
that was mounted in time, since no node is younger than what it hangs below (`Forest.Dated.life_le`).

All of this holds of every forest with a history on the headless device (`Forest.ExpiresAlike`,
`expires_alike`).
-/

set_option autoImplicit false

namespace FrameGraph

open Relation (ReflTransGen)

theorem Payload.isBacked_of_isOwned {p : Payload} (h : p.isOwned = true) : p.isBacked = true := by
  cases p with
  | image desc handle external => exact (Bool.and_eq_true_iff.1 h).1
  | swapchain source acquired => rfl
  | _ => exact h

theorem Payload.exists_owned {p : Payload} (h : p.isOwned = true) : ∃ x, p.owned? = some x := by
  cases p with
  | image desc handle external =>
    obtain ⟨hsome, hinside⟩ := Bool.and_eq_true_iff.1 h
    obtain ⟨x, rfl⟩ := Option.isSome_iff_exists.1 hsome
    obtain rfl : external = false := by simpa using hinside
    exact ⟨_, rfl⟩
  | swapchain source acquired => cases h
  | _ =>
    obtain ⟨x, rfl⟩ := Option.isSome_iff_exists.1 h
    exact ⟨_, rfl⟩

/-- What forgets its state is owned if it is there. -/
theorem Payload.isBacked_of_forgetsState {p : Payload} (h : p.forgetsState = true) :
    p.isBacked = p.isOwned := by
  cases p with
  | buffer desc handle => rfl
  | image desc handle external =>
    obtain rfl : external = false := by simpa [forgetsState] using h
    simp [isBacked, isOwned]
  | _ => cases h

/-- Whether a node is the same as before, but for an object that it may have lost. -/
structure Node.Sheds (n n' : Node) : Prop where
  name : n'.name = n.name
  life : n'.life = n.life
  owned : n'.payload.isOwned = true → n.payload.isOwned = true

theorem Node.Sheds.refl (n : Node) : n.Sheds n := ⟨rfl, rfl, id⟩

theorem Node.Sheds.trans {l m n : Node} (hlm : l.Sheds m) (hmn : m.Sheds n) : l.Sheds n where
  name := hmn.name.trans hlm.name
  life := hmn.life.trans hlm.life
  owned h := hlm.owned (hmn.owned h)

section
variable {f f' g : Forest} {d d' : Headless} {s s' : Forest × Headless} {n : Node}
  {i j life : Nat}

/-! ## What releases leave -/

theorem Releases.exists_sheds (h : Releases s s') (hn : s.1.nodes[i]? = some n) :
    ∃ n', s'.1.nodes[i]? = some n' ∧ n.Sheds n' := by
  obtain ⟨h⟩ := h
  rcases releaseNode_ok h with ⟨rfl, -⟩ | ⟨m, payload, hm, hrelease, rfl⟩
  · exact ⟨n, hn, .refl n⟩
  · obtain ⟨n', hn', rfl | ⟨rfl, rfl⟩⟩ := Forest.exists_node_put _ hm hn
    · exact ⟨n', hn', .refl n'⟩
    · refine ⟨_, hn', rfl, rfl, fun howned => ?_⟩
      rcases release_same_or_unbacked hrelease with rfl | ⟨hunbacked, -⟩
      · exact howned
      · cases (Payload.isBacked_of_isOwned howned).symm.trans hunbacked

theorem exists_sheds_of_releasesAll (h : ReflTransGen Releases s s')
    (hn : s.1.nodes[i]? = some n) : ∃ n', s'.1.nodes[i]? = some n' ∧ n.Sheds n' := by
  induction h with
  | refl => exact ⟨n, hn, .refl n⟩
  | tail _ hstep ih =>
    obtain ⟨n', hn', hsheds⟩ := ih
    obtain ⟨n'', hn'', hsheds'⟩ := hstep.exists_sheds hn'
    exact ⟨n'', hn'', hsheds.trans hsheds'⟩

namespace Forest

theorem ownsObjects_eq_false_iff : f.ownsObjects i = false ↔
    ∀ j ∈ f.subtree i, ∀ n, f.nodes[j]? = some n → n.payload.isOwned = false := by
  rw [ownsObjects, List.any_eq_false]
  refine forall₂_congr fun j _ => ?_
  cases hn : f.nodes[j]? with
  | none => simp
  | some n => simp

theorem ownsObjects_iff (hf : f.WellFormed) (hn : f.nodes[i]? = some n)
    (hparent : n.parent = none) :
    f.ownsObjects i = true ↔ ∃ j x, f.root j = i ∧ f.Owns j x := by
  have htop : ∀ p, f.hierarchy[i]? ≠ some (some p) := by
    intro p
    rw [hierarchy_of_nodes hn, hparent]
    simp
  rw [ownsObjects, List.any_eq_true]
  constructor
  · rintro ⟨j, hj, howned⟩
    obtain ⟨m, hm, howned⟩ := (Option.any_eq_true _ _).1 howned
    obtain ⟨x, hx⟩ := Payload.exists_owned howned
    exact ⟨j, x, (Hierarchy.mem_subtree_root_iff hf.ordered htop).1 hj, m, hm, hx⟩
  · rintro ⟨j, x, hj, m, hm, hx⟩
    refine ⟨j, (Hierarchy.mem_subtree_root_iff hf.ordered htop).2 hj, ?_⟩
    rw [hm]
    exact Payload.isOwned_of_owned hx

end Forest

/-- A tree that holds no objects gets none while others are released. -/
theorem ownsObjects_of_releasesAll (h : ReflTransGen Releases s s')
    (hnone : s.1.ownsObjects i = false) : s'.1.ownsObjects i = false := by
  rw [Forest.ownsObjects_eq_false_iff] at hnone ⊢
  have hsame : s'.1.hierarchy = s.1.hierarchy := hierarchy_of_releasesAll h
  intro j hj n' hn'
  rw [Forest.subtree, hsame] at hj
  obtain ⟨n, hn⟩ := Forest.exists_node_of_hierarchy hsame hn'
  obtain ⟨m, hm, hsheds⟩ := exists_sheds_of_releasesAll h hn
  obtain rfl := Option.some.inj (hn'.symm.trans hm)
  by_contra howned
  rw [Bool.not_eq_false] at howned
  exact Bool.noConfusion ((hsheds.owned howned).symm.trans (hnone j hj n hn))

/-! ## Trees without objects -/

namespace Forest

theorem releaseNode_of_unowned (hf : f.CarriesFit)
    (h : ∀ n, f.nodes[i]? = some n → n.payload.isOwned = false) (d : Headless) :
    f.releaseNode d i = .ok (f, d) := by
  unfold releaseNode
  split
  · rfl
  · next n hn =>
    have hcurrent : (if n.payload.forgetsState then .undefined else n.current) = n.current := by
      split
      · next hforgets =>
        -- a node that would forget its state has none, as it has no object
        refine ((hf i n hn).unbacked ?_).symm
        exact (Payload.isBacked_of_forgetsState hforgets).trans (h n hn)
      · rfl
    obtain ⟨hlt, hget⟩ := List.getElem?_eq_some_iff.1 hn
    have hput : f.put i n = f := by
      rw [put, ← hget, List.set_getElem_self]
    simp only [Payload.release_of_unowned (h n hn), hcurrent]
    refine congrArg (fun f => (.ok (f, d) : Except Fault _)) ?_
    rw [modify_eq_put hn]
    exact hput

theorem releaseNodes_of_unowned {js : List Nat} (hf : f.CarriesFit)
    (h : ∀ j ∈ js, ∀ n, f.nodes[j]? = some n → n.payload.isOwned = false) (d : Headless) :
    releaseNodes (f, d) js = .ok (f, d) := by
  induction js with
  | nil => rfl
  | cons j js ih =>
    obtain ⟨hj, hjs⟩ := List.forall_mem_cons.1 h
    refine Except.bind_eq_ok_iff.2 ⟨(f, d), releaseNode_of_unowned hf hj d, ih hjs⟩

/-- **A tree without objects is as it was after its release.** -/
theorem releaseSubtree_of_unowned (hf : f.CarriesFit) (h : f.ownsObjects i = false)
    (d : Headless) : f.releaseSubtree d i = .ok (f, d) :=
  releaseNodes_of_unowned hf
    (fun j hj => ownsObjects_eq_false_iff.1 h j (List.mem_reverse.1 hj)) d

/-! ## One tree after the other -/

/-- The roots, in order of registration. -/
def roots (f : Forest) : List Place :=
  ((List.range f.size).filterMap f.place?).filter (·.node.isRoot)

/-- Releases what hangs below each root that was last mounted before `life`, one root after the
other. -/
def unmountRoots (f : Forest) (life : Nat) (device : Headless) : Except Fault (Forest × Headless) :=
  f.roots.foldlM (fun s p => (s.1.unmount p.node.name life s.2).map (·.2)) (f, device)

theorem nodes_of_mem_roots {p : Place} (h : p ∈ f.roots) : f.nodes[p.index]? = some p.node := by
  obtain ⟨i, -, hp⟩ := List.mem_filterMap.1 (List.mem_filter.1 h).1
  obtain ⟨rfl, hn⟩ := place?_eq_some_iff.1 hp
  exact hn

/-- What has expired are the roots with an old date and an object in their trees. -/
theorem expired_eq (f : Forest) (life : Nat) : f.expired life =
    (f.roots.filter fun p => p.node.life < life && f.ownsObjects p.index).map (·.index) := by
  rw [expired, ← List.filterMap_eq_filter, roots, List.filter_filter, List.filter_filterMap,
    List.map_filterMap]
  refine List.filterMap_congr fun i hi => ?_
  have hlt : i < f.nodes.length := List.mem_range.1 hi
  simp only [place?, List.getElem?_eq_getElem hlt, Option.map_some, Option.any_some,
    Option.guard, Option.filter_some]
  cases hroot : (f.nodes[i]).isRoot <;> cases hold : decide ((f.nodes[i]).life < life) <;>
    cases howns : f.ownsObjects i <;> rfl

end Forest

/-- Roots that are released one by one lose what the release of the expired ones among them takes,
and stop with the same fault. -/
theorem foldlM_unmount_eq {places : List Place} (hf : f.WellFormed) (hfit : f.CarriesFit)
    (hall : ∀ p ∈ places, f.nodes[p.index]? = some p.node) (hs : ReflTransGen Releases (f, d) s) :
    places.foldlM (fun s p => (s.1.unmount p.node.name life s.2).map (·.2)) s =
      ((places.filter fun p => p.node.life < life && f.ownsObjects p.index).map (·.index)).foldlM
        (fun s i => s.1.releaseSubtree s.2 i) s := by
  induction places generalizing s with
  | nil => rfl
  | cons p places ih =>
    obtain ⟨hp, hplaces⟩ := List.forall_mem_cons.1 hall
    have hwf : s.1.WellFormed :=
      kept_by_all (P := fun s => s.1.WellFormed) (fun _ _ => Releases.wellFormed) hs hf
    have hfit' : s.1.CarriesFit :=
      kept_by_all (P := fun s => s.1.CarriesFit) (fun _ _ => Releases.carriesFit) hs hfit
    obtain ⟨n, hn, hsheds⟩ := exists_sheds_of_releasesAll hs hp
    have hfind : s.1.find p.node.name = .ok ⟨p.index, n⟩ := by
      rw [← hsheds.name]
      exact Forest.find_of_nodes hwf hn
    have hunmount : (s.1.unmount p.node.name life s.2).map (·.2) =
        if life ≤ p.node.life then .ok s else s.1.releaseSubtree s.2 p.index := by
      unfold Forest.unmount
      rw [hfind]
      show (ite (life ≤ n.life) _ _ : Except Fault (Bool × Forest × Headless)).map (·.2) = _
      rw [hsheds.life]
      split
      · rfl
      · cases s.1.releaseSubtree s.2 p.index with
        | error e => rfl
        | ok t => rfl
    rw [List.foldlM_cons, hunmount]
    by_cases hold : life ≤ p.node.life
    · rw [if_pos hold, List.filter_cons_of_neg (by simp; omega)]
      exact ih hplaces hs
    · rw [if_neg hold]
      by_cases howns : f.ownsObjects p.index = true
      · rw [List.filter_cons_of_pos (by simp [howns]; omega), List.map_cons, List.foldlM_cons]
        cases hrelease : s.1.releaseSubtree s.2 p.index with
        | error e => rfl
        | ok t => exact ih hplaces (hs.trans (releaseSubtree_releases hrelease))
      · rw [Bool.not_eq_true] at howns
        rw [List.filter_cons_of_neg (by simp [howns]),
          Forest.releaseSubtree_of_unowned hfit' (ownsObjects_of_releasesAll hs howns)]
        exact ih hplaces hs

/-- **A release of what has expired comes to a release of every root**, faults included. -/
theorem unmountExpired_eq (hf : f.WellFormed) (hfit : f.CarriesFit) (life : Nat) (d : Headless) :
    (f.unmountExpired life d).map (·.2) = f.unmountRoots life d := by
  rw [Forest.unmountRoots, foldlM_unmount_eq hf hfit (fun p => Forest.nodes_of_mem_roots) .refl,
    ← Forest.expired_eq]
  unfold Forest.unmountExpired
  show ((List.foldlM _ _ (f.expired life) >>= _ : Except Fault _).map _) = _
  cases (f.expired life).foldlM
    (fun (s : Forest × Headless) i => s.1.releaseSubtree s.2 i) (f, d) with
  | error e => rfl
  | ok t => rfl

/-! ## What is spared -/

/-- **No node is younger than a node above it.** -/
theorem Forest.Dated.life_le (h : f.Dated) (hf : f.WellFormed) {m : Node}
    (hn : f.nodes[i]? = some n) (hm : f.nodes[j]? = some m) (hj : j ∈ f.subtree i) :
    m.life ≤ n.life := by
  have hbelow : ReflTransGen f.hierarchy.Above i j := (Hierarchy.mem_subtree_iff hf.ordered).1 hj
  clear hj
  induction hbelow generalizing m with
  | refl =>
    obtain rfl := Option.some.inj (hn.symm.trans hm)
    exact Nat.le_refl _
  | @tail k j hik hkj ih =>
    obtain ⟨c, hc, hparent⟩ := Forest.mem_children_iff.1 hkj
    obtain rfl := Option.some.inj (hm.symm.trans hc)
    obtain ⟨p, hp⟩ := hf.exists_parent hm hparent
    exact Nat.le_trans ((h j m hm).parent k p hparent hp) (ih hp)

theorem nodes_of_releaseNodes {js : List Nat}
    (h : js.foldlM (fun s j => s.1.releaseNode s.2 j) s = .ok s') (hi : i ∉ js) :
    s'.1.nodes[i]? = s.1.nodes[i]? := by
  induction js generalizing s with
  | nil =>
    cases h
    rfl
  | cons j js ih =>
    rw [List.foldlM_cons] at h
    obtain ⟨t, hstep, h⟩ := Except.bind_eq_ok_iff.1 h
    rw [ih h (List.not_mem_of_not_mem_cons hi)]
    rcases releaseNode_ok hstep with ⟨hsame, -⟩ | ⟨m, payload, hm, -, hput⟩
    · rw [hsame]
    · rw [hput, Forest.nodes_put_ne (List.ne_of_not_mem_cons hi).symm]

/-- A release of a tree leaves all other nodes as they are. -/
theorem nodes_of_releaseSubtree (h : f.releaseSubtree d j = .ok (f', d')) (hi : i ∉ f.subtree j) :
    f'.nodes[i]? = f.nodes[i]? :=
  nodes_of_releaseNodes h fun hmem => hi (List.mem_reverse.1 hmem)

theorem nodes_of_releaseSubtrees {is : List Nat}
    (h : is.foldlM (fun s i => s.1.releaseSubtree s.2 i) s = .ok s')
    (hj : ∀ i ∈ is, j ∉ s.1.subtree i) : s'.1.nodes[j]? = s.1.nodes[j]? := by
  induction is generalizing s with
  | nil =>
    cases h
    rfl
  | cons i is ih =>
    rw [List.foldlM_cons] at h
    obtain ⟨t, hstep, h⟩ := Except.bind_eq_ok_iff.1 h
    obtain ⟨hfirst, hrest⟩ := List.forall_mem_cons.1 hj
    have hsame : t.1.hierarchy = s.1.hierarchy :=
      hierarchy_of_releasesAll (releaseSubtree_releases hstep)
    rw [ih h fun k hk => by rw [Forest.subtree, hsame]; exact hrest k hk]
    exact nodes_of_releaseSubtree hstep hfirst

/-- A release spares what was mounted in time, whatever name it is asked for. -/
theorem node_of_unmount {name : String} {r : Bool} (hf : f.WellFormed) (hdated : f.Dated)
    (h : f.unmount name life d = .ok (r, f', d')) (hn : f.nodes[i]? = some n)
    (hlife : life ≤ n.life) : f'.nodes[i]? = some n := by
  obtain ⟨p, hp, h⟩ := Except.bind_eq_ok_iff.1 h
  split at h
  · cases h
    exact hn
  · next hold =>
    obtain ⟨⟨g, e⟩, hrelease, h⟩ := Except.bind_eq_ok_iff.1 h
    cases h
    rw [nodes_of_releaseSubtree hrelease fun hi => ?_, hn]
    have hle := hdated.life_le hf (Forest.nodes_of_find hp).1 hn hi
    omega

theorem node_of_unmountExpired {count : Nat} (hf : f.WellFormed) (hdated : f.Dated)
    (h : f.unmountExpired life d = .ok (count, f', d')) (hn : f.nodes[i]? = some n)
    (hlife : life ≤ n.life) : f'.nodes[i]? = some n := by
  obtain ⟨s, hs, h⟩ := Except.bind_eq_ok_iff.1 h
  cases h
  rw [nodes_of_releaseSubtrees hs fun k hk hi => ?_, hn]
  rw [Forest.expired_eq] at hk
  obtain ⟨p, hp, rfl⟩ := List.mem_map.1 hk
  obtain ⟨hroot, hold⟩ := List.mem_filter.1 hp
  have hle := hdated.life_le hf (Forest.nodes_of_mem_roots hroot) hn hi
  simp only [Bool.and_eq_true, decide_eq_true_eq] at hold
  omega

/-! ## What has expired -/

namespace Forest

/-- Whether a position is that of a root last mounted before `life` in whose tree a node owns an
object. -/
def HasExpired (f : Forest) (life i : Nat) : Prop :=
  (∃ r, f.nodes[i]? = some r ∧ r.parent = none ∧ r.life < life) ∧
    ∃ j x, f.root j = i ∧ f.Owns j x

theorem mem_expired_iff (hf : f.WellFormed) : i ∈ f.expired life ↔ f.HasExpired life i := by
  constructor
  · intro hi
    rw [expired_eq] at hi
    obtain ⟨p, hp, rfl⟩ := List.mem_map.1 hi
    obtain ⟨hroot, hold⟩ := List.mem_filter.1 hp
    obtain ⟨hold, howns⟩ := Bool.and_eq_true_iff.1 hold
    have hn := nodes_of_mem_roots hroot
    have hparent : p.node.parent = none :=
      Option.isNone_iff_eq_none.1 (List.mem_filter.1 hroot).2
    exact ⟨⟨p.node, hn, hparent, of_decide_eq_true hold⟩, (ownsObjects_iff hf hn hparent).1 howns⟩
  · rintro ⟨⟨r, hr, -, hold⟩, j, x, rfl, howns⟩
    exact (mem_expired hf hr hold howns).2

/-- As many trees are released as have expired. -/
theorem length_expired (hf : f.WellFormed) :
    (f.expired life).length = Set.ncard {i | f.HasExpired life i} := by
  have hset : {i | f.HasExpired life i} = ((f.expired life).toFinset : Set Nat) := by
    ext i
    simp [mem_expired_iff hf]
  have hnodup : (f.expired life).Nodup := List.nodup_range.filter _
  rw [hset, Set.ncard_coe_finset, List.toFinset_card_of_nodup hnodup]

end Forest

/-- **What has expired is released once.** -/
theorem unmountExpired_again {count : Nat} (hf : f.WellFormed)
    (h : f.unmountExpired life d = .ok (count, f', d')) :
    f'.unmountExpired life d' = .ok (0, f', d') := by
  have hreleases := unmountExpired_releases h
  have hf' : f'.WellFormed :=
    kept_by_all (P := fun s => s.1.WellFormed) (fun _ _ => Releases.wellFormed) hreleases hf
  refine Forest.unmountExpired_of_nil (List.eq_nil_iff_forall_not_mem.2 fun i hi => ?_)
  obtain ⟨⟨r', hr', -, hold⟩, j, x, rfl, howns⟩ := (Forest.mem_expired_iff hf').1 hi
  obtain ⟨r, hr, hlife⟩ := unmountExpired_owns hf h howns
  have hroot : f'.root j = f.root j :=
    congrArg (Hierarchy.root · j) (hierarchy_of_releasesAll hreleases)
  obtain ⟨m, hm, hsheds⟩ := exists_sheds_of_releasesAll hreleases hr
  rw [hroot] at hr'
  obtain rfl := Option.some.inj (hr'.symm.trans hm)
  rw [hsheds.life] at hold
  omega

end

/-! ## Any history -/

/-- What a release of all that was mounted before `life` comes to, on any state of the device. -/
structure Forest.ExpiresAlike (f : Forest) (life : Nat) : Prop where
  /-- It leaves what a release of every root leaves, or stops as that does. -/
  alike : ∀ d : Headless, (f.unmountExpired life d).map (·.2) = f.unmountRoots life d
  count : ∀ (d : Headless) count f' d', f.unmountExpired life d = .ok (count, f', d') →
    count = Set.ncard {i | f.HasExpired life i}
  again : ∀ (d : Headless) count f' d', f.unmountExpired life d = .ok (count, f', d') →
    f'.unmountExpired life d' = .ok (0, f', d')
  /-- What was mounted in time stays as it is. -/
  spares : ∀ (d : Headless) count f' d', f.unmountExpired life d = .ok (count, f', d') →
    ∀ (i : Nat) n, f.nodes[i]? = some n → life ≤ n.life → f'.nodes[i]? = some n
  unmountSpares : ∀ name (d : Headless) r f' d', f.unmount name life d = .ok (r, f', d') →
    ∀ (i : Nat) n, f.nodes[i]? = some n → life ≤ n.life → f'.nodes[i]? = some n

theorem Forest.Proper.expiresAlike {f : Forest} (hf : f.Proper) (hfit : f.CarriesFit) (life : Nat) :
    f.ExpiresAlike life where
  alike := unmountExpired_eq hf.wellFormed hfit life
  count := by
    intro d count f' d' h
    obtain ⟨s, -, h⟩ := Except.bind_eq_ok_iff.1 h
    cases h
    exact Forest.length_expired hf.wellFormed
  again _ _ _ _ h := unmountExpired_again hf.wellFormed h
  spares _ _ _ _ h _ _ hn hlife := node_of_unmountExpired hf.wellFormed hf.dated h hn hlife
  unmountSpares _ _ _ _ _ h _ _ hn hlife := node_of_unmount hf.wellFormed hf.dated h hn hlife

/-- **A release of what has expired is a release of every root**, on every forest with a history. On
the device of a run it is never refused. -/
theorem expires_alike {os : List Operation} {f : Forest} (h : f.Reached Headless os) (life : Nat) :
    f.ExpiresAlike life ∧
    ∀ reuse d spare, ReflTransGen (World.Step reuse) {} ⟨f, d, spare⟩ →
      (∃ s, f.unmountExpired life d = .ok s) ∧
      ∀ name p, f.find name = .ok p → ∃ s, f.unmount name life d = .ok s := by
  refine ⟨h.proper.expiresAlike h.carriesFit life, fun reuse d spare hrun => ?_⟩
  have hintact := (World.Intact.empty.run hrun).1
  refine ⟨hintact.ledger.exists_unmountExpired hintact.wellFormed life, fun name p hp => ?_⟩
  exact hintact.ledger.exists_unmount hintact.wellFormed hp life

/-! ### A window that is older than the rug -/

namespace Attic

def window : SwapchainImport := ⟨[⟨1⟩], .b8g8r8a8Unorm, ⟨4, 4⟩⟩

def history : List Operation := [
  .addSwapchain "window" window,
  .mount "window",
  .addImage "rug" {} .transient,
  .mount "rug",
  .addImageView "rug/raw" "rug" (ImageDesc.defaultView {}),
  .addBuffer "trunk" (.uniform 16) .persistent]

/-- The window with or without a view of its image. -/
def forest (view : Option (Handle .imageView)) : Forest where
  nodes := [
    { name := "window", residency := .swapchain, payload := .swapchain window 0, life := 1 },
    { name := "window/0"
      residency := .swapchain
      payload := .image window.imageDesc (some ⟨1⟩) true
      parent := some 0
      life := 1 },
    { name := "window/0/window/0"
      residency := .swapchain
      payload := .imageView window.imageDesc.defaultView "window/0" view
      parent := some 1
      life := 1 },
    { name := "rug", residency := .transient, payload := .image {} (some ⟨3⟩) false, life := 2 },
    { name := "rug/rug"
      residency := .transient
      payload := .imageView (ImageDesc.defaultView {}) "rug" (some ⟨4⟩)
      parent := some 3
      life := 2 },
    { name := "rug/raw"
      residency := .transient
      payload := .imageView (ImageDesc.defaultView {}) "rug" none
      parent := some 3 },
    { name := "trunk", residency := .persistent, payload := .buffer (.uniform 16) none }]
  life := 2

def device : Headless where
  lastHandle := 4
  created := { images := 1, imageViews := 2 }
  images := [(⟨3⟩, "rug")]
  imageViews := [(⟨2⟩, ⟨1⟩), (⟨4⟩, ⟨3⟩)]

def device' : Headless :=
  { device with imageViews := [(⟨4⟩, ⟨3⟩)], destroyed := [.imageView ⟨2⟩] }

theorem ran : World.Ran true history ⟨forest (some ⟨2⟩), device, [⟨1⟩]⟩ :=
  .operate (.operate (.operate (.operate (.operate (.operate (.mint .start)
    (by decide) (by decide) rfl) (by decide) (by decide) rfl) (by decide) (by decide) rfl)
    (by decide) (by decide) rfl) (by decide) (by decide) rfl) (by decide) (by decide) rfl

end Attic

/-- The window alone has expired: the rug was mounted later, and the trunk holds nothing. -/
theorem expires_alike_attic :
    (Attic.forest (some ⟨2⟩)).Reached Headless Attic.history ∧
    (Attic.forest (some ⟨2⟩)).unmountExpired 2 Attic.device =
      .ok (1, Attic.forest none, Attic.device') ∧
    (Attic.forest (some ⟨2⟩)).unmountRoots 2 Attic.device =
      .ok (Attic.forest none, Attic.device') ∧
    Set.ncard {i | (Attic.forest (some ⟨2⟩)).HasExpired 2 i} = 1 ∧
    (Attic.forest none).unmountExpired 2 Attic.device' =
      .ok (0, Attic.forest none, Attic.device') := by
  have hreached := Attic.ran.reached
  have hall := (expires_alike hreached 2).1
  have hrun : (Attic.forest (some ⟨2⟩)).unmountExpired 2 Attic.device =
      .ok (1, Attic.forest none, Attic.device') := rfl
  refine ⟨hreached, hrun, ?_, (hall.count _ _ _ _ hrun).symm, hall.again _ _ _ _ hrun⟩
  rw [← hall.alike, hrun]
  rfl

end FrameGraph
