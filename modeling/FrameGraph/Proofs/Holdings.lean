import FrameGraph.Proofs.Kinship
import FrameGraph.Proofs.ReleaseOrder
import FrameGraph.Proofs.Traversals

/-!
# What a forest holds

The objects alive are those that nodes own, each once (`Ledger.alive_perm`), so that the forest
tells how many objects of each kind a device has made that has destroyed none (`Ledger.created_eq`).
A release of what has expired leaves objects only in trees that were mounted in time
(`unmountExpired_owns`), and nothing has expired if every root was (`expired_eq_nil`).
-/

set_option autoImplicit false

namespace FrameGraph

open Relation (ReflTransGen)

variable {f f' : Forest} {d d' : Headless} {spare : List (Handle .image)} {i k life : Nat}
  {x : Object}

/-! ## Counting -/

/-- The objects that the nodes own, in order of registration. -/
def Forest.owned (f : Forest) : List Object := f.nodes.filterMap (·.payload.owned?)

theorem Forest.mem_owned_iff : x ∈ f.owned ↔ ∃ i, f.Owns i x := by
  rw [owned, List.mem_filterMap]
  constructor
  · rintro ⟨n, hn, hx⟩
    obtain ⟨i, hi⟩ := List.mem_iff_getElem?.1 hn
    exact ⟨i, n, hi, hx⟩
  · rintro ⟨i, n, hn, hx⟩
    exact ⟨n, List.mem_of_getElem? hn, hx⟩

theorem Ledger.nodup_owned (hl : Ledger f d spare) : f.owned.Nodup := by
  rw [Forest.owned, List.Nodup, List.pairwise_filterMap, List.pairwise_iff_getElem]
  intro i j hi hj hij x hx y hy hxy
  subst hxy
  exact Nat.ne_of_lt hij (hl.owner i j x ⟨_, List.getElem?_eq_getElem hi, hx⟩
    ⟨_, List.getElem?_eq_getElem hj, hy⟩)

/-- **The objects alive are those that nodes own, each once.** -/
theorem Ledger.alive_perm (hl : Ledger f d spare) : d.alive.Perm f.owned := by
  refine (List.perm_ext_iff_of_nodup ?_ hl.nodup_owned).2 fun x => ?_
  · exact (List.nodup_append.1 hl.books.nodup_made).1
  · rw [hl.alive x, Forest.mem_owned_iff]

/-- While nothing was destroyed, the nodes tell how many objects of each kind were made. -/
theorem Ledger.created_eq (hl : Ledger f d spare) (hd : d.destroyed = []) (κ : ObjectKind) :
    d.created.count κ = f.owned.countP (·.kind == κ) := by
  rw [hl.books.created κ, Headless.made, hd, List.append_nil, hl.alive_perm.countP_eq]

/-! ## What is destroyed -/

theorem destroyed_of_grows {s s' : Forest × Headless} (h : Grows s s') :
    s'.2.destroyed = s.2.destroyed := by
  cases h with
  | mountNode h =>
    rcases mountNode_ok h with ⟨-, rfl⟩ | ⟨n, outcome, -, hrealize, -⟩
    · rfl
    · cases realizes hrealize with
      | same _ hd => exact congrArg _ hd
      | make _ _ _ _ hd => exact hd.destroyed
      | «show» _ _ _ _ _ hd => exact hd.destroyed
  | _ => rfl

theorem created_of_releases {s s' : Forest × Headless} (h : Releases s s') :
    s'.2.created = s.2.created := by
  obtain ⟨h⟩ := h
  rcases releaseNode_ok h with ⟨-, rfl⟩ | ⟨n, payload, -, hrelease, -⟩
  · rfl
  · rcases release_destroys hrelease with ⟨-, -, rfl⟩ | ⟨x, -, -, -, hd⟩
    · rfl
    · exact hd.created

/-! ## Releasing what has expired -/

theorem releaseNodes_owns {js : List Nat} {s s' : Forest × Headless}
    (h : js.foldlM (fun s j => s.1.releaseNode s.2 j) s = .ok s') (hk : s'.1.Owns k x) :
    s.1.Owns k x ∧ k ∉ js := by
  induction js generalizing s with
  | nil =>
    cases h
    exact ⟨hk, List.not_mem_nil⟩
  | cons j js ih =>
    rw [List.foldlM_cons] at h
    obtain ⟨t, hstep, h⟩ := Except.bind_eq_ok_iff.1 h
    obtain ⟨hrest, hjs⟩ := ih h
    obtain ⟨hfirst, hj⟩ := releaseNode_owns hstep hrest
    exact ⟨hfirst, List.not_mem_cons_of_ne_of_not_mem hj hjs⟩

theorem releaseSubtrees_owns {is : List Nat} {s s' : Forest × Headless}
    (h : is.foldlM (fun s i => s.1.releaseSubtree s.2 i) s = .ok s') (hk : s'.1.Owns k x) :
    s.1.Owns k x ∧ ∀ i ∈ is, k ∉ s.1.subtree i := by
  induction is generalizing s with
  | nil =>
    cases h
    exact ⟨hk, fun i hi => by cases hi⟩
  | cons i is ih =>
    rw [List.foldlM_cons] at h
    obtain ⟨t, hstep, h⟩ := Except.bind_eq_ok_iff.1 h
    obtain ⟨hrest, his⟩ := ih h
    obtain ⟨hfirst, hi⟩ := releaseNodes_owns hstep hrest
    have hsame : t.1.hierarchy = s.1.hierarchy :=
      hierarchy_of_releasesAll (releaseSubtree_releases hstep)
    refine ⟨hfirst, fun j hj => ?_⟩
    rcases List.mem_cons.1 hj with rfl | hj
    · exact fun hmem => hi (List.mem_reverse.2 hmem)
    · rw [Forest.subtree, ← hsame]
      exact his j hj

theorem Payload.isOwned_of_owned {p : Payload} (h : p.owned? = some x) : p.isOwned = true := by
  obtain ⟨hx, hexternal⟩ := owned?_eq_some_iff.1 h
  cases p with
  | swapchain source acquired => cases hx
  | image desc handle external =>
    obtain ⟨y, rfl, -⟩ := Option.map_eq_some_iff.1 hx
    obtain rfl : external = false := hexternal
    rfl
  | _ =>
    obtain ⟨y, rfl, -⟩ := Option.map_eq_some_iff.1 hx
    rfl

/-- A tree that was mounted before `life` and in which a node owns an object has expired. -/
theorem Forest.mem_expired {r : Node} (hf : f.WellFormed) (hr : f.nodes[f.root k]? = some r)
    (hlife : r.life < life) (hk : f.Owns k x) :
    k ∈ f.subtree (f.root k) ∧ f.root k ∈ f.expired life := by
  obtain ⟨n, hn, hx⟩ := hk
  obtain ⟨r', hr', hparent⟩ := exists_root hf hn
  obtain rfl := Option.some.inj (hr.symm.trans hr')
  have hmem : k ∈ f.subtree (f.root k) :=
    (Hierarchy.mem_subtree_root_iff hf.ordered
      (Hierarchy.climbs_root hf.ordered k).top_of).2 rfl
  refine ⟨hmem, List.mem_filter.2 ⟨List.mem_range.2 (List.getElem?_eq_some_iff.1 hr).1, ?_⟩⟩
  have howns : f.ownsObjects (f.root k) = true := by
    refine List.any_eq_true.2 ⟨k, hmem, ?_⟩
    rw [hn]
    exact Payload.isOwned_of_owned hx
  rw [hr, howns]
  simp [Node.isRoot, hparent, hlife]

/-- **What has expired is gone after its release**: the tree of an object that is left was mounted
in time. -/
theorem unmountExpired_owns {count : Nat} (hf : f.WellFormed)
    (h : f.unmountExpired life d = .ok (count, f', d')) (hk : f'.Owns k x) :
    ∃ r, f.nodes[f.root k]? = some r ∧ life ≤ r.life := by
  obtain ⟨s, hs, h⟩ := Except.bind_eq_ok_iff.1 h
  cases h
  obtain ⟨howns, hleft⟩ := releaseSubtrees_owns hs hk
  have ⟨n, hn, _⟩ := howns
  obtain ⟨r, hr, -⟩ := Forest.exists_root hf hn
  refine ⟨r, hr, Nat.le_of_not_lt fun hlife => ?_⟩
  obtain ⟨hmem, hexpired⟩ := Forest.mem_expired hf hr hlife howns
  exact hleft _ hexpired hmem

/-- **A release of what has expired leaves nothing** if no node was mounted in time, and makes
nothing. -/
theorem alive_of_unmountExpired {count : Nat} (hf : f.WellFormed) (hl' : Ledger f' d' spare)
    (h : f.unmountExpired life d = .ok (count, f', d'))
    (hall : ∀ (i : Nat) n, f.nodes[i]? = some n → n.life < life) :
    d'.alive = [] ∧ d'.created = d.created := by
  refine ⟨List.eq_nil_iff_forall_not_mem.2 fun x hx => ?_, ?_⟩
  · obtain ⟨k, hk⟩ := (hl'.alive x).1 hx
    obtain ⟨r, hr, hlife⟩ := unmountExpired_owns hf h hk
    exact Nat.not_le_of_lt (hall _ r hr) hlife
  · exact kept_by_all (P := fun s => s.2.created = d.created)
      (fun _ _ hstep hs => (created_of_releases hstep).trans hs) (unmountExpired_releases h) rfl

/-- **Nothing has expired** if every root was mounted in time. -/
theorem Forest.expired_eq_nil (h : ∀ (i : Nat) n, f.nodes[i]? = some n → n.parent = none →
    life ≤ n.life) : f.expired life = [] := by
  refine List.filter_eq_nil_iff.2 fun i _ hi => ?_
  obtain ⟨hany, -⟩ := Bool.and_eq_true_iff.1 hi
  obtain ⟨n, hn, hroot⟩ := (Option.any_eq_true _ _).1 hany
  obtain ⟨hparent, hlife⟩ := Bool.and_eq_true_iff.1 hroot
  exact absurd (h i n hn (Option.isNone_iff_eq_none.1 hparent))
    (Nat.not_le_of_lt (of_decide_eq_true hlife))

/-- A release of what has expired leaves all as it is if nothing has. -/
theorem Forest.unmountExpired_of_nil (h : f.expired life = []) :
    f.unmountExpired life d = .ok (0, f, d) := by
  rw [unmountExpired, h]
  rfl

end FrameGraph
