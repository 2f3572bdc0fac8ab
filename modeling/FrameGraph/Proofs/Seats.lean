import FrameGraph.Proofs.Frames
import FrameGraph.Proofs.Operations
import FrameGraph.Proofs.Retained

/-!
# Where nodes stand

Views hang below what they show, and the images of a swapchain below the swapchain
(`Forest.Seated`). Operations and frames keep it so. It is why every access that a frame records is
one to a buffer or an image, never to a view or a swapchain (`Forest.Seated.isTracked`).
-/

set_option autoImplicit false

namespace FrameGraph

/-- Whether every node stands where nodes of its kind stand. -/
def Forest.Seated (f : Forest) : Prop := ∀ (i : Nat) n, f.nodes[i]? = some n → f.Seats n

theorem ResourceKind.eq_of_holds {above below : ResourceKind} (h : above.holds below = true) :
    above = .buffer ∧ below = .bufferView ∨ above = .image ∧ below = .imageView ∨
      above = .swapchain ∧ below = .image := by
  unfold holds at h
  split at h
  · exact .inl ⟨rfl, rfl⟩
  · exact .inr (.inl ⟨rfl, rfl⟩)
  · exact .inr (.inr ⟨rfl, rfl⟩)
  · cases h

namespace Forest

variable {f f' : Forest} {n n' : Node}

/-- Whether every node of `f` stands for the same resource in `f'`. -/
def KeepsNodes (f f' : Forest) : Prop :=
  ∀ (i : Nat) n, f.nodes[i]? = some n → ∃ n', f'.nodes[i]? = some n' ∧ n.Keeps n'

theorem keepsNodes_push : f.KeepsNodes (f.push n) :=
  fun _ m hm => ⟨m, nodes_push_of_some hm, .refl m⟩

theorem keepsNodes_put {i : Nat} (hn : f.nodes[i]? = some n) (hk : n.Keeps n') :
    f.KeepsNodes (f.put i n') := by
  intro j m hm
  obtain ⟨m', hm', rfl | ⟨rfl, rfl⟩⟩ := exists_node_put n' hn hm
  · exact ⟨m', hm', .refl m'⟩
  · exact ⟨m', hm', hk⟩

theorem Retains.keepsNodes (h : f.Retains f') : f.KeepsNodes f' := by
  intro i n hn
  obtain ⟨n', hn', hr⟩ := h i n hn
  exact ⟨n', hn', hr.toKeeps⟩

/-- A node stands where it stood as long as every node stays the resource that it is. -/
theorem Seats.mono (h : f.Seats n) (hk : n.Keeps n') (hf : f.KeepsNodes f') : f'.Seats n' := by
  cases h with
  | root hparent hview =>
    refine .root (hk.parent.trans hparent) ?_
    rw [hk.kind]
    exact hview
  | below hparent hp hholds =>
    obtain ⟨p', hp', hkp⟩ := hf _ _ hp
    refine .below (hk.parent.trans hparent) hp' ?_
    rw [hkp.kind, hk.kind]
    exact hholds

/-- It is enough to look at the nodes that are new. -/
theorem Seated.mono (h : f.Seated) (hf : f.KeepsNodes f')
    (hnew : ∀ (i : Nat) n', f'.nodes[i]? = some n' → f.nodes[i]? = none → f'.Seats n') :
    f'.Seated := by
  intro i n' hn'
  cases hn : f.nodes[i]? with
  | none => exact hnew i n' hn' hn
  | some n =>
    obtain ⟨m, hm, hk⟩ := hf i n hn
    rw [hn'] at hm
    obtain rfl := Option.some.inj hm
    exact (h i n hn).mono hk hf

theorem Seated.empty : Seated {} := by
  intro i n hn
  simp at hn

theorem Seated.push (h : f.Seated) (hn : f.Seats n) : (f.push n).Seated := by
  refine h.mono keepsNodes_push fun i m hm hnone => ?_
  rcases nodes_push_cases hm with hm | ⟨-, rfl⟩
  · rw [hnone] at hm
    cases hm
  · exact hn.mono (.refl _) keepsNodes_push

theorem Seated.put {i : Nat} (h : f.Seated) (hn : f.nodes[i]? = some n) (hk : n.Keeps n') :
    (f.put i n').Seated := by
  refine h.mono (keepsNodes_put hn hk) fun j m hm hnone => ?_
  rcases nodes_put_cases hn hm with hm | ⟨rfl, -⟩
  · rw [hnone] at hm
    cases hm
  · rw [hnone] at hn
    cases hn

theorem Seats.holds_of_parent {i : Nat} {p : Node} (h : f.Seats n) (hparent : n.parent = some i)
    (hp : f.nodes[i]? = some p) : p.kind.holds n.kind = true := by
  cases h with
  | root hroot =>
    rw [hroot] at hparent
    cases hparent
  | below hbelow hq hholds =>
    rw [hbelow] at hparent
    obtain rfl := Option.some.inj hparent
    rw [hp] at hq
    obtain rfl := Option.some.inj hq
    exact hholds

/-- What hangs below a node is of a kind that the node holds. -/
theorem Seated.exists_child (h : f.Seated) {i j : Nat} (hn : f.nodes[i]? = some n)
    (hj : j ∈ f.children i) :
    ∃ c, f.nodes[j]? = some c ∧ c.parent = some i ∧ n.kind.holds c.kind = true := by
  obtain ⟨c, hc, hparent⟩ := mem_children_iff.1 hj
  exact ⟨c, hc, hparent, (h j c hc).holds_of_parent hparent hn⟩

/-- What a view shows is a buffer or an image. -/
theorem Seats.exists_shown (h : f.Seats n) (hview : n.kind.isView = true) :
    ∃ j p, n.parent = some j ∧ f.nodes[j]? = some p ∧ p.IsTracked := by
  cases h with
  | root _ hroot => exact absurd (hview.symm.trans hroot) Bool.noConfusion
  | below hparent hp hholds =>
    rename_i j p
    refine ⟨j, p, hparent, hp, ?_⟩
    rcases ResourceKind.eq_of_holds hholds with ⟨hkind, -⟩ | ⟨hkind, -⟩ | ⟨-, hkind⟩
    · exact .inl hkind
    · exact .inr hkind
    · rw [hkind] at hview
      cases hview

/-- What hangs below a swapchain is an image. -/
theorem Seated.kind_of_shown (hf : f.Seated) {i j : Nat} {source : SwapchainImport} {acquired : Nat}
    (hn : f.nodes[i]? = some n) (hpayload : n.payload = .swapchain source acquired)
    (hj : j ∈ f.children i) (hn' : f.nodes[j]? = some n') : n'.kind = .image := by
  obtain ⟨c, hc, -, hholds⟩ := hf.exists_child hn hj
  rw [hn'] at hc
  obtain rfl := Option.some.inj hc
  rw [Node.kind, hpayload] at hholds
  rcases ResourceKind.eq_of_holds hholds with ⟨hkind, -⟩ | ⟨hkind, -⟩ | ⟨-, hkind⟩
  · cases hkind
  · cases hkind
  · exact hkind

/-- A name never stands for a swapchain itself, but for one of its images. -/
theorem Seated.kind_of_resolve (hf : f.Seated) {name : String} {p : Place}
    (h : f.resolve name = .ok p) : p.node.kind ≠ .swapchain := by
  rcases resolve_cases h with ⟨-, hkind⟩ | ⟨q, source, acquired, hq, hpayload, himage⟩
  · exact hkind
  · obtain ⟨j, hj, hplace⟩ := Option.bind_eq_some_iff.1 himage
    obtain ⟨rfl, hn⟩ := place?_eq_some_iff.1 hplace
    rw [hf.kind_of_shown (nodes_of_find hq).1 hpayload (List.mem_of_getElem? hj) hn]
    decide

/-- **Accesses are recorded on buffers and images**, and never on a view or a swapchain. -/
theorem Seated.isTracked (hf : f.Seated) {name : String} {p : Place}
    (h : f.tracked name = .ok p) : p.node.IsTracked := by
  obtain ⟨q, hq, h⟩ := Except.bind_eq_ok_iff.1 h
  have hkind := hf.kind_of_resolve hq
  have hseat := hf q.index q.node (nodes_of_resolve hq)
  by_cases hview : q.node.kind.isView = true
  · obtain ⟨j, n, hparent, hn, htracked⟩ := hseat.exists_shown hview
    have hplace : q.node.parent.bind f.place? = some ⟨j, n⟩ := by
      rw [hparent]
      exact place?_eq_some_iff.2 ⟨rfl, hn⟩
    obtain ⟨o, ho⟩ := Option.isSome_iff_exists.1 (q.node.payload.isSome_origin.trans hview)
    rw [ho, hplace] at h
    obtain rfl := Except.ok.inj h
    exact htracked
  · split at h
    · next o parent ho _ =>
      have horigin := q.node.payload.isSome_origin
      rw [ho] at horigin
      exact absurd horigin.symm hview
    · obtain rfl := Except.ok.inj h
      cases hk : q.node.kind with
      | buffer => exact .inl hk
      | image => exact .inr hk
      | swapchain => exact absurd hk hkind
      | bufferView => simp [hk, ResourceKind.isView] at hview
      | imageView => simp [hk, ResourceKind.isView] at hview

end Forest

/-! ## Operations and frames -/

open Relation (ReflTransGen)

section
variable {δ : Type} [Device δ] {f f' : Forest} {d d' : δ}

theorem Grows.seated {s s' : Forest × δ} (h : Grows s s') (hs : s.1.Seated) : s'.1.Seated := by
  cases h with
  | clock f d => exact fun i n hn => (hs i n hn).mono (.refl n) fun j p hp => ⟨p, hp, .refl p⟩
  | register d h => exact hs.push h.seat
  | unfold d h =>
    obtain ⟨desc, hpayload⟩ := h.payload
    obtain ⟨p, source, acquired, hp, hswapchain, -⟩ := h.source
    refine hs.push (.below h.parent hp ?_)
    rw [Node.kind, Node.kind, hpayload, hswapchain]
    rfl
  | acquire d index hn hp => exact hs.put hn ⟨rfl, rfl, rfl, by rw [Node.kind, Node.kind, hp]; rfl⟩
  | mountNode h =>
    rcases mountNode_ok h with ⟨rfl, rfl⟩ | ⟨m, outcome, hm, hrealize, rfl⟩
    · exact hs
    · exact hs.put hm ⟨rfl, rfl, rfl, kind_of_bare (bare_of_realize hrealize)⟩

theorem Releases.seated {s s' : Forest × δ} (h : Releases s s') (hs : s.1.Seated) :
    s'.1.Seated := by
  obtain ⟨h⟩ := h
  rcases releaseNode_ok h with ⟨rfl, rfl⟩ | ⟨m, payload, hm, hrelease, rfl⟩
  · exact hs
  · exact hs.put hm ⟨rfl, rfl, rfl, kind_of_bare (bare_of_release hrelease)⟩

/-- **Every operation leaves the nodes where they stand.** -/
theorem Operation.seated {o : Operation} (h : o.run f d = .ok (f', d')) (hf : f.Seated) :
    f'.Seated := by
  rcases o.run_cases h with ⟨-, hgrows⟩ | ⟨-, hreleases⟩ | ⟨name, source, -, -, rfl, -⟩
  · exact kept_by_all (P := fun s => s.1.Seated) (fun _ _ => Grows.seated) hgrows hf
  · exact kept_by_all (P := fun s => s.1.Seated) (fun _ _ => Releases.seated) hreleases hf
  · exact hf.push (.root rfl rfl)

end

/-- **Every frame leaves the nodes where they stand.** -/
theorem seated_of_frame {passes : List Pass} {f f' : Forest} {shaders : Registry} {a : Analysis}
    (h : (analyze passes f shaders).result = .ok (a, f')) (hf : f.Seated) : f'.Seated := by
  obtain ⟨-, -, -, rfl⟩ := analyze_ok_iff.1 h
  refine hf.mono (f.retains_carry _).keepsNodes fun i n' hn' hnone => ?_
  obtain ⟨n, hn⟩ := Forest.exists_of_nodes_carry hn'
  rw [hnone] at hn
  cases hn

end FrameGraph
