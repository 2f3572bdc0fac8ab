import FrameGraph.Proofs.Ownership

/-!
# Views that nodes hold

A view that a node holds is alive, and no other node holds it (`Forest.HoldsViews`): mounting makes
a view under a number that is new, and releasing destroys it in the step that takes it from its
node. This needs nothing of the images that are brought in, so it holds of any operations
(`HoldsViews.operate`).
-/

set_option autoImplicit false

namespace FrameGraph

open Relation (ReflTransGen)

/-- Whether every view that a node holds is alive and held by that node alone. -/
structure Forest.HoldsViews (f : Forest) (d : Headless) : Prop where
  alive : ∀ i v, f.Has i v → v.isView = true → v ∈ d.alive
  owner : ∀ i j v, f.Has i v → f.Has j v → v.isView = true → i = j
  known : ∀ x ∈ d.alive, x.id ≤ d.lastHandle

theorem Headless.mem_alive_imageView {d : Headless} {v : Handle .imageView} :
    .imageView v ∈ d.alive ↔ ∃ image, (v, image) ∈ d.imageViews := by
  simp [alive]

namespace Forest.HoldsViews

variable {f f' : Forest} {d d' : Headless} {n n' : Node} {i : Nat} {x : Object}
  {shown : Option Object}

theorem empty : HoldsViews {} {} where
  alive i v hi := by simp [Has, At] at hi
  owner i j v hi := by simp [Has, At] at hi
  known x hx := by simp [Headless.alive] at hx

/-- Where nodes hold no new views and the device keeps its own, nothing changes. -/
theorem mono (h : f.HoldsViews d) (hhas : ∀ i v, f'.Has i v → v.isView = true → f.Has i v)
    (hd : d.SameObjects d') : f'.HoldsViews d' where
  alive i v hv hview := hd.alive ▸ h.alive i v (hhas i v hv hview) hview
  owner i j v hi hj hview := h.owner i j v (hhas i v hi hview) (hhas j v hj hview) hview
  known x hx := Nat.le_trans (h.known x (hd.alive ▸ hx)) hd.lastHandle

/-- A node that holds no view may be added. -/
theorem push (h : f.HoldsViews d) (hview : ∀ v, n.payload.object? = some v → v.isView = false) :
    (f.push n).HoldsViews d := by
  refine h.mono (fun i v hv hisview => ?_) (.refl d)
  rcases at_push_iff.1 hv with hv | ⟨-, hv⟩
  · exact hv
  · rw [hview v hv] at hisview
    cases hisview

/-- A node may change in all but its object. -/
theorem put (h : f.HoldsViews d) (hn : f.nodes[i]? = some n)
    (hobject : n'.payload.object? = n.payload.object?) : (f.put i n').HoldsViews d := by
  refine h.mono (fun j v hj _ => ?_) (.refl d)
  rcases (at_put_iff hn).1 hj with ⟨-, hv⟩ | ⟨rfl, hv⟩
  · exact hv
  · exact ⟨n, hn, hobject.symm.trans hv⟩

/-- A node without an object may get a new one. -/
theorem make (h : f.HoldsViews d) (hn : f.nodes[i]? = some n) (hnone : n.payload.object? = none)
    (hx : n'.payload.object? = some x) (hd : d.Makes d' x shown) : (f.put i n').HoldsViews d' := by
  have hhas {j : Nat} {y : Object} : (f.put i n').Has j y ↔ f.Has j y ∨ j = i ∧ y = x :=
    at_put_given hn hnone hx
  have hfresh {j : Nat} (hj : f.Has j x) : x.isView = false := by
    by_contra hview
    have hknown := h.known x (h.alive j x hj (by simpa using hview))
    have hid := hd.id
    omega
  refine ⟨fun j v hv hview => ?_, fun j k v hj hk hview => ?_, fun y hy => ?_⟩
  · rw [hd.alive.mem_iff, List.mem_cons]
    rcases hhas.1 hv with hv | ⟨-, rfl⟩
    · exact .inr (h.alive j v hv hview)
    · exact .inl rfl
  · rcases hhas.1 hj with hj | ⟨rfl, rfl⟩
    · rcases hhas.1 hk with hk | ⟨-, rfl⟩
      · exact h.owner j k v hj hk hview
      · rw [hfresh hj] at hview
        cases hview
    · rcases hhas.1 hk with hk | ⟨rfl, -⟩
      · rw [hfresh hk] at hview
        cases hview
      · rfl
  · have hid := hd.id
    have hlast := hd.lastHandle
    rcases List.mem_cons.1 (hd.alive.mem_iff.1 hy) with rfl | hy
    · omega
    · have hknown := h.known y hy
      omega

/-- An object may be taken from its node and destroyed. -/
theorem destroy (h : f.HoldsViews d) (hn : f.nodes[i]? = some n)
    (hx : n.payload.object? = some x) (hnone : n'.payload.object? = none) (hd : d.Destroys d' x) :
    (f.put i n').HoldsViews d' := by
  have hhas {j : Nat} {y : Object} : (f.put i n').Has j y ↔ j ≠ i ∧ f.Has j y :=
    at_put_taken hn hnone
  refine ⟨fun j v hv hview => ?_, fun j k v hj hk hview => ?_, fun y hy => ?_⟩
  · obtain ⟨hji, hv⟩ := hhas.1 hv
    have hvx : v ≠ x := by
      rintro rfl
      exact hji (h.owner j i v hv ⟨n, hn, hx⟩ hview)
    rw [hd.alive, List.mem_filter]
    exact ⟨h.alive j v hv hview, decide_eq_true hvx⟩
  · exact h.owner j k v (hhas.1 hj).2 (hhas.1 hk).2 hview
  · rw [hd.lastHandle]
    rw [hd.alive, List.mem_filter] at hy
    exact h.known y hy.1

/-! ## Small changes -/

theorem grows (h : f.HoldsViews d) (hg : Grows (f, d) (f', d')) : f'.HoldsViews d' := by
  cases hg with
  | clock => exact h.mono (fun _ _ hv _ => hv) (.refl d)
  | register _ hn =>
    refine h.push fun v hv => ?_
    rw [(Node.object?_of_not_backed hn.isBacked).1] at hv
    cases hv
  | «unfold» _ hn =>
    obtain ⟨desc, hp⟩ := hn.payload
    refine h.push fun v hv => ?_
    rw [hp] at hv
    obtain rfl := Option.some.inj hv
    rfl
  | acquire _ index hn hp => exact h.put hn (by rw [hp]; rfl)
  | mountNode hmount =>
    rcases mountNode_ok hmount with ⟨rfl, rfl⟩ | ⟨n, outcome, hn, hrealize, rfl⟩
    · exact h
    · cases realizes hrealize with
      | same hp hd =>
        subst hd
        exact h.put hn (by rw [hp])
      | make hp hp' _ _ hmakes => exact h.make hn hp hp' hmakes
      | «show» hp hp' _ _ _ hmakes => exact h.make hn hp hp' hmakes

theorem releases (h : f.HoldsViews d) (hr : Releases (f, d) (f', d')) : f'.HoldsViews d' := by
  obtain ⟨hr⟩ := hr
  rcases releaseNode_ok hr with ⟨rfl, rfl⟩ | ⟨n, payload, hn, hrelease, rfl⟩
  · exact h
  · rcases release_destroys hrelease with ⟨-, rfl, rfl⟩ | ⟨x, hx, hnone, -, hd⟩
    · exact h.put hn rfl
    · exact h.destroy hn (Payload.owned?_eq_some_iff.1 hx).1 hnone hd

/-! ## Operations and frames -/

/-- **Every operation keeps the views that nodes hold alive.** -/
theorem operate {o : Operation} (h : f.HoldsViews d) (ho : o.run f d = .ok (f', d')) :
    f'.HoldsViews d' := by
  rcases o.run_cases ho with ⟨-, hgrows⟩ | ⟨-, hreleases⟩ | ⟨name, source, -, -, rfl, rfl⟩
  · exact kept_by_all (P := fun s : Forest × Headless => s.1.HoldsViews s.2)
      (fun _ _ hstep hs => hs.grows hstep) hgrows h
  · exact kept_by_all (P := fun s : Forest × Headless => s.1.HoldsViews s.2)
      (fun _ _ hstep hs => hs.releases hstep) hreleases h
  · exact h.push fun v hv => by cases hv

/-- A frame changes no objects. -/
theorem frame {passes : List Pass} {shaders : Registry} {a : Analysis} (h : f.HoldsViews d)
    (ha : (analyze passes f shaders).result = .ok (a, f')) (hd : d.SameObjects d') :
    f'.HoldsViews d' := by
  obtain ⟨-, -, -, rfl⟩ := analyze_ok_iff.1 ha
  exact h.mono (fun _ _ hv _ => has_of_holding (map_nodes_carry (fun _ _ => rfl) f _) hv) hd

/-- **The view that a name stands for is alive.** -/
theorem exists_image {name : String} {v : Handle .imageView} (h : f.HoldsViews d)
    (hv : f.imageViewHandle name = .ok v) : ∃ image, (v, image) ∈ d.imageViews := by
  obtain ⟨p, hp, hv⟩ := Except.bind_eq_ok_iff.1 hv
  split at hv
  · next desc origin handle hpayload =>
    cases handle with
    | none => cases hv
    | some w =>
      obtain rfl := Except.ok.inj hv
      have hobject : p.node.payload.object? = some (.imageView w) := by
        rw [hpayload]
        rfl
      have hhas : f.Has p.index (.imageView w) := ⟨p.node, nodes_of_view hp, hobject⟩
      exact Headless.mem_alive_imageView.1 (h.alive p.index _ hhas rfl)
  · cases hv

end Forest.HoldsViews

end FrameGraph
