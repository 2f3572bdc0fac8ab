import FrameGraph.Proofs.Runs

/-!
# Views go first

A subtree is released backwards, so that a node's views are gone when its own object is destroyed.
The device therefore never refuses a release (`Ledger.exists_unmount`), no operation stops because
an object is in use (`Operation.neverInUse`), and in the list of what was destroyed every view
stands before what it showed (`views_destroyed_first`).
-/

set_option autoImplicit false

namespace FrameGraph

open Relation (ReflTransGen)

/-! ## The order of destruction -/

namespace Headless

/-- Whether the view `v` of `x` goes first: it is there and `x` is not destroyed, or it was destroyed
when `x` was not. -/
def ViewFirst (d : Headless) (v x : Object) : Prop :=
  (v, x) ∈ d.views ∧ x ∉ d.destroyed ∨
    ∃ before after, d.destroyed = before ++ after ∧ v ∈ before ∧ x ∉ before

variable {d d' : Headless} {v x : Object}

/-- **A step of the device keeps the order**: it destroys no object that a view shows. -/
theorem ViewFirst.change (h : d.ViewFirst v x) (hd : d.Change d') : d'.ViewFirst v x := by
  cases hd with
  | same hd =>
    unfold ViewFirst
    rw [hd.views, hd.destroyed]
    exact h
  | make hd =>
    unfold ViewFirst
    rw [hd.destroyed]
    exact h.imp_left fun h => ⟨(hd.views v x).2 (.inl h.1), h.2⟩
  | @destroy y hd =>
    unfold ViewFirst
    rw [hd.destroyed, hd.views]
    rcases h with ⟨hv, hx⟩ | ⟨before, after, hlog, hv, hx⟩
    · have hxy : x ≠ y := by
        rintro rfl
        exact hd.unshown v hv
      have hnot : x ∉ d.destroyed ++ [y] := by
        rw [List.mem_append, List.mem_singleton]
        exact not_or.2 ⟨hx, hxy⟩
      by_cases hvy : v = y
      · subst hvy
        exact .inr ⟨d.destroyed ++ [v], [], (List.append_nil _).symm, by simp, hnot⟩
      · exact .inl ⟨List.mem_filter.2 ⟨hv, decide_eq_true hvy⟩, hnot⟩
    · exact .inr ⟨before, after ++ [y], by rw [hlog, List.append_assoc], hv, hx⟩

theorem ViewFirst.mem_before (h : d.ViewFirst v x) {before after : List Object}
    (hlog : d.destroyed = before ++ x :: after) : v ∈ before := by
  rcases h with ⟨-, hx⟩ | ⟨first, rest, hsplit, hv, hx⟩
  · exact absurd (by simp [hlog]) hx
  · rw [hlog, List.append_eq_append_iff] at hsplit
    rcases hsplit with ⟨more, rfl, hmore⟩ | ⟨more, rfl, -⟩
    · cases more with
      | nil => simpa using hv
      | cons y more =>
        obtain ⟨rfl, -⟩ := List.cons.inj hmore
        exact absurd (by simp) hx
    · exact List.mem_append_left _ hv

end Headless

/-- A view that is there goes before what it shows. -/
theorem Ledger.viewFirst {f : Forest} {d : Headless} {spare : List (Handle .image)}
    (hl : Ledger f d spare) {v x : Object} (h : (v, x) ∈ d.views) : d.ViewFirst v x := by
  obtain ⟨-, i, j, -, -, hx⟩ := hl.mem_views_iff.1 h
  exact .inl ⟨h, hl.not_destroyed hx⟩

/-! ## A release is never refused -/

section
variable {f f' : Forest} {d d' : Headless} {spare : List (Handle .image)} {i j k : Nat}

/-- Whether a node has a view's object. -/
def Forest.HasView (f : Forest) (i : Nat) : Prop := ∃ v, f.Has i v ∧ v.isView = true

/-- A released node owns nothing, and no other node gets an object. -/
theorem releaseNode_owns {x : Object} (h : f.releaseNode d j = .ok (f', d')) (hk : f'.Owns k x) :
    f.Owns k x ∧ k ≠ j := by
  unfold Forest.releaseNode at h
  split at h
  · next hnone =>
    cases h
    refine ⟨hk, ?_⟩
    rintro rfl
    obtain ⟨n, hn, -⟩ := hk
    rw [hnone] at hn
    cases hn
  · next n hn =>
    obtain ⟨⟨p, e⟩, hrelease, h⟩ := Except.bind_eq_ok_iff.1 h
    cases h
    rw [Forest.modify_eq_put hn] at hk
    rcases (Forest.at_put_iff hn).1 hk with ⟨hkj, hk⟩ | ⟨-, hk⟩
    · exact ⟨hk, hkj⟩
    · exfalso
      have hk : p.owned? = some x := hk
      rcases release_destroys hrelease with ⟨hnone, rfl, -⟩ | ⟨y, -, hnone, -⟩
      · cases hnone.symm.trans hk
      · cases (Payload.owned?_of_object_none hnone).symm.trans hk

/-- A released node has no view, and no other node gets one. -/
theorem releaseNode_hasView (h : f.releaseNode d j = .ok (f', d')) (hk : f'.HasView k) :
    f.HasView k ∧ k ≠ j := by
  obtain ⟨v, hv, hview⟩ := hk
  obtain ⟨howns, hkj⟩ := releaseNode_owns h (hv.owns hview)
  exact ⟨⟨v, howns.has, hview⟩, hkj⟩

theorem releaseNode_children (h : f.releaseNode d j = .ok (f', d')) (i : Nat) :
    f'.children i = f.children i :=
  congrArg (·.children i) (Releases.hierarchy (.releaseNode h))

/-- A node can be released when no child of it has a view. -/
theorem Ledger.exists_releaseNode (hl : Ledger f d spare)
    (hviews : ∀ k ∈ f.children j, ¬ f.HasView k) :
    ∃ s, f.releaseNode d j = .ok s := by
  unfold Forest.releaseNode
  split
  · exact ⟨_, rfl⟩
  · next n hn =>
    have hunshown : ∀ x, n.payload.owned? = some x → ∀ v, (v, x) ∉ d.views := by
      intro x hx v hv
      have howns : f.Owns j x := ⟨n, hn, hx⟩
      obtain ⟨hview, i, k, hi, hik, hk⟩ := hl.mem_views_iff.1 hv
      have hmade : x ∈ d.made := List.mem_append_left _ ((hl.alive x).2 ⟨j, howns⟩)
      obtain rfl := hl.owner k j x (hl.owns_of_made hk hmade) howns
      exact hviews i hik ⟨v, hi, hview⟩
    obtain ⟨p, e, hrelease⟩ := exists_release hunshown
    exact ⟨_, Except.bind_eq_ok_iff.2 ⟨(p, e), hrelease, rfl⟩⟩

/-- Nodes can be released in an order in which children come before their parents. -/
theorem Ledger.exists_releaseNodes {js : List Nat} (hl : Ledger f d spare)
    (horder : ∀ pre j post, js = pre ++ j :: post → ∀ k ∈ f.children j, k ∈ pre ∨ ¬ f.HasView k) :
    ∃ s, js.foldlM (fun s j => s.1.releaseNode s.2 j) (f, d) = .ok s := by
  induction js generalizing f d with
  | nil => exact ⟨_, rfl⟩
  | cons j js ih =>
    have hfirst : ∀ k ∈ f.children j, ¬ f.HasView k := by
      intro k hk
      rcases horder [] j js rfl k hk with hk | hk
      · cases hk
      · exact hk
    obtain ⟨⟨f', d'⟩, hstep⟩ := hl.exists_releaseNode hfirst
    obtain ⟨s, hs⟩ := ih (hl.releases (.releaseNode hstep)) fun pre j' post hjs k hk => by
      rw [releaseNode_children hstep] at hk
      rcases horder (j :: pre) j' post (by rw [hjs]; rfl) k hk with hk | hk
      · rcases List.mem_cons.1 hk with rfl | hk
        · exact .inr fun h => (releaseNode_hasView hstep h).2 rfl
        · exact .inl hk
      · exact .inr fun h => hk (releaseNode_hasView hstep h).1
    refine ⟨s, ?_⟩
    rw [List.foldlM_cons]
    exact Except.bind_eq_ok_iff.2 ⟨_, hstep, hs⟩

/-- **A subtree can always be released.** -/
theorem Ledger.exists_releaseSubtree (hl : Ledger f d spare) (hf : f.WellFormed) (i : Nat) :
    ∃ s, f.releaseSubtree d i = .ok s := by
  refine hl.exists_releaseNodes fun pre j post hsplit k hk => .inl ?_
  have hwalk : f.hierarchy.subtreeTo f.hierarchy.length i = post.reverse ++ j :: pre.reverse := by
    have h := congrArg List.reverse hsplit
    simpa [Forest.subtree, Hierarchy.subtree] using h
  exact List.mem_reverse.1 (Hierarchy.children_after hf.ordered (Nat.le_add_left _ _) hwalk hk)

/-- Subtrees can be released one after the other. -/
theorem Ledger.exists_releaseSubtrees {is : List Nat} (hl : Ledger f d spare) (hf : f.WellFormed) :
    ∃ s, is.foldlM (fun s i => s.1.releaseSubtree s.2 i) (f, d) = .ok s := by
  induction is generalizing f d with
  | nil => exact ⟨_, rfl⟩
  | cons i is ih =>
    obtain ⟨⟨f', d'⟩, hstep⟩ := hl.exists_releaseSubtree hf i
    obtain ⟨hl', hf'⟩ := kept_by_all
      (P := fun s : Forest × Headless => Ledger s.1 s.2 spare ∧ s.1.WellFormed)
      (fun s s' h hs => ⟨hs.1.releases h, h.wellFormed hs.2⟩)
      (releaseSubtree_releases hstep) ⟨hl, hf⟩
    obtain ⟨s, hs⟩ := ih hl' hf'
    refine ⟨s, ?_⟩
    rw [List.foldlM_cons]
    exact Except.bind_eq_ok_iff.2 ⟨_, hstep, hs⟩

/-- **What is registered can be unmounted**, at any level of a tree. -/
theorem Ledger.exists_unmount (hl : Ledger f d spare) (hf : f.WellFormed) {name : String} {p : Place}
    (hp : f.find name = .ok p) (life : Nat) : ∃ r, f.unmount name life d = .ok r := by
  unfold Forest.unmount
  rw [hp]
  by_cases hlife : life ≤ p.node.life
  · exact ⟨_, if_pos hlife⟩
  · obtain ⟨s, hs⟩ := hl.exists_releaseSubtree hf p.index
    exact ⟨(true, s), (if_neg hlife).trans (Except.bind_eq_ok_iff.2 ⟨s, hs, rfl⟩)⟩

theorem Ledger.exists_unmountExpired (hl : Ledger f d spare) (hf : f.WellFormed) (life : Nat) :
    ∃ r, f.unmountExpired life d = .ok r := by
  obtain ⟨s, hs⟩ := hl.exists_releaseSubtrees hf
  exact ⟨((f.expired life).length, s), Except.bind_eq_ok_iff.2 ⟨s, hs, rfl⟩⟩

end

/-! ## Why operations stop -/

/-- Whether the fault is that of destroying what a view shows. -/
def Fault.isInUse : Fault → Bool
  | .bufferInUse _ => true
  | .imageInUse _ => true
  | _ => false

section
variable {α β : Type}

/-- Whether a computation, if it stops, does not stop because an object is in use. -/
def NeverInUse (x : Except Fault α) : Prop := ∀ e, x = .error e → e.isInUse = false

theorem NeverInUse.ok {a : α} : NeverInUse (.ok a) := by
  intro e h
  cases h

theorem NeverInUse.error {e : Fault} (h : e.isInUse = false) :
    NeverInUse (.error e : Except Fault α) := by
  intro e' he
  cases he
  exact h

theorem NeverInUse.of_exists {x : Except Fault α} (h : ∃ a, x = .ok a) : NeverInUse x := by
  obtain ⟨a, rfl⟩ := h
  exact .ok

theorem NeverInUse.bind {x : Except Fault α} {k : α → Except Fault β} (hx : NeverInUse x)
    (hk : ∀ a, NeverInUse (k a)) : NeverInUse (x >>= k) := by
  cases x with
  | error e =>
    intro e' he
    cases he
    exact hx e rfl
  | ok a => exact hk a

theorem NeverInUse.foldlM {step : β → α → Except Fault β} (hstep : ∀ b a, NeverInUse (step b a))
    (l : List α) (b : β) : NeverInUse (l.foldlM step b) := by
  induction l generalizing b with
  | nil => exact .ok
  | cons a l ih =>
    rw [List.foldlM_cons]
    exact (hstep b a).bind ih

end

namespace Forest

variable (f : Forest)

theorem find_neverInUse (name : String) : NeverInUse (f.find name) := by
  unfold find
  split
  · exact .ok
  · exact .error rfl

theorem insert_neverInUse (n : Node) : NeverInUse (f.insert n) := by
  unfold insert
  split
  · exact .error rfl
  · exact .ok

theorem origin_neverInUse (name : String) (kind : ResourceKind) :
    NeverInUse (f.origin name kind) := by
  refine (f.find_neverInUse name).bind fun p => ?_
  split
  · exact .ok
  · exact .error rfl

theorem addImageView_neverInUse (name origin : String) (desc : ImageViewDesc) :
    NeverInUse (f.addImageView name origin desc) :=
  (f.origin_neverInUse origin .image).bind fun _ => f.insert_neverInUse _

theorem acquire_neverInUse (name : String) (index : Nat) : NeverInUse (f.acquire name index) := by
  refine (f.find_neverInUse name).bind fun p => ?_
  split
  · split
    · exact .ok
    · exact .error rfl
  · exact .error rfl

theorem expandSwapchain_neverInUse (i : Nat) : NeverInUse (f.expandSwapchain i).result := by
  unfold expandSwapchain
  split
  · split
    · rw [Traced.result_bind, Traced.result_report]
      refine NeverInUse.bind .ok fun _ => ?_
      rw [Traced.result_foldlM]
      exact .foldlM (fun g _ => (g.insert_neverInUse _).bind fun g => g.insert_neverInUse _) _ _
    · exact .ok
  · exact .ok

theorem realize_neverInUse (name : String) (origin : Option Payload) (p : Payload) (d : Headless) :
    NeverInUse (p.realize name origin d) := by
  unfold Payload.realize
  split
  · exact .ok
  · exact .ok
  · exact .error rfl
  · exact .ok
  · exact .ok
  · exact .error rfl
  · exact .ok

theorem mountNode_neverInUse (d : Headless) (i : Nat) : NeverInUse (f.mountNode d i) := by
  unfold mountNode
  split
  · exact .ok
  · refine (realize_neverInUse _ _ _ d).bind fun r => ?_
    split
    · exact .ok
    · exact .ok

theorem mountNodes_neverInUse (d : Headless) (is : List Nat) : NeverInUse (f.mountNodes d is) := by
  induction is generalizing f d with
  | nil => exact .ok
  | cons i is ih =>
    refine (f.mountNode_neverInUse d i).bind fun r => ?_
    split
    · exact ih _ _
    · exact .ok

theorem mount_neverInUse (name : String) (d : Headless) :
    NeverInUse (f.mount name d).result := by
  unfold mount
  rw [Traced.result_bind]
  refine (f.find_neverInUse name).bind fun p => ?_
  rw [Traced.result_bind]
  exact (expandSwapchain_neverInUse _ _).bind fun g => g.mountNodes_neverInUse d _

end Forest

/-- **No operation stops because an object is in use**, where forest and device keep one ledger. -/
theorem Operation.neverInUse {f : Forest} {d : Headless} {spare : List (Handle .image)}
    (hl : Ledger f d spare) (hf : f.WellFormed) (o : Operation) : NeverInUse (o.run f d) := by
  cases o with
  | addBuffer name desc residency => exact (f.insert_neverInUse _).bind fun _ => .ok
  | addBufferView name origin desc =>
    refine ((f.origin_neverInUse origin .buffer).bind fun _ => ?_).bind fun _ => .ok
    exact f.insert_neverInUse _
  | addImage name desc residency =>
    refine ((f.insert_neverInUse _).bind fun g => ?_).bind fun _ => .ok
    exact g.addImageView_neverInUse _ _ _
  | addImageView name origin desc => exact (f.addImageView_neverInUse _ _ _).bind fun _ => .ok
  | addSwapchain name source =>
    refine NeverInUse.bind ?_ fun _ => .ok
    unfold Forest.addSwapchain
    split
    · exact .error rfl
    · exact f.insert_neverInUse _
  | acquire name index => exact (f.acquire_neverInUse name index).bind fun _ => .ok
  | mount name => exact (f.mount_neverInUse name d).bind fun _ => .ok
  | unmount name life =>
    refine NeverInUse.bind ?_ fun _ => .ok
    cases hp : f.find name with
    | error e =>
      have hstops : f.unmount name life d = .error e := by
        unfold Forest.unmount
        rw [hp]
        rfl
      rw [hstops]
      exact .error (f.find_neverInUse name e hp)
    | ok p => exact .of_exists (hl.exists_unmount hf hp life)
  | unmountExpired life =>
    exact (NeverInUse.of_exists (hl.exists_unmountExpired hf life)).bind fun _ => .ok

/-! ## Views go first -/

/-- **No object is destroyed while a view shows it, and every view goes before what it shows.** A
view that `w` has on a buffer or an image was destroyed before it wherever the run goes. -/
theorem views_destroyed_first {reuse : Bool} {w w' : World}
    (hr : ReflTransGen (World.Step reuse) {} w) (hr' : ReflTransGen (World.Step reuse) w w') :
    (∀ (o : Operation) e, o.run w'.forest w'.device = .error e → e.isInUse = false) ∧
    (∀ v b, (v, b) ∈ w.device.bufferViews → ∀ before after,
      w'.device.destroyed = before ++ .buffer b :: after → .bufferView v ∈ before) ∧
    ∀ v h, (v, h) ∈ w.device.imageViews → ∀ before after,
      w'.device.destroyed = before ++ .image h :: after → .imageView v ∈ before := by
  have hw := (World.Intact.empty.run hr).1
  obtain ⟨hw', hd⟩ := hw.run hr'
  have hfirst {v x : Object} (h : (v, x) ∈ w.device.views) : w'.device.ViewFirst v x :=
    kept_by_all (P := fun d => d.ViewFirst v x) (fun _ _ hd h => h.change hd) hd
      (hw.ledger.viewFirst h)
  refine ⟨fun o => o.neverInUse hw'.ledger hw'.wellFormed, fun v b h before after hlog => ?_,
    fun v h hv before after hlog => ?_⟩
  · exact (hfirst (Headless.mem_views_buffer.2 h)).mem_before hlog
  · exact (hfirst (Headless.mem_views_image.2 hv)).mem_before hlog

/-! ### An image that gets another view while it is mounted -/

namespace Sky

def forest (image : Option (Handle .image)) (first second : Option (Handle .imageView)) :
    Forest where
  nodes := [
    { name := "sky", residency := .transient, payload := .image {} image false, life := 2 },
    { name := "sky/sky"
      residency := .transient
      payload := .imageView (ImageDesc.defaultView {}) "sky" first
      parent := some 0
      life := 2 },
    { name := "sky/raw"
      residency := .transient
      payload := .imageView (ImageDesc.defaultView {}) "sky" second
      parent := some 0
      life := 2 }]
  life := 2

def mounted : World where
  forest := forest (some ⟨1⟩) (some ⟨2⟩) (some ⟨3⟩)
  device := {
    lastHandle := 3
    created := { images := 1, imageViews := 2 }
    images := [(⟨1⟩, "sky")]
    imageViews := [(⟨2⟩, ⟨1⟩), (⟨3⟩, ⟨1⟩)] }

def released : World where
  forest := forest none none none
  device := {
    lastHandle := 3
    created := { images := 1, imageViews := 2 }
    destroyed := [.imageView ⟨3⟩, .imageView ⟨2⟩, .image ⟨1⟩] }

theorem steps_mounted : ReflTransGen (World.Step true) {} mounted :=
  .tail (.tail (.tail (.tail .refl
    (.operate (o := .addImage "sky" {} .transient) (by decide) (by decide) rfl))
    (.operate (o := .mount "sky") (by decide) (by decide) rfl))
    (.operate (o := .addImageView "sky/raw" "sky" (ImageDesc.defaultView {})) (by decide)
      (by decide) rfl))
    (.operate (o := .mount "sky/raw") (by decide) (by decide) rfl)

theorem steps_released : ReflTransGen (World.Step true) mounted released :=
  .single (.operate (o := .unmount "sky" 3) (by decide) (by decide) rfl)

end Sky

theorem views_destroyed_first_sky : ReflTransGen (World.Step true) {} Sky.mounted ∧
    ReflTransGen (World.Step true) Sky.mounted Sky.released ∧
    (⟨3⟩, ⟨1⟩) ∈ Sky.mounted.device.imageViews ∧
    .imageView ⟨3⟩ ∈ [Destroyed.imageView ⟨3⟩, Destroyed.imageView ⟨2⟩] := by
  have hview : ((⟨3⟩ : Handle .imageView), (⟨1⟩ : Handle .image)) ∈
      Sky.mounted.device.imageViews := by decide
  have hall := views_destroyed_first Sky.steps_mounted Sky.steps_released
  exact ⟨Sky.steps_mounted, Sky.steps_released, hview, hall.2.2 ⟨3⟩ ⟨1⟩ hview _ [] rfl⟩

end FrameGraph
