import FrameGraph.Device.Headless
import FrameGraph.Proofs.Carried
import FrameGraph.Proofs.Objects
import FrameGraph.Proofs.Sessions

/-!
# The states that nodes carry

A node carries the state in which the last frame left it into the next frame. Four things bear on
it: a frame writes it back, a release forgets it, a mount leaves it as it is, and the images of a
swapchain are shown at the end of a frame and never released. What comes of them in any session is
`Node.CarriesFit`: above all, no object starts from a state in which another one was left
(`carries_fit`).
-/

set_option autoImplicit false

namespace FrameGraph

open Relation (ReflTransGen)

/-! ## The layout of what is accessed -/

/-- A mask of one flag is part of every mask that has the flag. -/
theorem Mask.subset_of_bit {κ : Vocabulary} {k : Nat} {m a : Mask κ}
    (hm : m.bits = BitVec.twoPow 64 k) (hk : k ∈ a) : m ⊆ a := by
  refine subset_iff.2 fun i hi => ?_
  rw [mem_def, hm, BitVec.getLsbD_twoPow, Bool.and_eq_true, decide_eq_true_iff,
    decide_eq_true_iff] at hi
  rw [← hi.2]
  exact hk

namespace Usage

variable {access : AccessMask} {format : Format}

theorem ite_ne_of {c : Prop} [Decidable c] {a b l : ImageLayout} (ha : a ≠ l) (hb : ¬ c → b ≠ l) :
    (if c then a else b) ≠ l := by
  by_cases hc : c
  · rw [if_pos hc]
    exact ha
  · rw [if_neg hc]
    exact hb hc

theorem eq_of_mem_laidOut {i : Nat} (hi : i ∈ laidOut) :
    i = 4 ∨ i = 5 ∨ i = 6 ∨ i = 8 ∨ i = 10 ∨ i = 11 ∨ i = 12 ∨ i = 23 := by
  have hall : ∀ j < 64, j ∈ laidOut →
      j = 4 ∨ j = 5 ∨ j = 6 ∨ j = 8 ∨ j = 10 ∨ j = 11 ∨ j = 12 ∨ j = 23 := by decide
  exact hall i (BitVec.lt_of_getLsbD hi) hi

/-- An access that has a layout puts the image into one, whatever else is accessed. -/
theorem imageLayout_ne_undefined {i : Nat} (h : i ∈ access) (hi : i ∈ laidOut) :
    imageLayout access format ≠ .undefined := by
  unfold imageLayout
  refine ite_ne_of (by decide) fun hwrite => ite_ne_of (by decide) fun hread => ?_
  refine ite_ne_of (by decide) fun hwrites => ite_ne_of (by decide) fun hreads => ?_
  refine ite_ne_of (by decide) fun hinput => ite_ne_of (by decide) fun hcolor => ?_
  refine ite_ne_of (ite_ne_of (by decide) fun _ => by decide) fun hdepth => ?_
  refine ite_ne_of (by decide) fun hrate => ?_
  -- no branch is taken, so none of the accesses is made
  rcases eq_of_mem_laidOut hi with rfl | rfl | rfl | rfl | rfl | rfl | rfl | rfl
  · exact absurd (Mask.subset_of_bit (by decide) h) hinput
  · exact absurd (Mask.meets_iff.2 ⟨5, h, by decide⟩) hreads
  · exact absurd (Mask.meets_iff.2 ⟨6, h, by decide⟩) hwrites
  · exact absurd (Mask.subset_of_bit (by decide) h) hcolor
  · exact absurd (Mask.subset_of_bit (by decide) h) hdepth
  · exact absurd (Mask.subset_of_bit (by decide) h) hread
  · exact absurd (Mask.subset_of_bit (by decide) h) hwrite
  · exact absurd (Mask.subset_of_bit (by decide) h) hrate

/-- No access asks for the layout in which an image is shown. -/
theorem imageLayout_ne_presentSrc (access : AccessMask) (format : Format) :
    imageLayout access format ≠ .presentSrc := by
  unfold imageLayout
  refine ite_ne_of (by decide) fun _ => ite_ne_of (by decide) fun _ => ?_
  refine ite_ne_of (by decide) fun _ => ite_ne_of (by decide) fun _ => ?_
  refine ite_ne_of (by decide) fun _ => ite_ne_of (by decide) fun _ => ?_
  refine ite_ne_of (ite_ne_of (by decide) fun _ => by decide) fun _ => ?_
  exact ite_ne_of (by decide) fun _ => by decide

end Usage

/-! ## What a frame leaves -/

/-- A state keeps the layout that all entries share. -/
theorem Move.layout_along {joins : AccessState → AccessState → Bool} {s : AccessState}
    {es : List TimelineEntry} {l : ImageLayout} (hs : s.layout = l)
    (hes : ∀ e ∈ es, e.state.layout = l) : (along joins s es).2.layout = l := by
  induction es generalizing s with
  | nil => exact hs
  | cons e es ih =>
    obtain ⟨he, hes⟩ := List.forall_mem_cons.1 hes
    cases hj : joins s e.state with
    | true =>
      rw [along_joined hj]
      exact ih hs hes
    | false =>
      rw [along_moved hj]
      exact ih he hes

namespace Timeline

variable {t : Timeline}

/-- A buffer is left without a layout. -/
theorem layout_finish_of_buffer (hkind : t.node.kind = .buffer)
    (hcurrent : t.node.current.layout = .undefined)
    (hentries : ∀ e ∈ t.entries, e.state.layout = .undefined) : t.finish.layout = .undefined := by
  have hshown : ¬ t.isShown = true := by
    simp [isShown, Node.imageDesc?_of_buffer hkind]
  have hstart : t.start.layout = .undefined := by
    unfold start
    split
    · rfl
    · exact hcurrent
  rw [finish, if_neg hshown, reduction_of_buffer hkind]
  exact Move.layout_along hstart hentries

/-- An image of a swapchain is left ready to be shown. -/
theorem finish_of_swapchain (hkind : t.node.kind = .image) (hres : t.node.residency = .swapchain) :
    t.finish = .present :=
  if_pos (by rw [isShown, Node.isSome_imageDesc hkind, hres]; rfl)

/-- Another image is left in the layout of its last access. -/
theorem layout_finish_of_image (hkind : t.node.kind = .image)
    (hres : t.node.residency ≠ .swapchain) (hused : t.entries ≠ []) :
    ∃ e ∈ t.entries, t.finish.layout = e.state.layout := by
  have hshown : ¬ t.isShown = true := by simp [isShown, hres]
  refine ⟨_, List.getLast_mem hused, ?_⟩
  rw [finish, if_neg hshown, reduction_of_image hkind]
  conv_lhs => rw [← List.dropLast_append_getLast hused]
  exact (Move.last_snoc _ _ _).2.1

end Timeline

section
variable {passes : List Pass} {f f' : Forest} {shaders : Registry} {uses : List PassUses}
  {a : Analysis} {n : Node} {i : Nat} {e : TimelineEntry}

/-- An image is accessed in a layout, and never in the one in which it is shown. -/
theorem layout_of_entry (huses : (frameUses f shaders passes).result = .ok uses)
    (hn : f.nodes[i]? = some n) (hkind : n.kind = .image)
    (he : e ∈ (Timeline.ofNode i n (uses.map (·.uses))).entries) :
    e.state.layout ≠ .undefined ∧ e.state.layout ≠ .presentSrc := by
  obtain ⟨k, us, u, hus, hu, rfl⟩ := Timeline.mem_entriesFrom_iff.1 he
  obtain ⟨v, hv⟩ := Timeline.isSome_usageIn_iff.1 (Option.isSome_of_mem hu)
  obtain ⟨pass, -, use, -, hdeclares⟩ := exists_declares huses (List.mem_of_getElem? hus) hv
  obtain ⟨n', hn', -, b, hb, hlaid⟩ := hdeclares.nodes
  rw [hn] at hn'
  obtain rfl := Option.some.inj hn'
  have haccess := (Timeline.mem_access_usageIn_iff hu).2 ⟨v, hv, hb⟩
  obtain ⟨desc, hdesc⟩ := Option.isSome_iff_exists.1 (n.isSome_imageDesc hkind)
  have hlayout : (u.stateOf n).layout = Usage.imageLayout u.access desc.format := by
    simp [Usage.stateOf, hdesc]
  rw [hlayout]
  have hbuffer : n.isBufferLike = false := by simp [Node.isBufferLike, hkind]
  exact ⟨Usage.imageLayout_ne_undefined haccess (hlaid hbuffer),
    Usage.imageLayout_ne_presentSrc _ _⟩

/-- A buffer is accessed in no layout. -/
theorem layout_of_buffer_entry {frame : List (List NodeUse)} (hkind : n.kind = .buffer)
    (he : e ∈ (Timeline.ofNode i n frame).entries) : e.state.layout = .undefined := by
  obtain ⟨k, us, u, -, -, rfl⟩ := Timeline.mem_entriesFrom_iff.1 he
  simp [Usage.stateOf, n.imageDesc?_of_buffer hkind]

end

/-! ## States that fit their nodes -/

/-- Whether a node carries a state that fits it. -/
structure Node.CarriesFit (n : Node) : Prop where
  /-- Accesses through a view or a swapchain are recorded on what is behind it. -/
  untracked : ¬ n.IsTracked → n.current = .undefined
  dontCare : n.residency = .dontCare → n.current = .undefined
  /-- An object that is made starts from the undefined state. -/
  unbacked : n.isBacked = false → n.current = .undefined
  buffer : n.kind = .buffer → n.current.layout = .undefined
  /-- The residency tells the images of a swapchain, which a frame leaves ready to be shown. -/
  shown : n.kind = .image → n.residency = .swapchain →
    n.current = .undefined ∨ n.current = .present
  image : n.kind = .image → n.residency ≠ .swapchain →
    n.current = .undefined ∨ n.current.layout ≠ .undefined ∧ n.current.layout ≠ .presentSrc
  /-- Only the images of a swapchain are made elsewhere. -/
  external : n.payload.isExternal = true → n.residency = .swapchain

namespace Node

variable {n n' : Node}

theorem CarriesFit.of_undefined (h : n.current = .undefined)
    (hexternal : n.payload.isExternal = true → n.residency = .swapchain) : n.CarriesFit where
  untracked _ := h
  dontCare _ := h
  unbacked _ := h
  buffer _ := by rw [h]; rfl
  shown _ _ := .inl h
  image _ _ := .inl h
  external := hexternal

/-- A node goes on carrying its state while it keeps its object. -/
theorem CarriesFit.of_keeps (h : n.CarriesFit) (hk : n.Keeps n') (hcurrent : n'.current = n.current)
    (hexternal : n'.payload.isExternal = n.payload.isExternal)
    (hbacked : n'.isBacked = false → n.current = .undefined) : n'.CarriesFit where
  untracked := by
    unfold IsTracked
    rw [hcurrent, hk.kind]
    exact h.untracked
  dontCare := by
    rw [hcurrent, hk.residency]
    exact h.dontCare
  unbacked hb := hcurrent.trans (hbacked hb)
  buffer := by
    rw [hcurrent, hk.kind]
    exact h.buffer
  shown := by
    rw [hcurrent, hk.kind, hk.residency]
    exact h.shown
  image := by
    rw [hcurrent, hk.kind, hk.residency]
    exact h.image
  external := by
    rw [hexternal, hk.residency]
    exact h.external

end Node

/-- Whether every node carries a state that fits it. -/
def Forest.CarriesFit (f : Forest) : Prop := ∀ (i : Nat) n, f.nodes[i]? = some n → n.CarriesFit

namespace Forest

variable {f : Forest} {n m : Node} {i : Nat}

theorem CarriesFit.push (h : f.CarriesFit) (hn : n.CarriesFit) : (f.push n).CarriesFit := by
  intro j m hm
  rcases nodes_push_cases hm with hm | ⟨-, rfl⟩
  · exact h j m hm
  · exact hn

theorem CarriesFit.put (h : f.CarriesFit) (hn : f.nodes[i]? = some n) (hm : m.CarriesFit) :
    (f.put i m).CarriesFit := by
  intro j m' hm'
  rcases nodes_put_cases hn hm' with hm' | ⟨-, rfl⟩
  · exact h j m' hm'
  · exact hm

end Forest

/-! ## Operations -/

section
variable {δ : Type} [Device δ] {d d' : δ}

/-- What is released without forgetting its state keeps its object, or carries no state at all. -/
theorem release_of_remembered {p p' : Payload} (hforgets : p.forgetsState = false)
    (h : p.release d = .ok (p', d')) : p' = p ∨ p.kind.isView = true := by
  cases p with
  | buffer desc handle => cases hforgets
  | bufferView desc origin handle => exact .inr rfl
  | image desc handle external =>
    obtain rfl : external = true := by simpa [Payload.forgetsState] using hforgets
    cases handle with
    | none =>
      cases h
      exact .inl rfl
    | some handle =>
      cases h
      exact .inl rfl
  | imageView desc origin handle => exact .inr rfl
  | swapchain source acquired =>
    cases h
    exact .inl rfl

theorem Grows.carriesFit {s s' : Forest × δ} (h : Grows s s') (hs : s.1.CarriesFit) :
    s'.1.CarriesFit := by
  cases h with
  | clock f d => exact hs
  | register d h =>
    have hinside := Payload.isExternal_of_inside h.inside
    exact hs.push (.of_undefined h.current fun hexternal =>
      Bool.noConfusion (hinside.symm.trans hexternal))
  | unfold d h => exact hs.push (.of_undefined h.current fun _ => h.residency)
  | acquire d index hn hp =>
    refine hs.put hn ((hs _ _ hn).of_keeps ⟨rfl, rfl, rfl, ?_⟩ rfl ?_ ?_)
    · rw [Node.kind, Node.kind, hp]
      rfl
    · rw [hp]
      rfl
    · exact Bool.noConfusion
  | mountNode h =>
    rcases mountNode_ok h with ⟨rfl, rfl⟩ | ⟨m, outcome, hm, hrealize, rfl⟩
    · exact hs
    · have hbare := bare_of_realize hrealize
      refine hs.put hm ((hs _ _ hm).of_keeps ⟨rfl, rfl, rfl, kind_of_bare hbare⟩ rfl ?_ fun hb => ?_)
      · rw [← Payload.isExternal_bare, hbare, Payload.isExternal_bare]
      · -- a node that has no object now had none before
        refine (hs _ _ hm).unbacked (Bool.eq_false_iff.2 fun hbacked => ?_)
        rw [realize_of_backed hbacked] at hrealize
        obtain ⟨rfl, -⟩ := Prod.mk.inj (Except.ok.inj hrealize)
        exact Bool.noConfusion (hb.symm.trans hbacked)

theorem Releases.carriesFit {s s' : Forest × δ} (h : Releases s s') (hs : s.1.CarriesFit) :
    s'.1.CarriesFit := by
  obtain ⟨h⟩ := h
  rcases releaseNode_ok h with ⟨rfl, rfl⟩ | ⟨m, payload, hm, hrelease, rfl⟩
  · exact hs
  · have hbare := bare_of_release hrelease
    have hexternal : payload.isExternal = m.payload.isExternal := by
      rw [← Payload.isExternal_bare, hbare, Payload.isExternal_bare]
    refine hs.put hm ?_
    by_cases hforgets : m.payload.forgetsState = true
    · refine .of_undefined (if_pos hforgets) ?_
      rw [hexternal]
      exact (hs _ _ hm).external
    · refine (hs _ _ hm).of_keeps ⟨rfl, rfl, rfl, kind_of_bare hbare⟩ (if_neg hforgets) hexternal
        fun hb => ?_
      rcases release_of_remembered (Bool.eq_false_iff.2 hforgets) hrelease with rfl | hview
      · exact (hs _ _ hm).unbacked hb
      · refine (hs _ _ hm).untracked ?_
        rintro (hkind | hkind)
        · rw [Node.kind] at hkind
          rw [hkind] at hview
          cases hview
        · rw [Node.kind] at hkind
          rw [hkind] at hview
          cases hview

/-- **Operations leave states that fit.** -/
theorem Operation.carriesFit {o : Operation} {f f' : Forest} (h : o.run f d = .ok (f', d'))
    (hf : f.CarriesFit) : f'.CarriesFit := by
  rcases o.run_cases h with ⟨-, hgrows⟩ | ⟨-, hreleases⟩ | ⟨name, source, -, -, rfl, -⟩
  · exact kept_by_all (P := fun s => s.1.CarriesFit) (fun _ _ => Grows.carriesFit) hgrows hf
  · exact kept_by_all (P := fun s => s.1.CarriesFit) (fun _ _ => Releases.carriesFit) hreleases hf
  · exact hf.push (.of_undefined rfl fun _ => rfl)

/-- Whether every node of `g` carries what it carries in `f`, or no state. -/
def Forest.CarriesFrom (f g : Forest) : Prop := ∀ (i : Nat) n', g.nodes[i]? = some n' →
  n'.current = .undefined ∨ ∃ n, f.nodes[i]? = some n ∧ n'.current = n.current

namespace Forest

variable {f g : Forest} {n m : Node} {i : Nat}

theorem CarriesFrom.refl (f : Forest) : f.CarriesFrom f := fun _ n hn => .inr ⟨n, hn, rfl⟩

theorem CarriesFrom.push (h : f.CarriesFrom g) (hn : n.current = .undefined) :
    f.CarriesFrom (g.push n) := by
  intro j m hm
  rcases nodes_push_cases hm with hm | ⟨-, rfl⟩
  · exact h j m hm
  · exact .inl hn

theorem CarriesFrom.put (h : f.CarriesFrom g) (hn : g.nodes[i]? = some n)
    (hm : m.current = .undefined ∨ m.current = n.current) : f.CarriesFrom (g.put i m) := by
  intro j m' hm'
  rcases nodes_put_cases hn hm' with hm' | ⟨rfl, rfl⟩
  · exact h j m' hm'
  · rcases hm with hm | hm
    · exact .inl hm
    · rw [hm]
      exact h j n hn

end Forest

theorem Grows.carriesFrom {f : Forest} {s s' : Forest × δ} (h : Grows s s')
    (hs : f.CarriesFrom s.1) : f.CarriesFrom s'.1 := by
  cases h with
  | clock f d => exact hs
  | register d h => exact hs.push h.current
  | unfold d h => exact hs.push h.current
  | acquire d index hn hp => exact hs.put hn (.inr rfl)
  | mountNode h =>
    rcases mountNode_ok h with ⟨rfl, rfl⟩ | ⟨m, outcome, hm, -, rfl⟩
    · exact hs
    · exact hs.put hm (.inr rfl)

theorem Releases.carriesFrom {f : Forest} {s s' : Forest × δ} (h : Releases s s')
    (hs : f.CarriesFrom s.1) : f.CarriesFrom s'.1 := by
  obtain ⟨h⟩ := h
  rcases releaseNode_ok h with ⟨rfl, rfl⟩ | ⟨m, payload, hm, -, rfl⟩
  · exact hs
  · exact hs.put hm (ite_eq_or_eq _ _ _)

/-- **Between frames a node keeps its state or loses it**, and a new one has none. -/
theorem Operation.carriesFrom {o : Operation} {f f' : Forest} (h : o.run f d = .ok (f', d')) :
    f.CarriesFrom f' := by
  rcases o.run_cases h with ⟨-, hgrows⟩ | ⟨-, hreleases⟩ | ⟨name, source, -, -, rfl, -⟩
  · exact kept_by_all (P := fun s => f.CarriesFrom s.1) (fun _ _ => Grows.carriesFrom) hgrows
      (.refl f)
  · exact kept_by_all (P := fun s => f.CarriesFrom s.1) (fun _ _ => Releases.carriesFrom) hreleases
      (.refl f)
  · exact (Forest.CarriesFrom.refl f).push rfl

end

/-! ## Frames -/

section
variable {passes : List Pass} {f f' : Forest} {shaders : Registry} {a : Analysis}

/-- Whether a pass declares an access to the node at a position. -/
def Forest.IsAccessed (f : Forest) (passes : List Pass) (i : Nat) : Prop :=
  ∃ pass ∈ passes, ∃ use ∈ pass.uses, ∃ p, f.tracked use.resource = .ok p ∧ p.index = i

/-- Whether a frame changes nothing but the states that some of the accessed nodes carry. -/
structure Forest.OnlyCarries (f f' : Forest) (passes : List Pass) : Prop where
  life : f'.life = f.life
  size : f'.size = f.size
  node : ∀ (i : Nat) n, f.nodes[i]? = some n → ∃ s, f'.nodes[i]? = some { n with current := s } ∧
    (s = n.current ∨ n.residency ≠ .dontCare ∧ f.IsAccessed passes i)

/-- A node that a frame touches is one that a pass declares an access to. -/
theorem isAccessed_of_touched {uses : List PassUses} {i : Nat}
    (huses : (frameUses f shaders passes).result = .ok uses)
    (hi : i ∈ Timeline.touched (uses.map (·.uses))) : f.IsAccessed passes i := by
  obtain ⟨us, hus, v, hv⟩ := Timeline.mem_touched.1 hi
  obtain ⟨pass, hpass, use, huse, p, hp, -, -, hindex⟩ := exists_declares huses hus hv
  exact ⟨pass, hpass, use, huse, p, hp, hindex.symm⟩

/-- **A frame changes nothing but the states of nodes that it accesses**, and none whose contents
do not matter. -/
theorem onlyCarries_of_frame (h : (analyze passes f shaders).result = .ok (a, f')) :
    f.OnlyCarries f' passes := by
  obtain ⟨uses, huses, rfl, rfl⟩ := analyze_ok_iff.1 h
  refine ⟨f.life_carry _, ?_, fun i n hn => ?_⟩
  · rw [← Forest.length_hierarchy, Forest.hierarchy_carry, Forest.length_hierarchy]
  · obtain ⟨s, hs, hlast⟩ := Forest.exists_carry (Analysis.ofUses f uses).timelines hn
    refine ⟨s, hs, ?_⟩
    rcases hlast with ⟨t, ht, rfl, hres, -⟩ | ⟨hs, -⟩
    · obtain ⟨htouched, hnode, -⟩ := Timeline.mem_ofFrame_iff.1 ht
      rw [hn] at hnode
      obtain rfl := Option.some.inj hnode
      exact .inr ⟨hres, isAccessed_of_touched huses htouched⟩
    · exact .inl hs

/-- A node that a frame touches has an object, and accesses are recorded on it. -/
theorem isTracked_of_touched {uses : List PassUses} {i : Nat} {n : Node} (hf : f.Seated)
    (huses : (frameUses f shaders passes).result = .ok uses) (hn : f.nodes[i]? = some n)
    (hi : i ∈ Timeline.touched (uses.map (·.uses))) : n.IsTracked := by
  obtain ⟨pass, -, use, -, p, hp, rfl⟩ := isAccessed_of_touched huses hi
  have hnode := Forest.nodes_of_tracked hp
  rw [hn] at hnode
  obtain rfl := Option.some.inj hnode
  exact hf.isTracked hp

/-- What a frame makes of a node fits it again. -/
theorem carriesFit_after {uses : List PassUses} {i : Nat} {n : Node} (hf : f.Seated)
    (huses : (frameUses f shaders passes).result = .ok uses) (hn : f.nodes[i]? = some n)
    (hfit : n.CarriesFit) : (Timeline.ofNode i n (uses.map (·.uses))).after.CarriesFit := by
  by_cases hidle : n.residency = .dontCare ∨
      (Timeline.ofNode i n (uses.map (·.uses))).entries = []
  · have hsame : (Timeline.ofNode i n (uses.map (·.uses))).after = n := by
      unfold Timeline.after
      rw [Timeline.left_of_idle hidle]
      rfl
    rw [hsame]
    exact hfit
  · obtain ⟨hres, hused⟩ := not_or.1 hidle
    have hleft := Timeline.left_of_used (t := .ofNode i n (uses.map (·.uses))) hres hused
    have htouched := Timeline.mem_touched_iff.2 hused
    have htracked := isTracked_of_touched hf huses hn htouched
    have hbacked : n.isBacked = true := by
      obtain ⟨n', hn', hbacked⟩ := exists_node_of_touched huses htouched
      rw [hn] at hn'
      obtain rfl := Option.some.inj hn'
      exact hbacked
    exact {
      untracked := fun hnot => absurd htracked hnot
      dontCare := fun hdont => absurd hdont hres
      unbacked := fun hnot => absurd (hbacked.symm.trans hnot) Bool.noConfusion
      buffer := fun hkind => by
        show (Timeline.left _).layout = .undefined
        rw [hleft]
        refine Timeline.layout_finish_of_buffer hkind (hfit.buffer hkind) fun e he => ?_
        exact layout_of_buffer_entry (n := n) hkind he
      shown := fun hkind hswapchain => by
        show Timeline.left _ = .undefined ∨ Timeline.left _ = .present
        rw [hleft]
        exact .inr (Timeline.finish_of_swapchain hkind hswapchain)
      image := fun hkind hown => by
        show Timeline.left _ = .undefined ∨
          (Timeline.left _).layout ≠ .undefined ∧ (Timeline.left _).layout ≠ .presentSrc
        rw [hleft]
        obtain ⟨e, he, hlayout⟩ := Timeline.layout_finish_of_image hkind hown hused
        rw [hlayout]
        exact .inr (layout_of_entry huses hn hkind he)
      external := hfit.external }

/-- **A frame leaves states that fit.** -/
theorem carriesFit_of_frame (hf : f.Seated) (h : (analyze passes f shaders).result = .ok (a, f'))
    (hfit : f.CarriesFit) : f'.CarriesFit := by
  obtain ⟨uses, huses, rfl, rfl⟩ := analyze_ok_iff.1 h
  intro i n' hn'
  have hnodes := nodes_carry_ofFrame f (uses.map (·.uses)) i
  obtain ⟨n, hn, rfl⟩ := Option.map_eq_some_iff.1 (hnodes.symm.trans hn')
  exact carriesFit_after hf huses hn (hfit i n hn)

end

/-! ## Sessions -/

/-- **In every session, every node carries a state that fits it**, and every frame changes nothing
but the states of nodes that it accesses. -/
theorem carries_fit {δ : Type} [Device δ] {Aside : ObjectCache × δ → ObjectCache × δ → Prop} {d : δ}
    {s : Session δ} (h : ReflTransGen (Session.Step Aside) { device := d } s) :
    s.forest.CarriesFit ∧ ∀ (passes : List Pass) (shaders : Registry) (a : Analysis) (f : Forest),
      (analyze passes s.forest shaders).result = .ok (a, f) → s.forest.OnlyCarries f passes := by
  have hkept : s.forest.Seated ∧ s.forest.CarriesFit := by
    refine Session.forest_kept (P := fun f => f.Seated ∧ f.CarriesFit)
      (fun ho hf => ⟨Operation.seated ho hf.1, Operation.carriesFit ho hf.2⟩)
      (fun ha hf => ⟨seated_of_frame ha hf.1, carriesFit_of_frame hf.1 ha hf.2⟩) h ⟨.empty, ?_⟩
    intro i n hn
    simp at hn
  exact ⟨hkept.2, fun _ _ _ _ ha => onlyCarries_of_frame ha⟩

/-! ### Notes that are copied into a window, released and mounted again -/

namespace Notes

def source : SwapchainImport := ⟨[⟨7⟩], .b8g8r8a8Unorm, ⟨4, 4⟩⟩

def forest (life : Nat) (notes : Option (Handle .buffer)) (written shown : AccessState) :
    Forest where
  nodes := [
    { name := "notes"
      residency := .persistent
      payload := .buffer (.uniform 16) notes
      life
      current := written },
    { name := "window", residency := .swapchain, payload := .swapchain source 0, life := 2 },
    { name := "window/0"
      residency := .swapchain
      payload := .image source.imageDesc (some ⟨7⟩) true
      parent := some 1
      life := 2
      current := shown },
    { name := "window/0/window/0"
      residency := .swapchain
      payload := .imageView source.imageDesc.defaultView "window/0" (some ⟨2⟩)
      parent := some 2
      life := 2 }]
  life := max 2 life

def device : Headless where
  lastHandle := 2
  created := { buffers := 1, imageViews := 1 }
  buffers := [(⟨1⟩, "notes")]
  imageViews := [(⟨2⟩, ⟨7⟩)]

def passes : List Pass := [⟨"show", .copy, Use.copy "notes" "window"⟩]

def uses : List PassUses :=
  [⟨[⟨0, .transfer, .transferRead⟩, ⟨2, .transfer, .transferWrite⟩], none⟩]

def mounted : Session Headless where
  forest := forest 1 (some ⟨1⟩) .undefined .undefined
  device := device

/-- After the frame: the notes have been read and the window is shown. -/
def used : Session Headless where
  forest := forest 1 (some ⟨1⟩)
    (AccessState.undefined.mergeRead (.ofBuffer .transfer .transferRead)) .present
  device := device

/-- With new notes, which nothing has read. -/
def remounted : Session Headless where
  forest := forest 3 (some ⟨3⟩) .undefined .present
  device := {
    lastHandle := 3
    created := { buffers := 2, imageViews := 1 }
    buffers := [(⟨3⟩, "notes")]
    imageViews := [(⟨2⟩, ⟨7⟩)]
    destroyed := [.buffer ⟨1⟩] }

abbrev Run := ReflTransGen (Session.Step (δ := Headless) fun _ _ => False)

theorem run_mounted : Run { device := {} } mounted :=
  .tail (.tail (.tail (.tail .refl
    (.operate (o := .addBuffer "notes" (.uniform 16) .persistent) rfl))
    (.operate (o := .addSwapchain "window" source) rfl))
    (.operate (o := .mount "notes") rfl))
    (.operate (o := .mount "window") rfl)

theorem analyze_mounted : (analyze passes mounted.forest {}).result =
    .ok (Analysis.ofUses mounted.forest uses, used.forest) := rfl

theorem run_used : Run { device := {} } used := run_mounted.tail (.frame analyze_mounted)

theorem run_remounted : Run used remounted :=
  .tail (.tail .refl
    (.operate (o := .unmount "notes" 2) rfl))
    (.operate (o := .mount "notes") rfl)

end Notes

theorem carries_fit_notes :
    Notes.Run { device := {} } Notes.mounted ∧
    Notes.mounted.forest.OnlyCarries Notes.used.forest Notes.passes ∧
    Notes.Run Notes.used Notes.remounted ∧ Notes.remounted.forest.CarriesFit :=
  ⟨Notes.run_mounted, (carries_fit Notes.run_mounted).2 _ _ _ _ Notes.analyze_mounted,
    Notes.run_remounted, (carries_fit (Notes.run_used.trans Notes.run_remounted)).1⟩

end FrameGraph
