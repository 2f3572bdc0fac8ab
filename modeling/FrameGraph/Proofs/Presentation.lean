import FrameGraph.Proofs.CarriedStates
import FrameGraph.Proofs.Kinship
import FrameGraph.Proofs.Records

/-!
# Images that are shown

The images of a swapchain go round: a frame takes those that it accesses from the state in which they
were shown, or from the undefined state the first time, and makes them ready to be shown again. A
history (`Session.Recalls`) tells which images were accessed in earlier frames, and the state that an
image carries tells the same (`Forest.Remembers`). So the barriers of each frame on its images are
known (`Analysis.Presents`), whichever images are acquired and under whatever names they are used
(`presents_all`).
-/

set_option autoImplicit false

namespace FrameGraph

open Relation (ReflTransGen)

/-- Whether a node is an image that is shown. Its residency tells: all images of a swapchain have
this one. -/
def Node.IsShown (n : Node) : Prop := n.kind = .image ∧ n.residency = .swapchain

theorem Timeline.isShown_iff {t : Timeline} : t.isShown = true ↔ t.node.IsShown := by
  unfold isShown Node.IsShown Node.imageDesc? Node.kind
  cases t.node.payload <;> simp [Payload.kind]

/-! ## The last run of a timeline -/

namespace Move

/-- A run without moves has the stages of all its entries. -/
theorem mem_stage_of_no_moves {s : AccessState} {es : List TimelineEntry} {bit : Nat}
    (h : (along imagesJoin s es).1 = []) : bit ∈ (along imagesJoin s es).2.stage ↔
      bit ∈ s.stage ∨ ∃ e ∈ es, bit ∈ e.state.stage := by
  induction es generalizing s with
  | nil => simp [along]
  | cons e es ih =>
    cases hj : imagesJoin s e.state with
    | true =>
      rw [along_joined hj] at h ⊢
      rw [ih h, AccessState.mergeRead_stage, Mask.mem_union, List.exists_mem_cons_iff, or_assoc]
    | false =>
      rw [along_moved hj] at h
      cases h

/-- Where the first access does not join the state before it, the last run is opened by a move, the
last of all, and it has the stages of all its entries. -/
theorem exists_last_opener {s : AccessState} {e₀ : TimelineEntry}
    (hjoin : imagesJoin s e₀.state = false) (es : List TimelineEntry) : ∃ before opener rest src ms,
      e₀ :: es = before ++ opener :: rest ∧
      (along imagesJoin s (e₀ :: es)).1 = ms ++ [⟨opener.pass, src, opener.state⟩] ∧
      ∀ bit, bit ∈ (along imagesJoin s (e₀ :: es)).2.stage ↔
        ∃ e ∈ opener :: rest, bit ∈ e.state.stage := by
  have hmoves : (along imagesJoin s (e₀ :: es)).1 ≠ [] := by
    rw [along_moved hjoin]
    exact List.cons_ne_nil _ _
  obtain ⟨before, opener, rest, hrun, hopens, hquiet, hlast⟩ := exists_last_run hmoves
  refine ⟨before, opener, rest, (along imagesJoin s before).2, (along imagesJoin s before).1, hrun,
    ?_, fun bit => ?_⟩
  · rw [hrun, along_append, along_moved hopens, hquiet]
  · rw [← hlast, mem_stage_of_no_moves hquiet, List.exists_mem_cons_iff]

/-- A move is told by its pass. -/
theorem filter_pass_eq {ms : List Move} {m : Move} (h : ms.Pairwise fun x y => x.pass < y.pass)
    (hm : m ∈ ms) : ms.filter (·.pass == m.pass) = [m] := by
  induction ms with
  | nil => cases hm
  | cons x ms ih =>
    obtain ⟨hx, hms⟩ := List.pairwise_cons.1 h
    rcases List.mem_cons.1 hm with rfl | hm
    · have hnone : ms.filter (·.pass == m.pass) = [] := by
        refine List.filter_eq_nil_iff.2 fun y hy => ?_
        have := hx y hy
        simp only [beq_iff_eq]
        omega
      rw [List.filter_cons_of_pos (by simp), hnone]
    · have := hx m hm
      rw [List.filter_cons_of_neg (by simp only [beq_iff_eq]; omega), ih hms hm]

/-- No move comes after the last one. -/
theorem pass_le_of_last {l ms : List Move} {last m : Move}
    (h : l.Pairwise fun x y => x.pass < y.pass) (hl : l = ms ++ [last]) (hm : m ∈ l) :
    m.pass ≤ last.pass := by
  rw [hl] at h hm
  rcases List.mem_append.1 hm with hm | hm
  · exact Nat.le_of_lt ((List.pairwise_append.1 h).2.2 m hm last (List.mem_singleton_self _))
  · obtain rfl := List.mem_singleton.1 hm
    exact Nat.le_refl _

end Move

/-- An image whose object is there. -/
theorem Node.exists_image_payload {n : Node} (hkind : n.kind = .image) (hbacked : n.isBacked = true) :
    ∃ desc image external, n.payload = .image desc (some image) external := by
  unfold isBacked at hbacked
  unfold kind at hkind
  cases hp : n.payload with
  | image desc handle external =>
    rw [hp] at hbacked
    obtain ⟨image, rfl⟩ := Option.isSome_iff_exists.1 hbacked
    exact ⟨desc, image, external, rfl⟩
  | _ => simp [hp, Payload.kind] at hkind

namespace TransitionBatch

variable {t : Timeline} {desc : ImageDesc} {image : Handle .image} {external : Bool} {p : Nat}

/-- A move of an image is the one barrier on it before the pass. -/
theorem before_of_move (hp : t.node.payload = .image desc (some image) external) {m : Move}
    (hpairwise : t.moves.Pairwise fun x y => x.pass < y.pass) (hm : m ∈ t.moves) :
    before m.pass [t] = ⟨[⟨t.node.name, image, m.src, m.dst, desc.aspect⟩], []⟩ := by
  have hmoves : t.movesAt m.pass = [m] := Move.filter_pass_eq hpairwise hm
  simp [before, hmoves, Timeline.imageTransition?, Timeline.bufferTransition?, hp]

theorem before_of_no_move (h : ∀ m ∈ t.moves, m.pass ≠ p) : before p [t] = .empty := by
  have hmoves : t.movesAt p = [] :=
    List.filter_eq_nil_iff.2 fun m hm => by simpa using h m hm
  simp [before, hmoves, empty]

theorem atEnd_of_shown (hp : t.node.payload = .image desc (some image) external)
    (hshown : t.node.residency = .swapchain) :
    atEnd [t] = ⟨[⟨t.node.name, image, t.reduction.2, .present, desc.aspect⟩], []⟩ := by
  have h : t.isShown = true := by simp [Timeline.isShown, Node.imageDesc?, hp, hshown]
  simp [atEnd, h, Timeline.imageTransition?, hp]

end TransitionBatch

/-! ## A frame -/

/-- What a frame does to an image that is shown and that it accesses by `before ++ opener :: rest`,
where `opener` is the last access that has a barrier before its pass. -/
structure Analysis.Presents (a : Analysis) (n : Node) (desc : ImageDesc) (image : Handle .image)
    (before : List TimelineEntry) (opener : TimelineEntry) (rest : List TimelineEntry) : Prop where
  timeline : a.timeline? n.name = some (before ++ opener :: rest)
  /-- The first access has a barrier, from the state that the image carries. -/
  first : ∀ e, (before ++ opener :: rest).head? = some e → (a.bucketsOf n.name)[e.pass]? =
    some ⟨[⟨n.name, image, n.current, e.state, desc.aspect⟩], []⟩
  opens : ∃ src, (a.bucketsOf n.name)[opener.pass]? =
    some ⟨[⟨n.name, image, src, opener.state, desc.aspect⟩], []⟩
  silent : ∀ p b, opener.pass < p → (a.bucketsOf n.name)[p]? = some b → b = .empty
  /-- At the end there is one barrier, from the last access and the stages of the last run. -/
  atEnd : ∃ src, a.endOfFrame.ofResource n.name =
      ⟨[⟨n.name, image, src, .present, desc.aspect⟩], []⟩ ∧
    (∀ e, (before ++ opener :: rest).getLast? = some e →
      src.access = e.state.access ∧ src.layout = e.state.layout) ∧
    ∀ bit, bit ∈ src.stage ↔ ∃ e ∈ opener :: rest, bit ∈ e.state.stage

/-- What a frame does to the images that are shown. `Seen` tells which nodes earlier frames have
accessed. -/
structure Analysis.PresentsAll (a : Analysis) (f f' : Forest) (passes : List Pass)
    (Seen : Nat → Prop) : Prop where
  /-- After the last pass there are barriers on the accessed images that are shown, and no others. -/
  buffers : a.endOfFrame.buffers = []
  images : ∀ x ∈ a.endOfFrame.images, ∃ (i : Nat) (n : Node), f.nodes[i]? = some n ∧ n.IsShown ∧
    (∃ pass ∈ passes, pass.Touches f i) ∧ x.resource = n.name
  /-- The images of a swapchain are shown, and they are made elsewhere. -/
  children : ∀ (i : Nat) n, f.nodes[i]? = some n → n.kind = .swapchain → ∀ j ∈ f.children i,
    ∃ c, f.nodes[j]? = some c ∧ c.IsShown ∧ c.payload.isExternal = true
  presents : ∀ (i : Nat) n, f.nodes[i]? = some n → n.IsShown →
    (∃ pass ∈ passes, pass.Touches f i) → ∃ desc image external before opener rest,
      n.payload = .image desc (some image) external ∧ a.Presents n desc image before opener rest
  accessed : ∀ (i : Nat) n, f.nodes[i]? = some n → n.IsShown →
    (∃ pass ∈ passes, pass.Touches f i) → f'.nodes[i]? = some { n with current := .present }
  kept : ∀ (i : Nat) n, f.nodes[i]? = some n → n.IsShown →
    (¬ ∃ pass ∈ passes, pass.Touches f i) → f'.nodes[i]? = some n
  /-- Where a frame finds an image: as it was shown, or undefined the first time. An image that is no
  swapchain's is undefined again after it was released. -/
  current : ∀ (i : Nat) n, f.nodes[i]? = some n → n.IsShown →
    (n.current = .undefined ∨ n.current = .present) ∧ (¬ Seen i → n.current = .undefined) ∧
      (Seen i → n.payload.isExternal = true → n.current = .present)

section
variable {passes : List Pass} {f f' : Forest} {shaders : Registry} {a : Analysis} {n : Node}
  {i : Nat} {frame : List (List NodeUse)}

/-- An image that is shown and accessed is left as it is shown. -/
theorem after_of_accessed (hshown : n.IsShown) (hused : (Timeline.ofNode i n frame).entries ≠ []) :
    (Timeline.ofNode i n frame).after = { n with current := .present } := by
  have hres : (Timeline.ofNode i n frame).node.residency ≠ .dontCare := by
    rw [Timeline.ofNode, hshown.2]
    decide
  unfold Timeline.after
  rw [Timeline.left_of_used hres hused, Timeline.finish_of_swapchain hshown.1 hshown.2]
  rfl

theorem after_of_idle (hidle : (Timeline.ofNode i n frame).entries = []) :
    (Timeline.ofNode i n frame).after = n := by
  unfold Timeline.after
  rw [Timeline.left_of_idle (.inr hidle)]
  rfl

/-- No access joins the state of an image that nothing has accessed since it was shown. -/
theorem not_imagesJoin {s t : AccessState} (hs : s = .undefined ∨ s = .present)
    (ht : ∃ k, k ∈ t.access) : Move.imagesJoin s t = false := by
  obtain ⟨k, hk⟩ := ht
  have hempty : s.access = ∅ := by rcases hs with rfl | rfl <;> rfl
  refine Bool.eq_false_iff.2 fun hjoin => ?_
  rw [← (Move.imagesJoin_iff.1 hjoin).1, hempty] at hk
  exact Mask.not_mem_empty k hk

variable (hf : f.WellFormed) (hseated : f.Seated)
  (h : (analyze passes f shaders).result = .ok (a, f')) (hn : f.nodes[i]? = some n)
include hf hseated h hn

/-- **An image that is shown goes through its accesses and is shown again.** -/
theorem presents_of_frame (hshown : n.IsShown)
    (hcurrent : n.current = .undefined ∨ n.current = .present)
    (htouched : ∃ pass ∈ passes, pass.Touches f i) : ∃ desc image external before opener rest,
      n.payload = .image desc (some image) external ∧
      a.Presents n desc image before opener rest := by
  obtain ⟨frame, hframe, ha, -⟩ := analyze_frame h
  let t := Timeline.ofNode i n frame
  have hused : t.entries ≠ [] := (entries_ne_nil_iff hf hseated hframe hn).2 htouched
  have ht : t ∈ a.timelines := by
    rw [ha]
    exact (Timeline.ofNode_mem_iff hn).2 hused
  obtain ⟨desc, image, external, hp⟩ :=
    Node.exists_image_payload hshown.1 (node_of_mem_timelines h ht).2
  have hstart : t.start = n.current := if_neg (by simp [t, Timeline.ofNode, hshown.2])
  have hred : t.reduction = Move.along Move.imagesJoin n.current t.entries := by
    rw [Timeline.reduction_of_image hshown.1, hstart]
  have hpairwise : t.moves.Pairwise fun x y => x.pass < y.pass := by
    rw [Timeline.moves, hred]
    exact Move.pairwise_passes (pairwise_of_mem_timelines h ht)
  have hbucket {e : TimelineEntry} (he : e ∈ t.entries) {m : Move} (hm : m ∈ t.moves)
      (hpass : m.pass = e.pass) : (a.bucketsOf n.name)[e.pass]? =
        some ⟨[⟨n.name, image, m.src, m.dst, desc.aspect⟩], []⟩ := by
    rw [bucketsOf_eq h ha hf hn, List.getElem?_map,
      List.getElem?_range (pass_lt_of_mem_timelines h ht he), ← hpass]
    exact congrArg some (TransitionBatch.before_of_move hp hpairwise hm)
  obtain ⟨e₀, es, hes⟩ := List.exists_cons_of_ne_nil hused
  have hjoin : Move.imagesJoin n.current e₀.state = false :=
    not_imagesJoin hcurrent (exists_mem_access h ht (by rw [hes]; exact List.mem_cons_self))
  have hfirst : ⟨e₀.pass, n.current, e₀.state⟩ ∈ t.moves := by
    rw [Timeline.moves, hred, hes, Move.along_moved hjoin]
    exact List.mem_cons_self
  obtain ⟨before, opener, rest, src, ms, hrun, hmoves, hstage⟩ :=
    Move.exists_last_opener hjoin es
  rw [← hes] at hrun
  rw [← hes, ← hred] at hmoves hstage
  have hopener : ⟨opener.pass, src, opener.state⟩ ∈ t.moves := by
    rw [Timeline.moves, hmoves]
    exact List.mem_append_right _ (List.mem_singleton_self _)
  refine ⟨desc, image, external, before, opener, rest, hp, ?_, ?_, ⟨src, ?_⟩, ?_, ?_⟩
  · rw [timeline?_eq ha hf hn, if_neg hused, ← hrun]
  · intro e he
    rw [← hrun, hes, List.head?_cons] at he
    obtain rfl := Option.some.inj he
    exact hbucket (by rw [hes]; exact List.mem_cons_self) hfirst rfl
  · exact hbucket (by rw [hrun]; exact List.mem_append_right _ List.mem_cons_self) hopener rfl
  · intro p b hlt hb
    rw [bucketsOf_eq h ha hf hn, List.getElem?_map] at hb
    obtain ⟨q, hq, rfl⟩ := Option.map_eq_some_iff.1 hb
    obtain ⟨hrange, hqp⟩ := List.getElem?_eq_some_iff.1 hq
    rw [List.getElem_range] at hqp
    refine TransitionBatch.before_of_no_move fun m hm => ?_
    have hle : m.pass ≤ opener.pass := Move.pass_le_of_last hpairwise hmoves hm
    omega
  · refine ⟨t.reduction.2, ?_, fun e he => ?_, hstage⟩
    · rw [(barriers_eq h).2, ofResource_atEnd, ha, filter_name_ofFrame hf hn, if_neg hused]
      exact TransitionBatch.atEnd_of_shown hp hshown.2
    · rw [← hrun] at he
      rw [hred, ← List.dropLast_append_getLast? e he]
      exact ⟨(Move.last_snoc _ _ _).1, (Move.last_snoc _ _ _).2.1⟩

end

/-! ## What the states of images tell -/

/-- Whether the states that nodes carry tell which of them have been accessed. -/
structure Forest.Remembers (f : Forest) (Seen : Nat → Prop) : Prop where
  registered : ∀ i, Seen i → i < f.size
  fresh : ∀ (i : Nat) n, f.nodes[i]? = some n → ¬ Seen i → n.current = .undefined
  shown : ∀ (i : Nat) n, f.nodes[i]? = some n → Seen i → n.payload.isExternal = true →
    n.current = .present

theorem Forest.Remembers.empty : Remembers {} fun _ => False where
  registered _ h := h.elim
  fresh i n hn := by simp at hn
  shown i n hn := by simp at hn

section
variable {passes : List Pass} {f f' : Forest} {shaders : Registry} {a : Analysis} {i : Nat}

/-- Only buffers and images that there are can be accessed. -/
theorem Pass.Touches.lt_size {pass : Pass} (hseated : f.Seated) (h : pass.Touches f i) :
    i < f.size := by
  obtain ⟨use, -, hstands⟩ := h
  obtain ⟨n, hn, -⟩ := hstands.exists_node hseated
  exact (List.getElem?_eq_some_iff.1 hn).1

/-- A node after a frame: an image that is shown is left as it is shown, a node that the frame does
not access is left alone. -/
theorem node_after_frame (hf : f.WellFormed) (hseated : f.Seated)
    (h : (analyze passes f shaders).result = .ok (a, f')) {n : Node} (hn : f.nodes[i]? = some n) :
    (n.IsShown → (∃ pass ∈ passes, pass.Touches f i) →
      f'.nodes[i]? = some { n with current := .present }) ∧
    ((¬ ∃ pass ∈ passes, pass.Touches f i) → f'.nodes[i]? = some n) := by
  obtain ⟨frame, hframe, ha, rfl⟩ := analyze_frame h
  have hafter : (f.carry a.timelines).nodes[i]? = some (Timeline.ofNode i n frame).after := by
    rw [ha, nodes_carry_ofFrame, hn]
    rfl
  have hused := entries_ne_nil_iff hf hseated hframe hn
  refine ⟨fun hshown htouched => ?_, fun huntouched => ?_⟩
  · rw [hafter, after_of_accessed hshown (hused.2 htouched)]
  · rw [hafter, after_of_idle (not_not.1 (mt hused.1 huntouched))]

theorem remembers_of_frame {Seen : Nat → Prop} (hf : f.WellFormed) (hseated : f.Seated)
    (hfit : f.CarriesFit) (h : (analyze passes f shaders).result = .ok (a, f'))
    (hseen : f.Remembers Seen) :
    f'.Remembers fun i => Seen i ∨ ∃ pass ∈ passes, pass.Touches f i := by
  have hsize := (onlyCarries_of_frame h).size
  -- every node after the frame is one from before it
  have hbefore {i : Nat} {n' : Node} (hn' : f'.nodes[i]? = some n') :
      ∃ n, f.nodes[i]? = some n ∧ n'.payload = n.payload := by
    obtain ⟨n, s, hn, rfl, -⟩ := exists_node_before h hn'
    exact ⟨n, hn, rfl⟩
  refine ⟨fun i hi => ?_, fun i n' hn' hi => ?_, fun i n' hn' hi hexternal => ?_⟩
  · rw [hsize]
    rcases hi with hi | ⟨pass, -, htouches⟩
    · exact hseen.registered i hi
    · exact htouches.lt_size hseated
  · obtain ⟨n, hn, -⟩ := hbefore hn'
    rw [not_or] at hi
    rw [(node_after_frame hf hseated h hn).2 hi.2] at hn'
    obtain rfl := Option.some.inj hn'
    exact hseen.fresh i n hn hi.1
  · obtain ⟨n, hn, hpayload⟩ := hbefore hn'
    rw [hpayload] at hexternal
    by_cases htouched : ∃ pass ∈ passes, pass.Touches f i
    · have hshown : n.IsShown :=
        ⟨Payload.kind_of_isExternal hexternal, (hfit i n hn).external hexternal⟩
      rw [(node_after_frame hf hseated h hn).1 hshown htouched] at hn'
      obtain rfl := Option.some.inj hn'
      rfl
    · rw [(node_after_frame hf hseated h hn).2 htouched] at hn'
      obtain rfl := Option.some.inj hn'
      exact hseen.shown i n hn (hi.resolve_right htouched) hexternal

/-- **What a frame does to the images that are shown.** -/
theorem presentsAll_of_frame {Seen : Nat → Prop} (hf : f.WellFormed) (hrelated : f.Related)
    (hfit : f.CarriesFit) (h : (analyze passes f shaders).result = .ok (a, f'))
    (hseen : f.Remembers Seen) : a.PresentsAll f f' passes Seen where
  buffers := by rw [(barriers_eq h).2, TransitionBatch.atEnd]
  images x hx := by
    obtain ⟨frame, hframe, ha, -⟩ := analyze_frame h
    rw [(barriers_eq h).2] at hx
    obtain ⟨t, ht, hx⟩ := List.mem_filterMap.1 hx
    obtain ⟨ht, hshown⟩ := List.mem_filter.1 ht
    have hn := (node_of_mem_timelines h ht).1
    rw [ha] at ht
    rw [Timeline.eq_ofNode ht rfl hn, Timeline.ofNode_mem_iff hn] at ht
    exact ⟨t.index, t.node, hn, Timeline.isShown_iff.1 hshown,
      (entries_ne_nil_iff hf hrelated.seated hframe hn).1 ht,
      Timeline.resource_of_imageTransition hx⟩
  children i n hn hkind j hj := by
    obtain ⟨c, hc, hparent, -⟩ := hrelated.seated.exists_child hn hj
    have hexternal := (hrelated j c hc).shown i n hparent hn hkind
    exact ⟨c, hc, ⟨Payload.kind_of_isExternal hexternal, (hfit j c hc).external hexternal⟩,
      hexternal⟩
  presents i n hn hshown htouched :=
    presents_of_frame hf hrelated.seated h hn hshown ((hfit i n hn).shown hshown.1 hshown.2) htouched
  accessed i n hn hshown htouched := (node_after_frame hf hrelated.seated h hn).1 hshown htouched
  kept i n hn _ huntouched := (node_after_frame hf hrelated.seated h hn).2 huntouched
  current i n hn hshown :=
    ⟨(hfit i n hn).shown hshown.1 hshown.2, hseen.fresh i n hn, hseen.shown i n hn⟩

end

/-! ## Operations -/

section
variable {δ : Type} [Device δ] {f f' : Forest} {d d' : δ} {i : Nat} {n : Node}

theorem Payload.forgetsState_of_isExternal {p : Payload} (h : p.isExternal = true) :
    p.forgetsState = false := by
  cases p with
  | image desc handle external =>
    obtain rfl : external = true := h
    rfl
  | buffer _ _ => cases h
  | bufferView _ _ _ => rfl
  | imageView _ _ _ => rfl
  | swapchain _ _ => rfl

/-- Whether a node stays what it is, and keeps its state if it is made elsewhere. -/
structure Node.Outlasts (n n' : Node) : Prop extends n.Stays n' where
  current : n.payload.isExternal = true → n'.current = n.current

theorem Node.Outlasts.refl (n : Node) : n.Outlasts n := ⟨.refl n, fun _ => rfl⟩

theorem Node.Outlasts.trans {l m n : Node} (hlm : l.Outlasts m) (hmn : m.Outlasts n) :
    l.Outlasts n where
  toKeeps := hlm.toKeeps.trans hmn.toKeeps
  origin := hmn.origin.trans hlm.origin
  external := hmn.external.trans hlm.external
  current h := (hmn.current (hlm.external.trans h)).trans (hlm.current h)

omit [Device δ] in
/-- A node may be changed as long as it outlasts the change. -/
theorem Forest.exists_outlasts_put {j : Nat} {m m' : Node} (hm : f.nodes[j]? = some m)
    (hlasts : m.Outlasts m') (hn : f.nodes[i]? = some n) :
    ∃ n', (f.put j m').nodes[i]? = some n' ∧ n.Outlasts n' := by
  obtain ⟨n', hn', rfl | ⟨rfl, rfl⟩⟩ := exists_node_put m' hm hn
  · exact ⟨n', hn', .refl n'⟩
  · exact ⟨n', hn', hlasts⟩

theorem Grows.exists_outlasts {s s' : Forest × δ} (h : Grows s s') (hn : s.1.nodes[i]? = some n) :
    ∃ n', s'.1.nodes[i]? = some n' ∧ n.Outlasts n' := by
  cases h with
  | clock f d => exact ⟨n, hn, .refl n⟩
  | register d h => exact ⟨n, Forest.nodes_push_of_some hn, .refl n⟩
  | unfold d h => exact ⟨n, Forest.nodes_push_of_some hn, .refl n⟩
  | acquire d index hm hp =>
    refine Forest.exists_outlasts_put hm ⟨⟨⟨rfl, rfl, rfl, ?_⟩, ?_, ?_⟩, fun _ => rfl⟩ hn
    · rw [Node.kind, Node.kind, hp]
      rfl
    · rw [hp]
      rfl
    · rw [hp]
      rfl
  | mountNode h =>
    rcases mountNode_ok h with ⟨rfl, rfl⟩ | ⟨m, outcome, hm, hrealize, rfl⟩
    · exact ⟨n, hn, .refl n⟩
    · exact Forest.exists_outlasts_put hm
        ⟨.of_bare rfl rfl rfl (bare_of_realize hrealize), fun _ => rfl⟩ hn

theorem Releases.exists_outlasts {s s' : Forest × δ} (h : Releases s s')
    (hn : s.1.nodes[i]? = some n) : ∃ n', s'.1.nodes[i]? = some n' ∧ n.Outlasts n' := by
  obtain ⟨h⟩ := h
  rcases releaseNode_ok h with ⟨rfl, rfl⟩ | ⟨m, payload, hm, hrelease, rfl⟩
  · exact ⟨n, hn, .refl n⟩
  · refine Forest.exists_outlasts_put hm
      ⟨.of_bare rfl rfl rfl (bare_of_release hrelease), fun hexternal => ?_⟩ hn
    exact if_neg (by simp [Payload.forgetsState_of_isExternal hexternal])

/-- **What is made elsewhere keeps its state between frames**, whatever is released. -/
theorem Operation.exists_outlasts {o : Operation} (h : o.run f d = .ok (f', d'))
    (hn : f.nodes[i]? = some n) : ∃ n', f'.nodes[i]? = some n' ∧ n.Outlasts n' := by
  let P (s : Forest × δ) : Prop := ∃ n', s.1.nodes[i]? = some n' ∧ n.Outlasts n'
  have hstart : P (f, d) := ⟨n, hn, .refl n⟩
  rcases o.run_cases h with ⟨-, hgrows⟩ | ⟨-, hreleases⟩ | ⟨name, source, -, -, rfl, -⟩
  · refine kept_by_all (P := P) (fun s s' hstep hs => ?_) hgrows hstart
    obtain ⟨m, hm, hnm⟩ := hs
    obtain ⟨m', hm', hmm'⟩ := hstep.exists_outlasts hm
    exact ⟨m', hm', hnm.trans hmm'⟩
  · refine kept_by_all (P := P) (fun s s' hstep hs => ?_) hreleases hstart
    obtain ⟨m, hm, hnm⟩ := hs
    obtain ⟨m', hm', hmm'⟩ := hstep.exists_outlasts hm
    exact ⟨m', hm', hnm.trans hmm'⟩
  · exact ⟨n, Forest.nodes_push_of_some hn, .refl n⟩

theorem Operation.remembers {Seen : Nat → Prop} {o : Operation} (h : o.run f d = .ok (f', d'))
    (hseen : f.Remembers Seen) : f'.Remembers Seen := by
  have hkept {i : Nat} (hi : Seen i) : ∃ n n', f.nodes[i]? = some n ∧ f'.nodes[i]? = some n' ∧
      n.Outlasts n' := by
    have hn := List.getElem?_eq_getElem (hseen.registered i hi)
    obtain ⟨n', hn', hlasts⟩ := Operation.exists_outlasts h hn
    exact ⟨_, n', hn, hn', hlasts⟩
  refine ⟨fun i hi => ?_, fun i n' hn' hi => ?_, fun i n' hn' hi hexternal => ?_⟩
  · obtain ⟨-, n', -, hn', -⟩ := hkept hi
    exact (List.getElem?_eq_some_iff.1 hn').1
  · rcases Operation.carriesFrom h i n' hn' with hnone | ⟨n, hn, hcurrent⟩
    · exact hnone
    · exact hcurrent.trans (hseen.fresh i n hn hi)
  · obtain ⟨n, m, hn, hm, hlasts⟩ := hkept hi
    rw [hn'] at hm
    obtain rfl := Option.some.inj hm
    rw [hlasts.external] at hexternal
    rw [hlasts.current hexternal]
    exact hseen.shown i n hn hi hexternal

end

/-! ## Sessions -/

/-- A frame of the past: the resources as it found them, and its passes. -/
structure PastFrame where
  forest : Forest
  passes : List Pass

def PastFrame.Accesses (r : PastFrame) (i : Nat) : Prop := ∃ pass ∈ r.passes, pass.Touches r.forest i

section
variable {δ : Type} [Device δ] {Aside : ObjectCache × δ → ObjectCache × δ → Prop}
  {past : List PastFrame} {s₀ s : Session δ}

/-- A session with the frames that it has had. -/
inductive Session.Recalls (Aside : ObjectCache × δ → ObjectCache × δ → Prop) (s₀ : Session δ) :
    List PastFrame → Session δ → Prop
  | start : Recalls Aside s₀ [] s₀
  | aside {past : List PastFrame} {s : Session δ} {cache : ObjectCache} {d : δ}
      (hs : Recalls Aside s₀ past s) (h : Aside (s.cache, s.device) (cache, d)) :
      Recalls Aside s₀ past ⟨s.forest, cache, d⟩
  | operate {past : List PastFrame} {s : Session δ} {o : Operation} {f : Forest} {d : δ}
      (hs : Recalls Aside s₀ past s) (h : o.run s.forest s.device = .ok (f, d)) :
      Recalls Aside s₀ past ⟨f, s.cache, d⟩
  | frame {past : List PastFrame} {s : Session δ} {passes : List Pass} {shaders : Registry}
      {a : Analysis} {f : Forest} (hs : Recalls Aside s₀ past s)
      (h : (analyze passes s.forest shaders).result = .ok (a, f)) :
      Recalls Aside s₀ (past ++ [⟨s.forest, passes⟩]) ⟨f, s.cache, s.device⟩
  | compile {past : List PastFrame} {s : Session δ} {graph : PassGraph} {shaders : Registry}
      {r : Except DeviceError Plan} {f : Forest} {cache : ObjectCache} {d : δ}
      (hs : Recalls Aside s₀ past s)
      (h : (compileFrame graph s.forest shaders s.cache s.device).result = .ok (r, f, cache, d)) :
      Recalls Aside s₀ (past ++ [⟨s.forest, graph.passes⟩]) ⟨f, cache, d⟩

/-- Without its past it is a session like any other. -/
theorem Session.Recalls.steps (h : Session.Recalls Aside s₀ past s) :
    ReflTransGen (Session.Step Aside) s₀ s := by
  induction h with
  | start => exact .refl
  | aside _ h ih => exact ih.tail (.aside h)
  | operate _ h ih => exact ih.tail (.operate h)
  | frame _ h ih => exact ih.tail (.frame h)
  | compile _ h ih => exact ih.tail (.compile h)

/-- Every session has its past. -/
theorem Session.exists_recalls (h : ReflTransGen (Session.Step Aside) s₀ s) :
    ∃ past, Session.Recalls Aside s₀ past s := by
  induction h with
  | refl => exact ⟨[], .start⟩
  | tail _ hstep ih =>
    obtain ⟨past, hs⟩ := ih
    cases hstep with
    | aside h => exact ⟨_, hs.aside h⟩
    | operate h => exact ⟨_, hs.operate h⟩
    | frame h => exact ⟨_, hs.frame h⟩
    | compile h => exact ⟨_, hs.compile h⟩

/-- What a session keeps of its resources, and what their states tell of its past. -/
structure Session.Remembering (s : Session δ) (past : List PastFrame) : Prop where
  wellFormed : s.forest.WellFormed
  related : s.forest.Related
  carriesFit : s.forest.CarriesFit
  remembers : s.forest.Remembers fun i => ∃ r ∈ past, r.Accesses i

omit [Device δ] in
theorem Session.Remembering.frame {passes : List Pass} {shaders : Registry} {a : Analysis}
    {f : Forest} {cache : ObjectCache} {d : δ} (hs : s.Remembering past)
    (h : (analyze passes s.forest shaders).result = .ok (a, f)) :
    Session.Remembering ⟨f, cache, d⟩ (past ++ [⟨s.forest, passes⟩]) where
  wellFormed := wellFormed_of_frame h hs.wellFormed
  related := related_of_frame h hs.related
  carriesFit := carriesFit_of_frame hs.related.seated h hs.carriesFit
  remembers := by
    have hseen := remembers_of_frame hs.wellFormed hs.related.seated hs.carriesFit h hs.remembers
    simpa only [List.mem_append, List.mem_singleton, or_and_right, exists_or, exists_eq_left,
      PastFrame.Accesses] using hseen

/-- **The states of nodes tell the past of the session.** -/
theorem Session.Recalls.remembering {d : δ} (h : Session.Recalls Aside { device := d } past s) :
    s.Remembering past := by
  induction h with
  | start =>
    refine ⟨.empty, .empty, fun i n hn => by simp at hn, ?_⟩
    simpa using Forest.Remembers.empty
  | aside _ _ ih => exact ⟨ih.wellFormed, ih.related, ih.carriesFit, ih.remembers⟩
  | operate _ h ih =>
    exact ⟨Operation.wellFormed h ih.wellFormed, Operation.related h ih.related,
      Operation.carriesFit h ih.carriesFit, Operation.remembers h ih.remembers⟩
  | frame _ h ih => exact ih.frame h
  | compile _ h ih =>
    obtain ⟨a, -, ha, -⟩ := compileFrame_ok_iff.1 h
    exact ih.frame ha

end

/-- **In every session, every frame takes the images that it shows from where they were shown last**
and makes them ready to be shown again, whichever were acquired. -/
theorem presents_all {δ : Type} [Device δ] {Aside : ObjectCache × δ → ObjectCache × δ → Prop} {d : δ}
    {past : List PastFrame} {s : Session δ} {passes : List Pass} {shaders : Registry} {a : Analysis}
    {f' : Forest} (hrun : Session.Recalls Aside { device := d } past s)
    (h : (analyze passes s.forest shaders).result = .ok (a, f')) :
    a.PresentsAll s.forest f' passes fun i => ∃ r ∈ past, r.Accesses i :=
  presentsAll_of_frame hrun.remembering.wellFormed hrun.remembering.related
    hrun.remembering.carriesFit h hrun.remembering.remembers

/-! ### Two images that are shown in turn -/

namespace Flip

def source : SwapchainImport := ⟨[⟨1⟩, ⟨2⟩], .b8g8r8a8Unorm, ⟨4, 4⟩⟩

/-- The swapchain with the image that is acquired and the states of both images. -/
def session (acquired : Nat) (left right : AccessState) : Session Headless where
  forest := {
    nodes := [
      { name := "flip", residency := .swapchain, payload := .swapchain source acquired, life := 1 },
      { name := "flip/0"
        residency := .swapchain
        payload := .image source.imageDesc (some ⟨1⟩) true
        parent := some 0
        life := 1
        current := left },
      { name := "flip/0/flip/0"
        residency := .swapchain
        payload := .imageView source.imageDesc.defaultView "flip/0" (some ⟨3⟩)
        parent := some 1
        life := 1 },
      { name := "flip/1"
        residency := .swapchain
        payload := .image source.imageDesc (some ⟨2⟩) true
        parent := some 0
        life := 1
        current := right },
      { name := "flip/1/flip/1"
        residency := .swapchain
        payload := .imageView source.imageDesc.defaultView "flip/1" (some ⟨4⟩)
        parent := some 3
        life := 1 }]
    life := 1 }
  device := {
    lastHandle := 4
    created := { imageViews := 2 }
    imageViews := [(⟨3⟩, ⟨1⟩), (⟨4⟩, ⟨2⟩)] }

def fill : List Pass := [⟨"fill", .compute none, [.bound "flip" "Target" .write]⟩]

/-- The image that was shown is copied to the one that is acquired, twice. -/
def repeated : List Pass :=
  [⟨"repeat", .copy, Use.copy "flip/0" "flip"⟩, ⟨"again", .copy, Use.copy "flip/0" "flip/1"⟩]

def fillUses : List PassUses := [⟨[⟨1, .computeShader, .shaderWrite⟩], none⟩]

def repeatedUses : List PassUses :=
  List.replicate 2 ⟨[⟨1, .transfer, .transferRead⟩, ⟨3, .transfer, .transferWrite⟩], none⟩

abbrev Recalls := Session.Recalls (δ := Headless) (fun _ _ => False) { device := { lastHandle := 2 } }

def mounted : Session Headless := session 0 .undefined .undefined

/-- The first image has been shown, and the second one is acquired. -/
def acquired : Session Headless := session 1 .present .undefined

def past : List PastFrame := [⟨mounted.forest, fill⟩]

theorem recalls_mounted : Recalls [] mounted :=
  .operate (o := .mount "flip") (.operate (o := .addSwapchain "flip" source) .start rfl) rfl

theorem analyze_fill : (analyze fill mounted.forest {}).result =
    .ok (Analysis.ofUses mounted.forest fillUses, (session 0 .present .undefined).forest) := rfl

theorem recalls_acquired : Recalls past acquired :=
  .operate (o := .acquire "flip" 1) (.frame recalls_mounted analyze_fill) rfl

theorem analyze_repeated : (analyze repeated acquired.forest {}).result =
    .ok (Analysis.ofUses acquired.forest repeatedUses, (session 1 .present .present).forest) := rfl

end Flip

theorem presents_all_flip :
    Flip.Recalls Flip.past Flip.acquired ∧
    ∃ a f', (analyze Flip.repeated Flip.acquired.forest {}).result = .ok (a, f') ∧
      a.PresentsAll Flip.acquired.forest f' Flip.repeated fun i => ∃ r ∈ Flip.past, r.Accesses i :=
  ⟨Flip.recalls_acquired, _, _, Flip.analyze_repeated,
    presents_all Flip.recalls_acquired Flip.analyze_repeated⟩

end FrameGraph
