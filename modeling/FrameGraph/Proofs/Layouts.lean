import FrameGraph.Proofs.Frames

/-!
# Image layouts within a frame

`Layouts.applyAll` replays image barriers: each leaves its image in the layout that it leads into.
The barriers of a frame on one image are the moves of one timeline (`filter_transitions`), so the
replay follows the timeline. Where each carried state has the layout that its image is in, every
barrier of the frame starts in the layout that the replay has reached, and every pass finds its
images in the layouts of its entries.
-/

set_option autoImplicit false

namespace FrameGraph

/-- The layout that each image is in. -/
abbrev Layouts := Handle .image → ImageLayout

namespace Layouts

/-- A barrier leaves its image in the layout that it leads into. -/
def apply (l : Layouts) (b : ImageTransition) : Layouts :=
  fun h => if h = b.image then b.dst.layout else l h

def applyAll (l : Layouts) (bs : List ImageTransition) : Layouts := bs.foldl apply l

/-- Only the barriers on an image change its layout, and only the last of them counts. -/
theorem applyAll_of_filter {l : Layouts} {bs : List ImageTransition} {h : Handle .image}
    {ms : List Move} {mk : Move → ImageTransition} (hmk : ∀ m, (mk m).dst = m.dst)
    (hbs : bs.filter (·.image == h) = ms.map mk) :
    l.applyAll bs h = Move.layoutAfter (l h) ms := by
  induction bs generalizing l ms with
  | nil =>
    obtain rfl := List.map_eq_nil_iff.1 hbs.symm
    rfl
  | cons b bs ih =>
    show (l.apply b).applyAll bs h = _
    by_cases hb : b.image = h
    · rw [List.filter_cons_of_pos (by simpa using hb)] at hbs
      obtain ⟨m, ms, rfl, rfl, hms⟩ := List.map_eq_cons_iff.1 hbs.symm
      rw [ih hms.symm, Move.layoutAfter_cons, apply, if_pos hb.symm, hmk]
    · rw [List.filter_cons_of_neg (by simpa using hb)] at hbs
      rw [ih hbs, apply, if_neg (Ne.symm hb)]

theorem applyAll_of_filter_nil {l : Layouts} {bs : List ImageTransition} {h : Handle .image}
    (hbs : bs.filter (·.image == h) = []) : l.applyAll bs h = l h := by
  induction bs generalizing l with
  | nil => rfl
  | cons b bs ih =>
    show (l.apply b).applyAll bs h = _
    obtain ⟨hb, hbs⟩ := List.forall_mem_cons.1 (List.filter_eq_nil_iff.1 hbs)
    rw [ih (List.filter_eq_nil_iff.2 hbs), apply, if_neg fun heq => hb (by simp [heq])]

end Layouts

/-- The image behind a node. -/
def Node.image? (n : Node) : Option (Handle .image) :=
  match n.payload with
  | .image _ h _ => h
  | _ => none

theorem Node.image?_eq_some_iff {n : Node} {h : Handle .image} :
    n.image? = some h ↔ ∃ desc external, n.payload = .image desc (some h) external := by
  unfold image?
  constructor
  · intro hn
    split at hn
    · next desc handle external hp => exact ⟨desc, external, hn ▸ hp⟩
    · cases hn
  · rintro ⟨desc, external, hp⟩
    rw [hp]

theorem Node.exists_image {n : Node} (hkind : n.kind = .image) (hbacked : n.isBacked = true) :
    ∃ h, n.image? = some h := by
  unfold kind at hkind
  unfold isBacked at hbacked
  unfold image?
  cases hp : n.payload with
  | image desc handle external =>
    rw [hp] at hbacked
    exact Option.isSome_iff_exists.1 hbacked
  | _ => simp [hp, Payload.kind] at hkind

namespace Analysis

/-- The image barriers of a frame in the order in which they are carried out. -/
def transitions (a : Analysis) : List ImageTransition :=
  a.barriers.flatMap (·.images) ++ a.endOfFrame.images

/-- The image barriers that are carried out before a pass starts. -/
def transitionsBefore (a : Analysis) (pass : Nat) : List ImageTransition :=
  (a.barriers.take (pass + 1)).flatMap (·.images)

end Analysis

/-! ## The moves of an image -/

namespace Timeline

/-- The moves of a timeline, and the one that shows the image at the end of the frame. -/
def allMoves (t : Timeline) (passes : Nat) : List Move :=
  t.moves ++ if t.isShown then [⟨passes, t.reduction.2, .present⟩] else []

variable {t : Timeline} {h : Handle .image}

theorem kind_of_image (himage : t.node.image? = some h) : t.node.kind = .image := by
  obtain ⟨desc, external, hp⟩ := Node.image?_eq_some_iff.1 himage
  rw [Node.kind, hp]
  rfl

theorem image_of_transition {src dst : AccessState} {b : ImageTransition}
    (hb : t.imageTransition? src dst = some b) : t.node.image? = some b.image := by
  unfold imageTransition? at hb
  split at hb
  · next desc handle external hp =>
    obtain rfl := Option.some.inj hb
    exact Node.image?_eq_some_iff.2 ⟨desc, external, hp⟩
  · cases hb

/-- A move of the timeline of an image is a barrier on the image. -/
theorem exists_transition (himage : t.node.image? = some h) : ∃ mk : Move → ImageTransition,
    (∀ m, t.imageTransition? m.src m.dst = some (mk m)) ∧
    (∀ m, (mk m).src = m.src) ∧ ∀ m, (mk m).dst = m.dst := by
  obtain ⟨desc, external, hp⟩ := Node.image?_eq_some_iff.1 himage
  refine ⟨fun m => ⟨t.node.name, h, m.src, m.dst, desc.aspect⟩, fun m => ?_, fun _ => rfl,
    fun _ => rfl⟩
  simp [imageTransition?, hp]

/-- Each move starts in the layout in which the moves before it left the image. -/
theorem src_layout_of_allMoves (hkind : t.node.kind = .image) {passes : Nat}
    {before after : List Move} {m : Move} (hsplit : t.allMoves passes = before ++ m :: after) :
    m.src.layout = Move.layoutAfter t.start.layout before := by
  unfold allMoves moves at hsplit
  rw [reduction_of_image hkind] at hsplit
  rcases List.append_eq_append_iff.1 hsplit with ⟨rest, hbefore, hrest⟩ | ⟨rest, hmoves, hrest⟩
  · split at hrest
    · cases rest with
      | nil =>
        obtain ⟨rfl, -⟩ := List.cons.inj hrest
        rw [hbefore, List.append_nil]
        exact Move.last_layout _ _
      | cons m' rest => simp at hrest
    · simp at hrest
  · cases rest with
    | nil =>
      split at hrest
      · obtain ⟨rfl, -⟩ := List.cons.inj hrest
        rw [List.append_nil] at hmoves
        rw [← hmoves]
        exact Move.last_layout _ _
      · cases hrest
    | cons m' rest =>
      obtain ⟨rfl, -⟩ := List.cons.inj hrest
      exact Move.src_layout hmoves

theorem finish_layout (hkind : t.node.kind = .image) (passes : Nat) :
    t.finish.layout = Move.layoutAfter t.start.layout (t.allMoves passes) := by
  unfold finish allMoves moves
  rw [reduction_of_image hkind]
  split
  · simp [Move.layoutAfter]
  · rw [List.append_nil]
    exact Move.last_layout _ _

/-- After the moves up to an entry the image is in the layout of that entry. If the image starts in
no state that matters, it does not matter either in which layout it really is. -/
theorem layout_at_entry (hkind : t.node.kind = .image)
    (hes : t.entries.Pairwise fun x y => x.pass < y.pass) {e : TimelineEntry} (he : e ∈ t.entries)
    (haccess : ∃ i, i ∈ e.state.access) {l : ImageLayout}
    (hl : t.start.layout = l ∨ t.start = .undefined) :
    Move.layoutAfter l (t.moves.filter fun m => decide (m.pass ≤ e.pass)) = e.state.layout := by
  obtain ⟨xs, ys, hsplit⟩ := List.append_of_mem he
  have hmoves : t.moves.filter (fun m => decide (m.pass ≤ e.pass)) =
      (Move.along Move.imagesJoin t.start (xs ++ [e])).1 := by
    unfold moves
    rw [reduction_of_image hkind, hsplit]
    rw [hsplit] at hes
    exact Move.filter_pass_le hes
  have hlast : Move.layoutAfter t.start.layout (Move.along Move.imagesJoin t.start (xs ++ [e])).1 =
      e.state.layout := by
    rw [← Move.last_layout]
    exact (Move.last_snoc t.start xs e).2.1
  rw [hmoves]
  rcases hl with rfl | hstart
  · exact hlast
  · rw [← hlast]
    refine Move.layoutAfter_eq (fun hnil => ?_) _ _
    -- the undefined state has no access, so the first entry does not join it
    obtain ⟨i, hi⟩ := haccess
    have := ((Move.agree_of_no_moves hnil).2 e (by simp)).1
    rw [this, hstart] at hi
    exact Mask.not_mem_empty i hi

end Timeline

/-! ## The barriers on one image -/

/-- In pass order, the moves pass by pass are the moves. -/
theorem flatMap_filter_pass {ms : List Move} (hms : ms.Pairwise fun x y => x.pass < y.pass)
    (n : Nat) : (List.range n).flatMap (fun p => ms.filter fun m => m.pass == p) =
      ms.filter fun m => decide (m.pass < n) := by
  have hsucc (n : Nat) : ms.filter (fun m => decide (m.pass < n)) ++
      ms.filter (fun m => m.pass == n) = ms.filter fun m => decide (m.pass < n + 1) := by
    induction ms with
    | nil => rfl
    | cons m ms ih =>
      obtain ⟨hm, hms⟩ := List.pairwise_cons.1 hms
      rcases Nat.lt_trichotomy m.pass n with hlt | heq | hgt
      · have hne : m.pass ≠ n := Nat.ne_of_lt hlt
        have hlt' : m.pass < n + 1 := Nat.lt_succ_of_lt hlt
        simp only [List.filter_cons, decide_eq_true_eq, beq_iff_eq, if_pos hlt, if_neg hne,
          if_pos hlt', List.cons_append, ih hms]
      · have hlt : ¬ m.pass < n := by omega
        have hlt' : m.pass < n + 1 := by omega
        have hnone : ms.filter (fun m => decide (m.pass < n)) = [] := by
          refine List.filter_eq_nil_iff.2 fun m' hm' h => ?_
          have hm' := hm m' hm'
          have h := of_decide_eq_true h
          omega
        have hrest := ih hms
        rw [hnone, List.nil_append] at hrest
        simp only [List.filter_cons, decide_eq_true_eq, beq_iff_eq, if_neg hlt, if_pos heq,
          if_pos hlt', hnone, List.nil_append, hrest]
      · have hlt : ¬ m.pass < n := by omega
        have hne : m.pass ≠ n := by omega
        have hlt' : ¬ m.pass < n + 1 := by omega
        simp only [List.filter_cons, decide_eq_true_eq, beq_iff_eq, if_neg hlt, if_neg hne,
          if_neg hlt', ih hms]
  induction n with
  | zero => simp
  | succ n ih => rw [List.range_succ, List.flatMap_append, ih, List.flatMap_singleton, hsucc]

section
variable {ts : List Timeline} {t : Timeline} {h : Handle .image}

/-- Among barriers that are listed by timeline, those on an image are those of its timeline. -/
theorem filter_flatMap_of_image {g : Timeline → List ImageTransition} (hts : ts.Nodup)
    (ht : t ∈ ts) (himage : t.node.image? = some h)
    (hone : ∀ u ∈ ts, u.node.image? = some h → u = t)
    (hg : ∀ u, ∀ b ∈ g u, u.node.image? = some b.image) :
    (ts.flatMap g).filter (·.image == h) = g t := by
  rw [List.filter_flatMap, flatMap_eq_of_unique hts ht]
  · refine List.filter_eq_self.2 fun b hb => ?_
    have hbt := hg t b hb
    rw [himage] at hbt
    simpa using (Option.some.inj hbt).symm
  · intro u hu hne
    refine List.filter_eq_nil_iff.2 fun b hb hbh => hne (hone u hu ?_)
    rw [hg u b hb, beq_iff_eq.1 hbh]

end

section
variable {f f' : Forest} {shaders : Registry} {passes : List Pass} {a : Analysis} {t : Timeline}
  {h : Handle .image}

/-- A barrier is on the image of a timeline. -/
theorem exists_timeline_of_mem_transitions (ha : (analyze passes f shaders).result = .ok (a, f'))
    {b : ImageTransition} (hb : b ∈ a.transitions) :
    ∃ t ∈ a.timelines, t.node.image? = some b.image := by
  obtain ⟨hbarriers, hend⟩ := barriers_eq ha
  rcases List.mem_append.1 hb with hb | hb
  · rw [hbarriers] at hb
    obtain ⟨batch, hbatch, hb⟩ := List.mem_flatMap.1 hb
    obtain ⟨p, -, rfl⟩ := List.mem_map.1 hbatch
    obtain ⟨t, ht, hb⟩ := List.mem_flatMap.1 hb
    obtain ⟨m, -, hb⟩ := List.mem_filterMap.1 hb
    exact ⟨t, ht, Timeline.image_of_transition hb⟩
  · rw [hend] at hb
    obtain ⟨t, ht, hb⟩ := List.mem_filterMap.1 hb
    exact ⟨t, (List.mem_filter.1 ht).1, Timeline.image_of_transition hb⟩

section
variable (ha : (analyze passes f shaders).result = .ok (a, f')) (ht : t ∈ a.timelines)
  (himage : t.node.image? = some h) (hone : ∀ u ∈ a.timelines, u.node.image? = some h → u = t)
include ha ht himage hone

theorem filter_barriers {mk : Move → ImageTransition}
    (hmk : ∀ m, t.imageTransition? m.src m.dst = some (mk m)) {k : Nat} (hk : k ≤ passes.length) :
    ((a.barriers.take k).flatMap (·.images)).filter (·.image == h) =
      (t.moves.filter fun m => decide (m.pass < k)).map mk := by
  obtain ⟨frame, hts, -⟩ := timelines_eq ha
  have hnodup : a.timelines.Nodup := hts ▸ Timeline.nodup_ofFrame
  have hmoves : t.moves.Pairwise fun x y => x.pass < y.pass := by
    unfold Timeline.moves
    rw [Timeline.reduction_of_image (Timeline.kind_of_image himage)]
    exact Move.pairwise_passes (pairwise_of_mem_timelines ha ht)
  have hbefore (p : Nat) : (TransitionBatch.before p a.timelines).images.filter (·.image == h) =
      (t.movesAt p).map mk := by
    refine (filter_flatMap_of_image hnodup ht himage hone ?_).trans ?_
    · intro u b hb
      obtain ⟨m, -, hb⟩ := List.mem_filterMap.1 hb
      exact Timeline.image_of_transition hb
    · simp [hmk]
  rw [(barriers_eq ha).1, ← List.map_take, List.take_range, Nat.min_eq_left hk, List.flatMap_map,
    List.filter_flatMap]
  simp only [hbefore]
  rw [← List.map_flatMap]
  exact congrArg _ (flatMap_filter_pass hmoves k)

/-- **The barriers on an image are the moves of its timeline.** -/
theorem filter_transitions {mk : Move → ImageTransition}
    (hmk : ∀ m, t.imageTransition? m.src m.dst = some (mk m)) :
    a.transitions.filter (·.image == h) = (t.allMoves passes.length).map mk := by
  obtain ⟨hbarriers, hend⟩ := barriers_eq ha
  obtain ⟨frame, hts, -⟩ := timelines_eq ha
  have hnodup : a.timelines.Nodup := hts ▸ Timeline.nodup_ofFrame
  have hall : a.barriers.take passes.length = a.barriers := by
    refine List.take_of_length_le ?_
    simp [hbarriers]
  have hmoves : t.moves.filter (fun m => decide (m.pass < passes.length)) = t.moves := by
    refine List.filter_eq_self.2 fun m hm => ?_
    obtain ⟨e, he, hp, -⟩ := Timeline.exists_entry_of_mem_moves hm
    simpa [hp] using pass_lt_of_mem_timelines ha ht he
  have hbuckets := filter_barriers ha ht himage hone hmk (Nat.le_refl _)
  rw [hall, hmoves] at hbuckets
  have hshown : a.endOfFrame.images.filter (·.image == h) =
      if t.isShown then [mk ⟨passes.length, t.reduction.2, .present⟩] else [] := by
    rw [hend, images_atEnd]
    refine (filter_flatMap_of_image hnodup ht himage hone ?_).trans ?_
    · intro u b hb
      split at hb
      · exact Timeline.image_of_transition (Option.mem_toList.1 hb)
      · cases hb
    · have := hmk ⟨passes.length, t.reduction.2, .present⟩
      simp only at this
      rw [this]
      rfl
  unfold Analysis.transitions Timeline.allMoves
  rw [List.filter_append, hbuckets, hshown, List.map_append]
  congr 1
  split <;> rfl

end

end

/-! ## One frame -/

/-- Whether each image is behind one node and, where its contents matter from frame to frame, is in
the layout that the node carries. -/
structure Forest.Agrees (f : Forest) (l : Layouts) : Prop where
  unique : ∀ (i j : Nat) (n m : Node) (h : Handle .image), f.nodes[i]? = some n →
    f.nodes[j]? = some m → n.image? = some h → m.image? = some h → i = j
  layout : ∀ (i : Nat) (n : Node) (h : Handle .image), f.nodes[i]? = some n → n.image? = some h →
    n.residency ≠ .dontCare → n.current.layout = l h

/-- What a replay of the barriers of a frame finds, if the images are in the layouts `l` before it.
`f` and `f'` are the resources before and after the frame. -/
structure Analysis.MatchesReplay (a : Analysis) (passes : List Pass) (f f' : Forest) (l : Layouts) :
    Prop where
  /-- Every barrier is on the image of a node and starts in the layout that the image is in; only
  the first barrier of a frame on an image whose contents do not matter starts in none. -/
  barrier : ∀ before b after, a.transitions = before ++ b :: after →
    (∃ n ∈ f.nodes, n.image? = some b.image) ∧ ∀ n ∈ f.nodes, n.image? = some b.image →
      (n.residency ≠ .dontCare → b.src.layout = l.applyAll before b.image) ∧
      (n.residency = .dontCare → (∀ b' ∈ before, b'.image ≠ b.image) →
        b.src.layout = .undefined) ∧
      (n.residency = .dontCare → (∃ b' ∈ before, b'.image = b.image) →
        b.src.layout = l.applyAll before b.image)
  /-- What a pass uses has an entry at the pass. -/
  use : ∀ p pass use, passes[p]? = some pass → use ∈ pass.uses →
    ∃ place, f.tracked use.resource = .ok place ∧ place.node.isBacked = true ∧
      ∃ t ∈ a.timelines, t.index = place.index ∧ t.node = place.node ∧ ∃ e ∈ t.entries, e.pass = p
  /-- A pass finds its images in the layouts of their entries. -/
  entry : ∀ t ∈ a.timelines, ∀ h, t.node.image? = some h → ∀ e ∈ t.entries,
    l.applyAll (a.transitionsBefore e.pass) h = e.state.layout
  /-- So does a render pass, and it leaves them there. -/
  attachment : ∀ target ∈ a.targets, ∀ x ∈ target.attachments,
    ∃ t ∈ a.timelines, t.index = x.tracked ∧ (∃ h, t.node.image? = some h) ∧
      ∃ e ∈ t.entries, e.pass = target.pass ∧ x.layout = e.state.layout ∧
        x.finalLayout = e.state.layout ∧
        (x.initialLayout = e.state.layout ∨ x.initialLayout = .undefined)
  /-- After the frame the nodes carry the layouts that their images are in. -/
  carried : f'.Agrees (l.applyAll a.transitions)

section
variable {f f' : Forest} {shaders : Registry} {passes : List Pass} {a : Analysis} {t : Timeline}
  {l : Layouts} {h : Handle .image}

section
variable (hl : f.Agrees l) (ha : (analyze passes f shaders).result = .ok (a, f'))
include hl ha

theorem eq_of_image {u : Timeline} (ht : t ∈ a.timelines) (hu : u ∈ a.timelines)
    (himage : t.node.image? = some h) (himage' : u.node.image? = some h) : u = t := by
  obtain ⟨hn, -⟩ := node_of_mem_timelines ha ht
  obtain ⟨hm, -⟩ := node_of_mem_timelines ha hu
  exact eq_of_mem_timelines ha hu ht (hl.unique _ _ _ _ h hm hn himage' himage)

theorem start_layout (ht : t ∈ a.timelines) (himage : t.node.image? = some h)
    (hres : t.node.residency ≠ .dontCare) : t.start.layout = l h := by
  obtain ⟨hn, -⟩ := node_of_mem_timelines ha ht
  rw [Timeline.start, if_neg hres]
  exact hl.layout _ _ h hn himage hres

/-- Where a barrier stands among the barriers of a frame, its move stands among those of its
timeline. -/
theorem src_layout_of_split {before after : List ImageTransition} {b : ImageTransition}
    (hsplit : a.transitions = before ++ b :: after) (ht : t ∈ a.timelines)
    (himage : t.node.image? = some b.image) : ∃ ms : List Move,
      b.src.layout = Move.layoutAfter t.start.layout ms ∧
      (ms = [] ↔ ∀ b' ∈ before, b'.image ≠ b.image) ∧
      ∀ l : Layouts, l.applyAll before b.image = Move.layoutAfter (l b.image) ms := by
  obtain ⟨mk, hmk, hsrc, hdst⟩ := Timeline.exists_transition himage
  have hfilter := filter_transitions ha ht himage
    (fun u hu himage' => eq_of_image hl ha ht hu himage himage') hmk
  rw [hsplit, List.filter_append, List.filter_cons_of_pos (by simp)] at hfilter
  obtain ⟨ms, rest, hmoves, hms, hrest⟩ := List.map_eq_append_iff.1 hfilter.symm
  obtain ⟨m, rest, rfl, rfl, -⟩ := List.map_eq_cons_iff.1 hrest
  refine ⟨ms, ?_, ?_, fun l => Layouts.applyAll_of_filter hdst hms.symm⟩
  · rw [hsrc]
    exact Timeline.src_layout_of_allMoves (Timeline.kind_of_image himage) hmoves
  · rw [← List.map_eq_nil_iff (f := mk), hms, List.filter_eq_nil_iff]
    simp

theorem matchesReplay_barrier {before after : List ImageTransition} {b : ImageTransition}
    (hsplit : a.transitions = before ++ b :: after) :
    (∃ n ∈ f.nodes, n.image? = some b.image) ∧ ∀ n ∈ f.nodes, n.image? = some b.image →
      (n.residency ≠ .dontCare → b.src.layout = l.applyAll before b.image) ∧
      (n.residency = .dontCare → (∀ b' ∈ before, b'.image ≠ b.image) →
        b.src.layout = .undefined) ∧
      (n.residency = .dontCare → (∃ b' ∈ before, b'.image = b.image) →
        b.src.layout = l.applyAll before b.image) := by
  have hb : b ∈ a.transitions := by rw [hsplit]; simp
  obtain ⟨t, ht, himage⟩ := exists_timeline_of_mem_transitions ha hb
  obtain ⟨hn, -⟩ := node_of_mem_timelines ha ht
  obtain ⟨ms, hsrc, hnil, hreplay⟩ := src_layout_of_split hl ha hsplit ht himage
  refine ⟨⟨t.node, List.mem_of_getElem? hn, himage⟩, fun n hmem hni => ?_⟩
  obtain ⟨i, hi⟩ := List.mem_iff_getElem?.1 hmem
  obtain rfl := hl.unique _ _ _ _ _ hi hn hni himage
  rw [hn] at hi
  obtain rfl := Option.some.inj hi
  rw [hsrc, hreplay]
  refine ⟨fun hres => ?_, fun hres hfirst => ?_, fun hres hlater => ?_⟩
  · rw [start_layout hl ha ht himage hres]
  · rw [hnil.2 hfirst, Timeline.start, if_pos hres]
    rfl
  · refine Move.layoutAfter_eq (fun hms => ?_) _ _
    obtain ⟨b', hb', himage'⟩ := hlater
    exact hnil.1 hms b' hb' himage'

theorem matchesReplay_entry (ht : t ∈ a.timelines) (himage : t.node.image? = some h)
    {e : TimelineEntry} (he : e ∈ t.entries) :
    l.applyAll (a.transitionsBefore e.pass) h = e.state.layout := by
  obtain ⟨mk, hmk, -, hdst⟩ := Timeline.exists_transition himage
  have hfilter := filter_barriers ha ht himage
    (fun u hu himage' => eq_of_image hl ha ht hu himage himage') hmk
    (Nat.succ_le_of_lt (pass_lt_of_mem_timelines ha ht he))
  have hstart : t.start.layout = l h ∨ t.start = .undefined := by
    by_cases hres : t.node.residency = .dontCare
    · exact .inr (if_pos hres)
    · exact .inl (start_layout hl ha ht himage hres)
  simp only [Nat.lt_succ_iff] at hfilter
  rw [Analysis.transitionsBefore, Layouts.applyAll_of_filter hdst hfilter]
  exact Timeline.layout_at_entry (Timeline.kind_of_image himage)
    (pairwise_of_mem_timelines ha ht) he (exists_mem_access ha ht he) hstart

theorem matchesReplay_carried : f'.Agrees (l.applyAll a.transitions) := by
  refine ⟨fun i j n' m' h hn' hm' himage himage' => ?_, fun i n' h hn' himage hres => ?_⟩
  · obtain ⟨n, s, hn, rfl, -⟩ := exists_node_before ha hn'
    obtain ⟨m, s', hm, rfl, -⟩ := exists_node_before ha hm'
    exact hl.unique i j n m h hn hm himage himage'
  · obtain ⟨n, s, hn, rfl, hlast⟩ := exists_node_before ha hn'
    rcases hlast with ⟨t, ht, rfl, -, rfl⟩ | ⟨rfl, hnone⟩
    · obtain ⟨hnode, -⟩ := node_of_mem_timelines ha ht
      rw [hn] at hnode
      obtain rfl := Option.some.inj hnode
      obtain ⟨mk, hmk, -, hdst⟩ := Timeline.exists_transition himage
      have hfilter := filter_transitions ha ht himage
        (fun u hu himage' => eq_of_image hl ha ht hu himage himage') hmk
      show t.finish.layout = _
      rw [Layouts.applyAll_of_filter hdst hfilter, ← start_layout hl ha ht himage hres]
      exact Timeline.finish_layout (Timeline.kind_of_image himage) _
    · -- no timeline is that of the node, so no barrier is on its image
      have hfilter : a.transitions.filter (·.image == h) = [] := by
        refine List.filter_eq_nil_iff.2 fun b hb hbh => ?_
        obtain ⟨t, ht, himage'⟩ := exists_timeline_of_mem_transitions ha hb
        obtain ⟨hm, -⟩ := node_of_mem_timelines ha ht
        rw [beq_iff_eq.1 hbh] at himage'
        obtain rfl := hl.unique _ _ _ _ h hm hn himage' himage
        rw [hn] at hm
        obtain rfl := Option.some.inj hm
        exact hres (hnone t ht rfl)
      rw [Layouts.applyAll_of_filter_nil hfilter]
      exact hl.layout i n h hn himage hres

/-- **A frame follows the layouts that its images are in.** -/
theorem matchesReplay_of_agrees : a.MatchesReplay passes f f' l where
  barrier _ _ _ hsplit := matchesReplay_barrier hl ha hsplit
  use _ _ _ hpass huse := exists_entry_of_use ha hpass huse
  entry _ ht _ himage _ he := matchesReplay_entry hl ha ht himage he
  attachment target htarget x hx := by
    obtain ⟨t, ht, hi, hkind, hentry⟩ := exists_entry_of_attachment ha htarget hx
    refine ⟨t, ht, hi, ?_, hentry⟩
    obtain ⟨-, hbacked⟩ := node_of_mem_timelines ha ht
    exact Node.exists_image hkind hbacked
  carried := matchesReplay_carried hl ha

end

end

end FrameGraph
