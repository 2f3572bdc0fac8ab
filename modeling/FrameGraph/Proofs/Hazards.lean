import FrameGraph.Proofs.Buckets

/-!
# Hazards between the passes of a frame

Two accesses of which one writes need a barrier between them. The reduction leaves one out where an
entry joins the run before it, and this decides what can be said:

* a run of readers after a write is led into by a barrier (`exists_barrier_into_run`); a later
  reader of the run may come at a stage that no barrier knows of (`not_forall_coversReaders`);
* neighbouring accesses to an image are separated exactly where they differ in access or layout
  (`exists_barrier_between`), so that two writes that look the same are not
  (`not_forall_separatesWrites`).
-/

set_option autoImplicit false

namespace FrameGraph

/-- Whether a barrier that leads into `d` waits for everything that `s` does. -/
def AccessState.Covers (d s : AccessState) : Prop := s.stage ⊆ d.stage ∧ s.access ⊆ d.access

instance (d s : AccessState) : Decidable (d.Covers s) :=
  inferInstanceAs (Decidable (s.stage ⊆ d.stage ∧ s.access ⊆ d.access))

namespace Timeline

/-- `r` reads what `w` wrote: nothing is written between them. -/
structure ReadsFrom (t : Timeline) (w r : TimelineEntry) : Prop where
  mem_write : w ∈ t.entries
  mem_read : r ∈ t.entries
  lt : w.pass < r.pass
  isWrite : w.state.isWrite = true
  isReadOnly : r.state.isReadOnly = true
  between : ∀ e ∈ t.entries, w.pass < e.pass → e.pass < r.pass → e.state.isReadOnly = true

/-- `y` is the next entry after `x`. -/
structure Follows (t : Timeline) (x y : TimelineEntry) : Prop where
  mem_left : x ∈ t.entries
  mem_right : y ∈ t.entries
  lt : x.pass < y.pass
  between : ∀ e ∈ t.entries, x.pass < e.pass → y.pass ≤ e.pass

/-- A barrier leads into the run of readers that `r` is one of, after the write `w`. Only the opener
of the run has a barrier of its own: for a buffer the first entry after the write, for an image the
first of those that access it like `r`. -/
structure LedInto (t : Timeline) (w r : TimelineEntry) (m : Move) : Prop where
  opener : ∃ k ∈ t.entries, k.pass = m.pass ∧ k.state = m.dst
  after_write : w.pass < m.pass
  le_read : m.pass ≤ r.pass
  of_buffer : t.node.kind = .buffer →
    m.src = w.state ∧ ∀ e ∈ t.entries, w.pass < e.pass → m.pass ≤ e.pass
  of_image : t.node.kind = .image → ∀ e ∈ t.entries, m.pass ≤ e.pass → e.pass ≤ r.pass →
    e.state.access = r.state.access ∧ e.state.layout = r.state.layout
  covers : m.pass = r.pass → m.dst.Covers r.state

end Timeline

/-! ## Readers after a write -/

/-- Whether every reader of every write is led into by a barrier that covers it. -/
def Analysis.CoversReaders (a : Analysis) : Prop :=
  ∀ t ∈ a.timelines, t.node.IsTracked → ∀ w r, t.ReadsFrom w r →
    ∃ m ∈ a.movesOn t.node, w.pass < m.pass ∧ m.pass ≤ r.pass ∧ m.dst.Covers r.state

section
variable {es : List TimelineEntry} {w r : TimelineEntry} (s : AccessState)
  (hes : es.Pairwise fun x y => x.pass < y.pass) (hw : w ∈ es) (hr : r ∈ es)
  (hlt : w.pass < r.pass)
include hes hw hr hlt

/-- The first entry of a buffer after a write does not join it. -/
theorem move_into_first (hwrite : w.state.isWrite = true) :
    ∃ k ∈ es, w.pass < k.pass ∧ k.pass ≤ r.pass ∧
      (⟨k.pass, w.state, k.state⟩ : Move) ∈ (Move.along Move.buffersJoin s es).1 ∧
      ∀ e ∈ es, w.pass < e.pass → k.pass ≤ e.pass := by
  obtain ⟨xs, ys, zs, hsplit⟩ := exists_split hes hw hr hlt
  obtain ⟨k, rest, hk⟩ : ∃ k rest, ys ++ r :: zs = k :: rest := by
    cases ys with
    | nil => exact ⟨r, zs, rfl⟩
    | cons k ys => exact ⟨k, ys ++ r :: zs, rfl⟩
  rw [hk] at hsplit
  have hsplit' : es = (xs ++ [w]) ++ k :: rest := by rw [hsplit]; simp
  have hfirst : ∀ e ∈ es, w.pass < e.pass → k.pass ≤ e.pass := by
    intro e he hwe
    rw [hsplit] at he
    rcases List.mem_append.1 he with he | he
    · have := lt_of_mem_left hes hsplit he
      omega
    · rcases List.mem_cons.1 he with rfl | he
      · omega
      · rcases List.mem_cons.1 he with rfl | he
        · exact Nat.le_refl _
        · exact Nat.le_of_lt (lt_of_mem_right hes hsplit' he)
  refine ⟨k, by rw [hsplit]; simp, ?_, hfirst r hr hlt, ?_, hfirst⟩
  · exact lt_of_mem_left hes hsplit' (by simp)
  · refine Move.mem_along_iff.2 ⟨xs ++ [w], k, rest, hsplit', ?_, ?_⟩
    · rw [Move.last_snoc_write s xs hwrite]
      exact Move.buffersJoin_after_write hwrite _
    · rw [Move.last_snoc_write s xs hwrite]

/-- The run of an image that holds a reader is opened after a write that the reader differs from. -/
theorem move_into_last_run (hne : w.state.access ≠ r.state.access) :
    ∃ k ∈ es, w.pass < k.pass ∧ k.pass ≤ r.pass ∧
      (∃ src, (⟨k.pass, src, k.state⟩ : Move) ∈ (Move.along Move.imagesJoin s es).1) ∧
      ∀ e ∈ es, k.pass ≤ e.pass → e.pass ≤ r.pass →
        e.state.access = r.state.access ∧ e.state.layout = r.state.layout := by
  obtain ⟨xs, ys, zs, hsplit⟩ := exists_split hes hw hr hlt
  have hatr : es = (xs ++ w :: ys) ++ r :: zs := by rw [hsplit]; simp
  obtain ⟨hwa, -, -⟩ := Move.last_snoc s xs w
  generalize hmid : (Move.along Move.imagesJoin s (xs ++ [w])).2 = mid at hwa
  -- the run may have begun before `r`, but not before `w`, which `r` is not accessed like
  obtain ⟨xs', k, ys', hrun, hjoin, hrmem, hagree⟩ := Move.exists_opener ys (hwa ▸ hne)
  have hatk : es = (xs ++ [w] ++ xs') ++ k :: (ys' ++ zs) := by
    have hmidrun : ys ++ r :: zs = (xs' ++ k :: ys') ++ zs := by rw [← hrun]; simp
    rw [hsplit, hmidrun]
    simp
  refine ⟨k, by rw [hatk]; simp, ?_, ?_, ⟨(Move.along Move.imagesJoin mid xs').2, ?_⟩, ?_⟩
  · exact lt_of_mem_left hes hatk (by simp)
  · rcases List.mem_cons.1 hrmem with h | h
    · exact Nat.le_of_eq (congrArg TimelineEntry.pass h.symm)
    · exact Nat.le_of_lt (lt_of_mem_right hes hatk (List.mem_append_left zs h))
  · refine Move.mem_along_iff.2 ⟨xs ++ [w] ++ xs', k, ys' ++ zs, hatk, ?_, ?_⟩
    · rw [Move.along_append, hmid]
      exact hjoin
    · rw [Move.along_append, hmid]
  · intro e he hke her
    rw [hatk] at he
    rcases List.mem_append.1 he with he | he
    · have := lt_of_mem_left hes hatk he
      omega
    · rw [← List.cons_append] at he
      rcases List.mem_append.1 he with he | he
      · exact hagree e he
      · have := lt_of_mem_right hes hatr he
        omega

end

section
variable {f f' : Forest} {shaders : Registry} {passes : List Pass} {a : Analysis} {t : Timeline}
  {w r x y : TimelineEntry}

/-- **A run of readers is led into by a barrier.** After a write, the first entry of a buffer and
the first of the like entries of an image that end in a reader have a barrier of their own. -/
theorem exists_barrier_into_run (h : (analyze passes f shaders).result = .ok (a, f'))
    (ht : t ∈ a.timelines) (hkind : t.node.IsTracked) (hr : t.ReadsFrom w r) :
    ∃ m ∈ a.movesOn t.node, t.LedInto w r m := by
  have hes := pairwise_of_mem_timelines h ht
  have hcovers {k : TimelineEntry} (hk : k ∈ t.entries) (hpass : k.pass = r.pass) :
      k.state.Covers r.state := by
    rw [eq_of_pass_eq hes hk hr.mem_read hpass]
    exact ⟨Mask.subset_refl _, Mask.subset_refl _⟩
  rcases hkind with hbuffer | himage
  · obtain ⟨k, hk, hwk, hkr, hmove, hfirst⟩ :=
      move_into_first t.start hes hr.mem_write hr.mem_read hr.lt hr.isWrite
    rw [← Timeline.reduction_of_buffer hbuffer] at hmove
    refine ⟨_, moves_subset_movesOn h ht (.inl hbuffer) hmove, ⟨k, hk, rfl, rfl⟩, hwk, hkr,
      fun _ => ⟨rfl, hfirst⟩, fun himage => ?_, hcovers hk⟩
    rw [hbuffer] at himage
    cases himage
  · have hne : w.state.access ≠ r.state.access := by
      intro heq
      have hwrite := hr.isWrite
      have hread := hr.isReadOnly
      unfold AccessState.isWrite at hwrite
      unfold AccessState.isReadOnly AccessState.isWrite at hread
      rw [← heq, hwrite] at hread
      cases hread
    obtain ⟨k, hk, hwk, hkr, ⟨src, hmove⟩, hrun⟩ :=
      move_into_last_run t.start hes hr.mem_write hr.mem_read hr.lt hne
    rw [← Timeline.reduction_of_image himage] at hmove
    refine ⟨_, moves_subset_movesOn h ht (.inr himage) hmove, ⟨k, hk, rfl, rfl⟩, hwk, hkr,
      fun hbuffer => ?_, fun _ => hrun, hcovers hk⟩
    rw [himage] at hbuffer
    cases hbuffer

end

/-! ### A second reader at another stage -/

namespace Arguments

/-- A buffer of dispatch arguments, mounted and not yet used. -/
def forest : Forest where
  nodes := [{
    name := "arguments"
    residency := .transient
    payload := .buffer ⟨64, BufferUsage.storage ∪ BufferUsage.indirect⟩ (some ⟨1⟩)
    life := 1 }]
  life := 1

/-- The arguments are filled, then read at two stages. -/
def passes : List Pass :=
  [⟨"cull", .compute none, [.bound "arguments" "Arguments" .write]⟩,
   ⟨"dispatch", .compute none, [.indirect "arguments"]⟩,
   ⟨"count", .compute none, [.bound "arguments" "Arguments" .read]⟩]

def filled : TimelineEntry := ⟨0, .ofBuffer .computeShader .shaderWrite⟩

def dispatched : TimelineEntry := ⟨1, .ofBuffer .drawIndirect .indirectCommandRead⟩

def counted : TimelineEntry := ⟨2, .ofBuffer .computeShader .shaderRead⟩

def timeline : Timeline := ⟨0, forest.nodes[0], [filled, dispatched, counted]⟩

def analysis : Analysis :=
  .ofUses forest
    [⟨[⟨0, .computeShader, .shaderWrite⟩], none⟩,
     ⟨[⟨0, .drawIndirect, .indirectCommandRead⟩], none⟩,
     ⟨[⟨0, .computeShader, .shaderRead⟩], none⟩]

theorem analyze_eq :
    (analyze passes forest {}).result = .ok (analysis, forest.carry analysis.timelines) := rfl

theorem readsFrom : timeline.ReadsFrom filled counted where
  mem_write := by decide
  mem_read := by decide
  lt := by decide
  isWrite := by decide
  isReadOnly := by decide
  between := by decide

theorem movesOn_eq : analysis.movesOn timeline.node =
    [⟨0, .undefined, filled.state⟩, ⟨1, filled.state, dispatched.state⟩] := by
  decide

end Arguments

/-- The count reads at a stage that the barrier before the dispatch does not wait with. -/
theorem not_forall_coversReaders : ¬ ∀ (passes : List Pass) (f : Forest) (shaders : Registry)
    (a : Analysis) (f' : Forest),
    (analyze passes f shaders).result = .ok (a, f') → a.CoversReaders := by
  intro h
  have hcovers := h Arguments.passes Arguments.forest {} _ _ Arguments.analyze_eq
  obtain ⟨m, hm, hlt, -, hm'⟩ :=
    hcovers Arguments.timeline (by decide) (.inl rfl) _ _ Arguments.readsFrom
  rw [Arguments.movesOn_eq] at hm
  simp only [List.mem_cons, List.not_mem_nil, or_false] at hm
  rcases hm with rfl | rfl
  · revert hlt
    decide
  · revert hm'
    decide

theorem exists_barrier_into_run_arguments :
    ∃ m ∈ Arguments.analysis.movesOn Arguments.timeline.node,
      Arguments.timeline.LedInto Arguments.filled Arguments.counted m :=
  exists_barrier_into_run Arguments.analyze_eq (by decide) (.inl rfl) Arguments.readsFrom

/-! ## Neighbouring accesses to an image -/

/-- Whether neighbouring accesses to an image of which one writes are separated by a barrier. -/
def Analysis.SeparatesWrites (a : Analysis) : Prop :=
  ∀ t ∈ a.timelines, t.node.kind = .image → ∀ x y, t.Follows x y →
    x.state.isWrite = true ∨ y.state.isWrite = true → ∃ m ∈ a.movesOn t.node, m.pass = y.pass

namespace Timeline

variable {t : Timeline} {x y : TimelineEntry}

/-- Nothing stands between neighbours. -/
theorem Follows.exists_neighbours (hxy : t.Follows x y)
    (hes : t.entries.Pairwise fun x y => x.pass < y.pass) :
    ∃ xs zs, t.entries = (xs ++ [x]) ++ y :: zs := by
  obtain ⟨xs, ys, zs, hsplit⟩ := exists_split hes hxy.mem_left hxy.mem_right hxy.lt
  have hys : ys = [] := by
    refine List.eq_nil_iff_forall_not_mem.2 fun e he => ?_
    have hmem : e ∈ t.entries := by rw [hsplit]; simp [he]
    have hxe := lt_of_mem_right hes hsplit (List.mem_append_left _ he)
    have haty : t.entries = (xs ++ x :: ys) ++ y :: zs := by rw [hsplit]; simp
    have hey : e.pass < y.pass := lt_of_mem_left hes haty (by simp [he])
    have := hxy.between e hmem hxe
    omega
  subst hys
  exact ⟨xs, zs, by rw [hsplit]; simp⟩

/-- An entry of an image that looks other than the one before it is a move, out of what that left. -/
theorem Follows.exists_move (hxy : t.Follows x y)
    (hes : t.entries.Pairwise fun x y => x.pass < y.pass) (himage : t.node.kind = .image)
    (hne : x.state.access ≠ y.state.access ∨ x.state.layout ≠ y.state.layout) :
    ∃ m ∈ t.moves, m.pass = y.pass ∧ m.dst = y.state ∧ x.state.stage ⊆ m.src.stage ∧
      m.src.access = x.state.access ∧ m.src.layout = x.state.layout := by
  obtain ⟨xs, zs, hsplit⟩ := hxy.exists_neighbours hes
  obtain ⟨hsa, hsl, hss⟩ := Move.last_snoc t.start xs x
  have hmove : (⟨y.pass, (Move.along Move.imagesJoin t.start (xs ++ [x])).2, y.state⟩ : Move) ∈
      t.moves := by
    unfold moves
    rw [reduction_of_image himage]
    refine Move.mem_along_iff.2 ⟨xs ++ [x], y, zs, hsplit, ?_, rfl⟩
    rw [Bool.eq_false_iff, Ne, Move.imagesJoin_iff, hsa, hsl]
    exact not_and_or.2 hne
  exact ⟨_, hmove, rfl, rfl, hss, hsa, hsl⟩

/-- An entry of an image that looks like the one before it is no move. -/
theorem Follows.movesAt_eq_nil (hxy : t.Follows x y)
    (hes : t.entries.Pairwise fun x y => x.pass < y.pass) (himage : t.node.kind = .image)
    (haccess : x.state.access = y.state.access) (hlayout : x.state.layout = y.state.layout) :
    t.movesAt y.pass = [] := by
  obtain ⟨xs, zs, hsplit⟩ := hxy.exists_neighbours hes
  obtain ⟨hsa, hsl, -⟩ := Move.last_snoc t.start xs x
  have hjoin : Move.imagesJoin (Move.along Move.imagesJoin t.start (xs ++ [x])).2 y.state = true :=
    Move.imagesJoin_iff.2 ⟨hsa.trans haccess, hsl.trans hlayout⟩
  refine List.filter_eq_nil_iff.2 fun m hm => ?_
  rw [moves, reduction_of_image himage, hsplit, Move.along_append, Move.along_joined hjoin] at hm
  -- All moves lead into other entries than `y`.
  have hne : m.pass ≠ y.pass := by
    rcases List.mem_append.1 hm with hm | hm
    · obtain ⟨e, he, hpass, -⟩ := Move.exists_entry hm
      have := lt_of_mem_left hes hsplit he
      omega
    · obtain ⟨e, he, hpass, -⟩ := Move.exists_entry hm
      have := lt_of_mem_right hes hsplit he
      omega
  simpa using hne

end Timeline

/-- A pass before which the timelines of a name do not move has no barrier on that resource. -/
theorem ofResource_before_of_idle {pass : Nat} {ts : List Timeline} {name : String}
    (h : ∀ t ∈ ts, t.node.name = name → t.movesAt pass = []) :
    (TransitionBatch.before pass ts).ofResource name = .empty := by
  have hidle : ∀ t ∈ ts.filter (·.node.name == name), t.movesAt pass = [] := by
    intro t ht
    obtain ⟨ht, hname⟩ := List.mem_filter.1 ht
    exact h t ht (by simpa using hname)
  rw [ofResource_before, TransitionBatch.before, TransitionBatch.empty]
  congr 1
  · exact List.flatMap_eq_nil_iff.2 fun t ht => by rw [hidle t ht, List.filterMap_nil]
  · exact List.flatMap_eq_nil_iff.2 fun t ht => by rw [hidle t ht, List.filterMap_nil]

section
variable {f f' : Forest} {shaders : Registry} {passes : List Pass} {a : Analysis} {t : Timeline}
  {x y : TimelineEntry}

/-- **Neighbouring accesses to an image are separated exactly if they differ.** The barrier between
accesses that differ waits for the stages of the first, starts from its access and layout and leads
into the second. If both have the same access and layout, there is no barrier on the resource before
the pass of the second. -/
theorem exists_barrier_between (h : (analyze passes f shaders).result = .ok (a, f'))
    (ht : t ∈ a.timelines) (himage : t.node.kind = .image) (hxy : t.Follows x y) :
    (x.state.access ≠ y.state.access ∨ x.state.layout ≠ y.state.layout →
      ∃ m ∈ a.movesOn t.node, m.pass = y.pass ∧ m.dst = y.state ∧
        x.state.stage ⊆ m.src.stage ∧ m.src.access = x.state.access ∧
        m.src.layout = x.state.layout) ∧
    (x.state.access = y.state.access → x.state.layout = y.state.layout → f.WellFormed →
      (a.bucketsOf t.node.name)[y.pass]? = some .empty) := by
  have hes := pairwise_of_mem_timelines h ht
  constructor
  · intro hne
    obtain ⟨m, hm, hleads⟩ := hxy.exists_move hes himage hne
    exact ⟨m, moves_subset_movesOn h ht (.inr himage) hm, hleads⟩
  · intro haccess hlayout hf
    have hpass := pass_lt_of_mem_timelines h ht hxy.mem_right
    have hidle : ∀ t' ∈ a.timelines, t'.node.name = t.node.name → t'.movesAt y.pass = [] := by
      intro t' ht' hname
      obtain ⟨frame, hts, -⟩ := timelines_eq h
      have hindex := hf.index_unique (node_of_mem_timelines h ht').1 (node_of_mem_timelines h ht).1
        hname
      rw [hts] at ht ht'
      obtain rfl := Timeline.eq_of_index_eq ht' ht hindex
      exact hxy.movesAt_eq_nil hes himage haccess hlayout
    rw [Analysis.bucketsOf, (barriers_eq h).1, List.getElem?_map, List.getElem?_map,
      List.getElem?_range hpass, Option.map_some, Option.map_some, ofResource_before_of_idle hidle]

end

/-! ### Two writes that look the same -/

namespace Blur

/-- A storage image, mounted and not yet used, with its default view. -/
def forest : Forest where
  nodes := [
    { name := "blur", residency := .transient, payload := .image {} (some ⟨1⟩) false, life := 1 },
    { name := "blur/blur"
      residency := .transient
      payload := .imageView (ImageDesc.defaultView {}) "blur" (some ⟨2⟩)
      parent := some 0
      life := 1 }]
  life := 1

/-- Two passes write the image, a third reads it. -/
def passes : List Pass :=
  [⟨"rows", .compute none, [.bound "blur" "Target" .write]⟩,
   ⟨"columns", .compute none, [.bound "blur" "Target" .write]⟩,
   ⟨"mean", .compute none, [.bound "blur" "Source" .read]⟩]

def rows : TimelineEntry := ⟨0, .computeShader, .shaderWrite, .general⟩

def columns : TimelineEntry := ⟨1, .computeShader, .shaderWrite, .general⟩

def mean : TimelineEntry := ⟨2, .computeShader, .shaderRead, .shaderReadOnly⟩

def timeline : Timeline := ⟨0, forest.nodes[0], [rows, columns, mean]⟩

def analysis : Analysis :=
  .ofUses forest
    [⟨[⟨0, .computeShader, .shaderWrite⟩], none⟩,
     ⟨[⟨0, .computeShader, .shaderWrite⟩], none⟩,
     ⟨[⟨0, .computeShader, .shaderRead⟩], none⟩]

theorem analyze_eq :
    (analyze passes forest {}).result = .ok (analysis, forest.carry analysis.timelines) := rfl

theorem rows_columns : timeline.Follows rows columns where
  mem_left := by decide
  mem_right := by decide
  lt := by decide
  between := by decide

theorem columns_mean : timeline.Follows columns mean where
  mem_left := by decide
  mem_right := by decide
  lt := by decide
  between := by decide

theorem movesOn_eq : analysis.movesOn timeline.node =
    [⟨0, .undefined, rows.state⟩, ⟨2, columns.state, mean.state⟩] := by
  decide

end Blur

/-- The second write of the blur has no barrier before it. -/
theorem not_forall_separatesWrites : ¬ ∀ (passes : List Pass) (f : Forest) (shaders : Registry)
    (a : Analysis) (f' : Forest),
    (analyze passes f shaders).result = .ok (a, f') → a.SeparatesWrites := by
  intro h
  have hseparates := h Blur.passes Blur.forest {} _ _ Blur.analyze_eq
  obtain ⟨m, hm, hpass⟩ :=
    hseparates Blur.timeline (by decide) rfl _ _ Blur.rows_columns (.inl (by decide))
  rw [Blur.movesOn_eq] at hm
  simp only [List.mem_cons, List.not_mem_nil, or_false] at hm
  rcases hm with rfl | rfl
  · revert hpass
    decide
  · revert hpass
    decide

theorem exists_barrier_between_blur :
    (∃ m ∈ Blur.analysis.movesOn Blur.timeline.node,
      m.pass = Blur.mean.pass ∧ m.dst = Blur.mean.state ∧
        Blur.columns.state.stage ⊆ m.src.stage ∧ m.src.access = Blur.columns.state.access ∧
        m.src.layout = Blur.columns.state.layout) ∧
    (Blur.analysis.bucketsOf "blur")[Blur.columns.pass]? = some .empty := by
  obtain ⟨hbetween, -⟩ := exists_barrier_between Blur.analyze_eq (by decide) rfl Blur.columns_mean
  obtain ⟨-, hjoined⟩ := exists_barrier_between Blur.analyze_eq (by decide) rfl Blur.rows_columns
  exact ⟨hbetween (.inl (by decide)), hjoined rfl rfl (by decide)⟩

end FrameGraph
