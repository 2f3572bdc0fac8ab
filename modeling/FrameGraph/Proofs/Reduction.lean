import FrameGraph.Analysis.Reduction

/-!
# Moves along a timeline

`Move.along` cuts the entries of a timeline into runs: an entry that joins the state before it adds
to that state, every other entry opens a run and costs a move. The facts here hold of any rule for
joining (`along_append`, `mem_along_iff`, `passes_sublist`), then of the rules for images and for
buffers:

* an image's states are linked: each move starts in the layout in which the moves before it left
  the image (`src_layout`), and the state at an entry has the layout of that entry
  (`last_snoc`);
* what a run of an image has in common is the access and the layout of its entries
  (`agree_of_no_moves`), and `exists_opener` finds the entry that opened the run of another;
* a buffer's write never joins, so it opens a run and its state is kept as it is until the next
  entry (`last_snoc_write`).
-/

set_option autoImplicit false

namespace FrameGraph

namespace Move

section
variable {joins : AccessState → AccessState → Bool}

/-! ## Any rule for joining -/

theorem along_joined {s : AccessState} {e : TimelineEntry} {es : List TimelineEntry}
    (h : joins s e.state = true) :
    along joins s (e :: es) = along joins (s.mergeRead e.state) es := by
  simp [along, h]

theorem along_moved {s : AccessState} {e : TimelineEntry} {es : List TimelineEntry}
    (h : joins s e.state = false) :
    along joins s (e :: es) =
      (⟨e.pass, s, e.state⟩ :: (along joins e.state es).1, (along joins e.state es).2) := by
  simp [along, h]

/-- Going on from where the first entries ended. -/
theorem along_append (s : AccessState) (xs ys : List TimelineEntry) :
    along joins s (xs ++ ys) =
      ((along joins s xs).1 ++ (along joins (along joins s xs).2 ys).1,
        (along joins (along joins s xs).2 ys).2) := by
  induction xs generalizing s with
  | nil => rfl
  | cons e xs ih =>
    rw [List.cons_append]
    cases h : joins s e.state with
    | true => rw [along_joined h, along_joined h, ih]
    | false =>
      rw [along_moved h, along_moved h, ih]
      rfl

/-- A move leads into an entry that does not join the state before it. -/
theorem mem_along_iff {s : AccessState} {es : List TimelineEntry} {m : Move} :
    m ∈ (along joins s es).1 ↔ ∃ xs e ys, es = xs ++ e :: ys ∧
      joins (along joins s xs).2 e.state = false ∧
      m = ⟨e.pass, (along joins s xs).2, e.state⟩ := by
  constructor
  · intro hm
    induction es generalizing s with
    | nil => simp [along] at hm
    | cons e es ih =>
      cases h : joins s e.state with
      | true =>
        rw [along_joined h] at hm
        obtain ⟨xs, e', ys, rfl, hj, rfl⟩ := ih hm
        refine ⟨e :: xs, e', ys, rfl, ?_, ?_⟩
        · rw [along_joined h]; exact hj
        · rw [along_joined h]
      | false =>
        rw [along_moved h] at hm
        rcases List.mem_cons.1 hm with rfl | hm
        · exact ⟨[], e, es, rfl, h, rfl⟩
        · obtain ⟨xs, e', ys, rfl, hj, rfl⟩ := ih hm
          refine ⟨e :: xs, e', ys, rfl, ?_, ?_⟩
          · rw [along_moved h]; exact hj
          · rw [along_moved h]
  · rintro ⟨xs, e, ys, rfl, hj, rfl⟩
    rw [along_append, along_moved hj]
    exact List.mem_append_right _ List.mem_cons_self

/-- The moves lead into some of the entries, in their order. -/
theorem passes_sublist (s : AccessState) (es : List TimelineEntry) :
    ((along joins s es).1.map (·.pass)).Sublist (es.map (·.pass)) := by
  induction es generalizing s with
  | nil => exact List.Sublist.refl _
  | cons e es ih =>
    cases h : joins s e.state with
    | true =>
      rw [along_joined h]
      exact (ih _).cons _
    | false =>
      rw [along_moved h]
      exact (ih _).cons_cons _

/-- Every move leads into an entry of its pass. -/
theorem exists_entry {s : AccessState} {es : List TimelineEntry} {m : Move}
    (h : m ∈ (along joins s es).1) : ∃ e ∈ es, m.pass = e.pass ∧ m.dst = e.state := by
  obtain ⟨xs, e, ys, rfl, -, rfl⟩ := mem_along_iff.1 h
  exact ⟨e, by simp, rfl, rfl⟩

theorem pairwise_passes {s : AccessState} {es : List TimelineEntry}
    (h : es.Pairwise fun x y => x.pass < y.pass) :
    (along joins s es).1.Pairwise fun x y => x.pass < y.pass := by
  have hes : (es.map (·.pass)).Pairwise (· < ·) := List.pairwise_map.2 h
  exact List.pairwise_map.1 (hes.sublist (passes_sublist s es))

/-- Where there are moves, the last run is opened by one of them and ends in the last state. -/
theorem exists_last_run {s : AccessState} {es : List TimelineEntry}
    (h : (along joins s es).1 ≠ []) : ∃ xs e ys, es = xs ++ e :: ys ∧
      joins (along joins s xs).2 e.state = false ∧ (along joins e.state ys).1 = [] ∧
      (along joins e.state ys).2 = (along joins s es).2 := by
  induction es generalizing s with
  | nil => exact absurd rfl h
  | cons e es ih =>
    cases hj : joins s e.state with
    | true =>
      rw [along_joined hj] at h
      obtain ⟨xs, e', ys, rfl, hm, hys, hlast⟩ := ih h
      refine ⟨e :: xs, e', ys, rfl, ?_, hys, ?_⟩
      · rw [along_joined hj]; exact hm
      · rw [hlast, along_joined hj]
    | false =>
      by_cases hes : (along joins e.state es).1 = []
      · refine ⟨[], e, es, rfl, hj, hes, ?_⟩
        rw [along_moved hj]
      · obtain ⟨xs, e', ys, rfl, hm, hys, hlast⟩ := ih hes
        refine ⟨e :: xs, e', ys, rfl, ?_, hys, ?_⟩
        · rw [along_moved hj]; exact hm
        · rw [hlast, along_moved hj]

/-- The moves up to the pass of an entry are those along the entries up to it. -/
theorem filter_pass_le {s : AccessState} {xs ys : List TimelineEntry} {e : TimelineEntry}
    (h : (xs ++ e :: ys).Pairwise fun x y => x.pass < y.pass) :
    (along joins s (xs ++ e :: ys)).1.filter (fun m => decide (m.pass ≤ e.pass)) =
      (along joins s (xs ++ [e])).1 := by
  have hsplit : xs ++ e :: ys = (xs ++ [e]) ++ ys := by simp
  rw [hsplit] at h ⊢
  obtain ⟨-, -, hlt⟩ := List.pairwise_append.1 h
  have hle : ∀ x ∈ xs ++ [e], x.pass ≤ e.pass := by
    intro x hx
    rcases List.mem_append.1 hx with hx' | hx'
    · obtain ⟨hp, -, -⟩ := List.pairwise_append.1 h
      exact Nat.le_of_lt ((List.pairwise_append.1 hp).2.2 x hx' e (by simp))
    · exact Nat.le_of_eq (congrArg TimelineEntry.pass (List.mem_singleton.1 hx'))
  rw [along_append, List.filter_append]
  have hfirst : (along joins s (xs ++ [e])).1.filter (fun m => decide (m.pass ≤ e.pass)) =
      (along joins s (xs ++ [e])).1 := by
    refine List.filter_eq_self.2 fun m hm => ?_
    obtain ⟨x, hx, hp, -⟩ := exists_entry hm
    rw [hp]
    exact decide_eq_true (hle x hx)
  have hrest : (along joins (along joins s (xs ++ [e])).2 ys).1.filter
      (fun m => decide (m.pass ≤ e.pass)) = [] := by
    refine List.filter_eq_nil_iff.2 fun m hm => ?_
    obtain ⟨y, hy, hp, -⟩ := exists_entry hm
    have := hlt e (by simp) y hy
    rw [hp]
    simpa using this
  rw [hfirst, hrest, List.append_nil]

end

/-! ## Images -/

theorem imagesJoin_iff {s t : AccessState} :
    imagesJoin s t = true ↔ s.access = t.access ∧ s.layout = t.layout := by
  simp [imagesJoin]

theorem mergeRead_of_imagesJoin {s t : AccessState} (h : imagesJoin s t = true) :
    (s.mergeRead t).access = s.access := by
  rw [AccessState.mergeRead_access, (imagesJoin_iff.1 h).1, Mask.union_self]

/-- The layout of an image after moves. -/
def layoutAfter (l : ImageLayout) (ms : List Move) : ImageLayout :=
  ms.foldl (fun _ m => m.dst.layout) l

theorem layoutAfter_cons (l : ImageLayout) (m : Move) (ms : List Move) :
    layoutAfter l (m :: ms) = layoutAfter m.dst.layout ms := rfl

/-- Where there is a move, it does not matter in which layout the image was. -/
theorem layoutAfter_eq {ms : List Move} (h : ms ≠ []) (l l' : ImageLayout) :
    layoutAfter l ms = layoutAfter l' ms := by
  cases ms with
  | nil => exact absurd rfl h
  | cons m ms => rfl

theorem last_layout (s : AccessState) (es : List TimelineEntry) :
    (along imagesJoin s es).2.layout = layoutAfter s.layout (along imagesJoin s es).1 := by
  induction es generalizing s with
  | nil => rfl
  | cons e es ih =>
    cases h : imagesJoin s e.state with
    | true => rw [along_joined h, ih, AccessState.mergeRead_layout]
    | false => rw [along_moved h, layoutAfter_cons, ih]

/-- Each move starts in the layout in which the moves before it left the image. -/
theorem src_layout {s : AccessState} {es : List TimelineEntry} {before after : List Move} {m : Move}
    (h : (along imagesJoin s es).1 = before ++ m :: after) :
    m.src.layout = layoutAfter s.layout before := by
  induction es generalizing s before with
  | nil => simp [along] at h
  | cons e es ih =>
    cases hj : imagesJoin s e.state with
    | true =>
      rw [along_joined hj] at h
      have := ih h
      exact this
    | false =>
      rw [along_moved hj] at h
      cases before with
      | nil =>
        obtain ⟨rfl, -⟩ := List.cons.inj h
        rfl
      | cons m' before =>
        obtain ⟨rfl, hrest⟩ := List.cons.inj h
        have := ih hrest
        exact this

/-- After an entry an image is in the access and the layout of that entry, and in its stages
besides those of the run. -/
theorem last_snoc (s : AccessState) (xs : List TimelineEntry) (e : TimelineEntry) :
    (along imagesJoin s (xs ++ [e])).2.access = e.state.access ∧
      (along imagesJoin s (xs ++ [e])).2.layout = e.state.layout ∧
      e.state.stage ⊆ (along imagesJoin s (xs ++ [e])).2.stage := by
  rw [along_append]
  cases h : imagesJoin (along imagesJoin s xs).2 e.state with
  | true =>
    rw [along_joined h]
    refine ⟨?_, (imagesJoin_iff.1 h).2, Mask.subset_union_right _ _⟩
    exact (mergeRead_of_imagesJoin h).trans (imagesJoin_iff.1 h).1
  | false =>
    rw [along_moved h]
    exact ⟨rfl, rfl, Mask.subset_refl _⟩

/-- Entries without a move agree with the state that they go on from. -/
theorem agree_of_no_moves {s : AccessState} {es : List TimelineEntry}
    (h : (along imagesJoin s es).1 = []) :
    (along imagesJoin s es).2.access = s.access ∧
      ∀ e ∈ es, e.state.access = s.access ∧ e.state.layout = s.layout := by
  induction es generalizing s with
  | nil => exact ⟨rfl, by simp⟩
  | cons e es ih =>
    cases hj : imagesJoin s e.state with
    | true =>
      rw [along_joined hj] at h ⊢
      obtain ⟨hlast, hes⟩ := ih h
      obtain ⟨ha, hl⟩ := imagesJoin_iff.1 hj
      rw [mergeRead_of_imagesJoin hj] at hlast hes
      refine ⟨hlast, fun x hx => ?_⟩
      rcases List.mem_cons.1 hx with rfl | hx
      · exact ⟨ha.symm, hl.symm⟩
      · exact hes x hx
    | false =>
      rw [along_moved hj] at h
      cases h

/-- An entry that is not accessed like the state before is in a run that has an opener. -/
theorem exists_opener {s : AccessState} (es : List TimelineEntry) {e : TimelineEntry}
    (hne : s.access ≠ e.state.access) : ∃ xs k ys, es ++ [e] = xs ++ k :: ys ∧
      imagesJoin (along imagesJoin s xs).2 k.state = false ∧ e ∈ k :: ys ∧
      ∀ x ∈ k :: ys, x.state.access = e.state.access ∧ x.state.layout = e.state.layout := by
  have hmoves : (along imagesJoin s (es ++ [e])).1 ≠ [] := by
    intro hnil
    have hlast := (agree_of_no_moves hnil).1
    rw [(last_snoc s es e).1] at hlast
    exact hne hlast.symm
  obtain ⟨xs, k, ys, hrun, hjoin, hnil, -⟩ := exists_last_run hmoves
  have hagree : ∀ x ∈ k :: ys,
      x.state.access = k.state.access ∧ x.state.layout = k.state.layout := by
    intro x hx
    rcases List.mem_cons.1 hx with rfl | hx
    · exact ⟨rfl, rfl⟩
    · exact (agree_of_no_moves hnil).2 x hx
  have he : e ∈ k :: ys := by
    have hlast := congrArg List.getLast? hrun
    rw [List.getLast?_concat, List.getLast?_append, List.getLast?_cons, Option.some_or,
      ← List.getLast?_cons] at hlast
    exact List.mem_of_getLast? hlast.symm
  obtain ⟨hea, hel⟩ := hagree e he
  refine ⟨xs, k, ys, hrun, hjoin, he, fun x hx => ?_⟩
  obtain ⟨ha, hl⟩ := hagree x hx
  exact ⟨ha.trans hea.symm, hl.trans hel.symm⟩

/-! ## Buffers -/

theorem buffersJoin_of_write (s : AccessState) {t : AccessState} (h : t.isWrite = true) :
    buffersJoin s t = false := by
  simp [buffersJoin, AccessState.isReadOnly, h]

theorem buffersJoin_after_write {s : AccessState} (h : s.isWrite = true) (t : AccessState) :
    buffersJoin s t = false := by
  simp [buffersJoin, AccessState.isReadOnly, h]

/-- A write opens a run, so nothing is joined to it from before. -/
theorem last_snoc_write (s : AccessState) (xs : List TimelineEntry) {e : TimelineEntry}
    (h : e.state.isWrite = true) : (along buffersJoin s (xs ++ [e])).2 = e.state := by
  rw [along_append, along_moved (buffersJoin_of_write _ h)]
  rfl

end Move

end FrameGraph
