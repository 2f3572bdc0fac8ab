import FrameGraph.Proofs.Hazards
import FrameGraph.Proofs.Layouts
import FrameGraph.Proofs.Plans
import FrameGraph.Proofs.Presentation

/-!
# Groups of accesses

The accesses to a resource, from the state in which a frame finds it, are cut into groups: an access
to a buffer goes on in a group of readers, an access to an image goes on after one just like it, and
every other access opens a group (`Node.IsCut`). There is one such cut (`isCut_cut`,
`eq_cut_of_isCut`), and a frame has a barrier wherever a group follows another (`moves_between`):
before the pass that opens the group, into its first access, from all that the group before it did.
-/

set_option autoImplicit false

namespace FrameGraph

/-- An access to a resource. The state in which a frame finds the resource is one without a pass. -/
structure Access where
  pass : Option Nat
  state : AccessState

def Access.ofEntry (e : TimelineEntry) : Access := ⟨some e.pass, e.state⟩

/-- One access or more, in order. -/
structure AccessGroup where
  first : Access
  rest : List Access := []

namespace AccessGroup

def members (g : AccessGroup) : List Access := g.first :: g.rest

def add (g : AccessGroup) (x : Access) : AccessGroup := { g with rest := g.rest ++ [x] }

/-- The state after a group: all its stages and accesses, in the layout of the first. -/
def state (g : AccessGroup) : AccessState :=
  g.rest.foldl (fun s x => s.mergeRead x.state) g.first.state

theorem members_add (g : AccessGroup) (x : Access) : (g.add x).members = g.members ++ [x] := rfl

theorem state_add (g : AccessGroup) (x : Access) :
    (g.add x).state = g.state.mergeRead x.state := by
  simp [state, add]

end AccessGroup

/-- The accesses to the node of a timeline, from the state in which the frame finds it. -/
def Timeline.accesses (t : Timeline) : List Access := ⟨none, t.start⟩ :: t.entries.map .ofEntry

namespace Node

/-- Whether an access goes on in the group of those before it: to a buffer, if all of them only
read; to an image, if access and layout are those of the access just before. -/
def goesOn (n : Node) (before : List Access) (x : Access) : Bool :=
  match n.payload with
  | .buffer _ _ => (before ++ [x]).all (·.state.isReadOnly)
  | _ => before.getLast?.any fun y =>
      y.state.access == x.state.access && y.state.layout == x.state.layout

/-- The groups of a group and the accesses after it. -/
def cut (n : Node) (g : AccessGroup) : List Access → List AccessGroup
  | [] => [g]
  | x :: rest =>
    if n.goesOn g.members x then n.cut (g.add x) rest else g :: n.cut { first := x } rest

/-- Whether every member of a group goes on after those before it. -/
def Coheres (n : Node) (g : AccessGroup) : Prop :=
  ∀ before x after, g.rest = before ++ x :: after → n.goesOn (g.first :: before) x = true

/-- Whether groups are the accesses cut where one does not go on. -/
structure IsCut (n : Node) (xs : List Access) (gs : List AccessGroup) : Prop where
  members : gs.flatMap (·.members) = xs
  coheres : ∀ g ∈ gs, n.Coheres g
  opens : ∀ before g g' after, gs = before ++ g :: g' :: after →
    n.goesOn g.members g'.first = false

variable {n : Node} {g g' : AccessGroup} {x : Access} {xs : List Access} {gs : List AccessGroup}

/-! ## The cut -/

/-- The first group of a cut is the one that it began with, gone on. -/
theorem exists_cut_eq (n : Node) (g : AccessGroup) (xs : List Access) :
    ∃ more gs, n.cut g xs = { g with rest := g.rest ++ more } :: gs := by
  induction xs generalizing g with
  | nil => exact ⟨[], [], by simp [cut]⟩
  | cons x xs ih =>
    rw [cut]
    split
    · obtain ⟨more, gs, h⟩ := ih (g.add x)
      exact ⟨x :: more, gs, by rw [h]; simp [AccessGroup.add]⟩
    · exact ⟨[], _, by simp; rfl⟩

theorem Coheres.single (n : Node) (x : Access) : n.Coheres { first := x } := by
  intro before y after h
  simp at h

theorem Coheres.add (h : n.Coheres g) (hx : n.goesOn g.members x = true) : n.Coheres (g.add x) := by
  intro before y after hsplit
  rcases List.eq_nil_or_concat after with rfl | ⟨after, z, rfl⟩
  · obtain ⟨rfl, heq⟩ := List.append_inj' hsplit rfl
    obtain rfl := (List.cons.inj heq).1
    exact hx
  · have hsplit' : g.rest ++ [x] = (before ++ y :: after) ++ [z] := by
      simpa [AccessGroup.add] using hsplit
    exact h before y after (List.append_inj' hsplit' rfl).1

/-- What coheres with the first members of a group is taken into it. -/
theorem cut_of_coheres {first : Access} (ys : List Access) {zs : List Access}
    (h : n.Coheres ⟨first, ys ++ zs⟩) (xs : List Access) :
    n.cut ⟨first, ys⟩ (zs ++ xs) = n.cut ⟨first, ys ++ zs⟩ xs := by
  induction zs generalizing ys with
  | nil => rw [List.append_nil, List.nil_append]
  | cons z zs ih =>
    have hz : n.goesOn (AccessGroup.members ⟨first, ys⟩) z = true := h ys z zs rfl
    have hassoc : ys ++ z :: zs = (ys ++ [z]) ++ zs := by simp
    rw [hassoc] at h ⊢
    rw [List.cons_append, cut, if_pos hz]
    exact ih _ h

theorem IsCut.tail (h : n.IsCut xs (g :: gs)) : n.IsCut (gs.flatMap (·.members)) gs where
  members := rfl
  coheres g' hg' := h.coheres g' (List.mem_cons_of_mem g hg')
  opens before g₁ g₂ after hsplit := h.opens (g :: before) g₁ g₂ after (by rw [hsplit]; rfl)

theorem cut_of_isCut (h : n.IsCut xs (g :: gs)) :
    n.cut { first := g.first } (g.rest ++ gs.flatMap (·.members)) = g :: gs := by
  induction gs generalizing xs g with
  | nil => rw [cut_of_coheres [] (h.coheres g List.mem_cons_self)]; rfl
  | cons g' gs ih =>
    have hopens := h.opens [] g g' gs rfl
    rw [cut_of_coheres [] (h.coheres g List.mem_cons_self), List.flatMap_cons,
      AccessGroup.members, List.cons_append, cut, if_neg (by rw [List.nil_append, hopens]; decide),
      ih h.tail]
    rfl

/-- **There is no other cut.** -/
theorem eq_cut_of_isCut {first : Access} (h : n.IsCut (first :: xs) gs) :
    gs = n.cut { first } xs := by
  cases gs with
  | nil => cases h.members
  | cons g gs =>
    obtain ⟨rfl, hxs⟩ := List.cons.inj h.members
    rw [← hxs]
    exact (cut_of_isCut h).symm

/-- **The cut cuts where an access does not go on.** -/
theorem isCut_cut (h : n.Coheres g) (xs : List Access) :
    n.IsCut (g.members ++ xs) (n.cut g xs) := by
  induction xs generalizing g with
  | nil =>
    refine ⟨by simp [cut], fun g' hg' => ?_, fun before g₁ g₂ after hsplit => ?_⟩
    · obtain rfl := List.mem_singleton.1 hg'
      exact h
    · have hlength := congrArg List.length hsplit
      simp only [cut, List.length_append, List.length_cons, List.length_nil] at hlength
      omega
  | cons x xs ih =>
    rw [cut]
    split
    · next hx =>
      have hcut := ih (h.add hx)
      rwa [AccessGroup.members_add, List.append_assoc] at hcut
    · next hx =>
      have hcut := ih (Coheres.single n x)
      obtain ⟨more, gs, heq⟩ := n.exists_cut_eq { first := x } xs
      refine ⟨by rw [List.flatMap_cons, hcut.members]; rfl, fun g' hg' => ?_,
        fun before g₁ g₂ after hsplit => ?_⟩
      · rcases List.mem_cons.1 hg' with rfl | hg'
        · exact h
        · exact hcut.coheres g' hg'
      · cases before with
        | nil =>
          rw [heq] at hsplit
          obtain ⟨rfl, htail⟩ := List.cons.inj hsplit
          obtain ⟨rfl, -⟩ := List.cons.inj htail
          exact Bool.eq_false_iff.2 hx
        | cons g₀ before =>
          exact hcut.opens before g₁ g₂ after (List.cons.inj hsplit).2

/-! ## The state after a group -/

theorem goesOn_of_buffer (h : n.kind = .buffer) (before : List Access) (x : Access) :
    n.goesOn before x = (before ++ [x]).all (·.state.isReadOnly) := by
  unfold kind at h
  unfold goesOn
  cases hp : n.payload <;> simp_all [Payload.kind]

theorem goesOn_of_not_buffer (h : n.kind ≠ .buffer) (before : List Access) (x : Access) :
    n.goesOn before x = before.getLast?.any fun y =>
      y.state.access == x.state.access && y.state.layout == x.state.layout := by
  unfold kind at h
  unfold goesOn
  cases hp : n.payload <;> simp_all [Payload.kind]

theorem joins_of_buffer (h : n.kind = .buffer) : n.joins = Move.buffersJoin := by
  unfold kind at h
  unfold joins
  cases hp : n.payload <;> simp_all [Payload.kind]

theorem joins_of_not_buffer (h : n.kind ≠ .buffer) : n.joins = Move.imagesJoin := by
  unfold kind at h
  unfold joins
  cases hp : n.payload <;> simp_all [Payload.kind]

end Node

namespace AccessGroup

variable {n : Node} {g : AccessGroup} {x : Access}

theorem mem_foldl_mergeRead (s : AccessState) (xs : List Access) (bit : Nat) :
    (bit ∈ (xs.foldl (fun s x => s.mergeRead x.state) s).stage ↔
      bit ∈ s.stage ∨ ∃ x ∈ xs, bit ∈ x.state.stage) ∧
    (bit ∈ (xs.foldl (fun s x => s.mergeRead x.state) s).access ↔
      bit ∈ s.access ∨ ∃ x ∈ xs, bit ∈ x.state.access) ∧
    (xs.foldl (fun s x => s.mergeRead x.state) s).layout = s.layout := by
  induction xs generalizing s with
  | nil => simp
  | cons x xs ih =>
    obtain ⟨hstage, haccess, hlayout⟩ := ih (s.mergeRead x.state)
    rw [List.foldl_cons]
    refine ⟨?_, ?_, hlayout⟩
    · simp [hstage, or_assoc]
    · simp [haccess, or_assoc]

theorem mem_stage_iff (g : AccessGroup) (bit : Nat) :
    bit ∈ g.state.stage ↔ ∃ x ∈ g.members, bit ∈ x.state.stage := by
  simp [state, members, (mem_foldl_mergeRead g.first.state g.rest bit).1]

theorem mem_access_iff (g : AccessGroup) (bit : Nat) :
    bit ∈ g.state.access ↔ ∃ x ∈ g.members, bit ∈ x.state.access := by
  simp [state, members, (mem_foldl_mergeRead g.first.state g.rest bit).2.1]

theorem layout_state (g : AccessGroup) : g.state.layout = g.first.state.layout :=
  (mem_foldl_mergeRead g.first.state g.rest 0).2.2

/-- A group reads only if its members do. -/
theorem isReadOnly_state (g : AccessGroup) :
    g.state.isReadOnly = g.members.all (·.state.isReadOnly) := by
  rw [Bool.eq_iff_iff, List.all_eq_true]
  simp only [AccessState.isReadOnly, Bool.not_eq_true', Bool.eq_false_iff, ne_eq,
    AccessState.isWrite_iff, mem_access_iff, not_exists, not_and]
  constructor
  · intro h x hx bit hbit
    exact h bit ⟨x, hx, hbit⟩
  · rintro h bit ⟨x, hx, hbit⟩
    exact h x hx bit hbit

/-- The members of a group of an image are alike. -/
theorem alike_of_coheres (himage : n.kind ≠ .buffer) (h : n.Coheres g) :
    ∀ x ∈ g.members, x.state.access = g.first.state.access ∧
      x.state.layout = g.first.state.layout := by
  obtain ⟨first, rest⟩ := g
  induction rest using List.reverseRecOn with
  | nil =>
    intro x hx
    obtain rfl := List.mem_singleton.1 hx
    exact ⟨rfl, rfl⟩
  | append_singleton rest y ih =>
    have hold : n.Coheres ⟨first, rest⟩ := fun before x after hsplit =>
      h before x (after ++ [y]) (by simp [show rest = before ++ x :: after from hsplit])
    intro x hx
    rcases List.mem_append.1 (show x ∈ (first :: rest) ++ [y] from hx) with hx | hx
    · exact ih hold x hx
    · obtain rfl := List.mem_singleton.1 hx
      have hlast := h rest x [] rfl
      rw [Node.goesOn_of_not_buffer himage, Option.any_eq_true] at hlast
      obtain ⟨y, hy, halike⟩ := hlast
      rw [Bool.and_eq_true, beq_iff_eq, beq_iff_eq] at halike
      obtain ⟨haccess, hlayout⟩ := ih hold y (List.mem_of_getLast? hy)
      exact ⟨halike.1.symm.trans haccess, halike.2.symm.trans hlayout⟩

/-- **An access goes on in a group if it joins the state after it.** -/
theorem goesOn_eq (h : n.Coheres g) (x : Access) :
    n.goesOn g.members x = n.joins g.state x.state := by
  by_cases hkind : n.kind = .buffer
  · rw [Node.goesOn_of_buffer hkind, Node.joins_of_buffer hkind, Move.buffersJoin, isReadOnly_state,
      List.all_append, List.all_cons, List.all_nil, Bool.and_true]
  · rw [Node.goesOn_of_not_buffer hkind, Node.joins_of_not_buffer hkind, Move.imagesJoin]
    obtain ⟨last, hlast⟩ : ∃ last, g.members.getLast? = some last :=
      ⟨_, List.getLast?_eq_some_getLast (List.cons_ne_nil _ _)⟩
    have halike := alike_of_coheres hkind h
    have hmem := List.mem_of_getLast? hlast
    have haccess : g.state.access = last.state.access := by
      refine Mask.ext fun bit => ?_
      rw [mem_access_iff]
      constructor
      · rintro ⟨y, hy, hbit⟩
        rwa [(halike last hmem).1, ← (halike y hy).1]
      · intro hbit
        exact ⟨last, hmem, hbit⟩
    rw [hlast, Option.any_some, haccess, layout_state, (halike last hmem).2]

end AccessGroup

/-! ## From group to group -/

/-- Whether a move leads from one group into the next. -/
structure Move.Between (g g' : AccessGroup) (m : Move) : Prop where
  pass : g'.first.pass = some m.pass
  dst : m.dst = g'.first.state
  stage : ∀ bit, bit ∈ m.src.stage ↔ ∃ x ∈ g.members, bit ∈ x.state.stage
  access : ∀ bit, bit ∈ m.src.access ↔ ∃ x ∈ g.members, bit ∈ x.state.access
  layout : m.src.layout = g.first.state.layout

/-- Whether moves lead from each group into the next, one each. -/
def Move.Link (gs : List AccessGroup) (ms : List Move) : Prop :=
  List.Forall₂ (fun p m => Between p.1 p.2 m) (gs.zip gs.tail) ms

theorem Move.link_along {n : Node} {g : AccessGroup} (h : n.Coheres g) (es : List TimelineEntry) :
    Link (n.cut g (es.map .ofEntry)) (along n.joins g.state es).1 := by
  induction es generalizing g with
  | nil => exact .nil
  | cons e es ih =>
    have hgoes := AccessGroup.goesOn_eq h (.ofEntry e)
    cases hjoins : n.joins g.state e.state with
    | true =>
      have hon : n.goesOn g.members (.ofEntry e) = true := hgoes.trans hjoins
      rw [along_joined hjoins, List.map_cons, Node.cut, if_pos hon]
      have hrest := ih (h.add hon)
      rwa [AccessGroup.state_add] at hrest
    | false =>
      have hopens : n.goesOn g.members (.ofEntry e) = false := hgoes.trans hjoins
      rw [along_moved hjoins, List.map_cons, Node.cut, if_neg (by rw [hopens]; decide)]
      obtain ⟨more, gs, heq⟩ := n.exists_cut_eq { first := .ofEntry e } (es.map .ofEntry)
      have hrest := ih (Node.Coheres.single n (.ofEntry e))
      rw [heq] at hrest ⊢
      exact .cons ⟨rfl, rfl, g.mem_stage_iff, g.mem_access_iff, g.layout_state⟩ hrest

/-- Whether moves are those of the groups into which accesses are cut, and of no other groups. -/
def Node.ReducesTo (n : Node) (xs : List Access) (ms : List Move) : Prop :=
  ∃ gs, n.IsCut xs gs ∧ (∀ gs', n.IsCut xs gs' → gs' = gs) ∧ Move.Link gs ms ∧
    (n.kind ≠ .buffer → ∀ g ∈ gs, ∀ x ∈ g.members,
      x.state.access = g.first.state.access ∧ x.state.layout = g.first.state.layout)

/-- **The moves of a timeline lead from each group of its accesses into the next.** -/
theorem Timeline.reducesTo (t : Timeline) : t.node.ReducesTo t.accesses t.moves := by
  have hsingle := Node.Coheres.single t.node ⟨none, t.start⟩
  have hcut := Node.isCut_cut hsingle (t.entries.map .ofEntry)
  refine ⟨_, hcut, fun gs' hgs' => Node.eq_cut_of_isCut hgs', ?_, fun hkind g hg => ?_⟩
  · rw [moves, reduction_eq]
    exact Move.link_along hsingle t.entries
  · exact AccessGroup.alike_of_coheres hkind (hcut.coheres g hg)

/-! ## Barriers of a frame -/

/-- The ends of the barriers of a batch. -/
def TransitionBatch.ends (b : TransitionBatch) : List (AccessState × AccessState) :=
  b.images.map (fun x => (x.src, x.dst)) ++ b.buffers.map fun x => (x.src, x.dst)

/-- The barriers on a resource before the passes of a frame, as moves. -/
def Analysis.movesOf (a : Analysis) (name : String) : List Move :=
  (a.bucketsOf name).zipIdx.flatMap fun (b, p) => b.ends.map fun (src, dst) => ⟨p, src, dst⟩

section
variable {f f' : Forest} {shaders : Registry} {passes : List Pass} {a : Analysis} {t : Timeline}
  {p : Nat}

theorem ends_before (hkind : t.node.IsTracked) (hbacked : t.node.isBacked = true) (p : Nat) :
    (TransitionBatch.before p [t]).ends = (t.movesAt p).map fun m => (m.src, m.dst) := by
  rcases transition_cases hkind hbacked with ⟨desc, h, external, hp⟩ | ⟨desc, h, hp⟩
  · simp [TransitionBatch.ends, TransitionBatch.before, Timeline.imageTransition?,
      Timeline.bufferTransition?, hp]
  · simp [TransitionBatch.ends, TransitionBatch.before, Timeline.imageTransition?,
      Timeline.bufferTransition?, hp]

theorem isTracked_of_mem_timelines (hf : f.Seated)
    (h : (analyze passes f shaders).result = .ok (a, f')) (ht : t ∈ a.timelines) :
    t.node.IsTracked := by
  obtain ⟨uses, huses, rfl, -⟩ := analyze_ok_iff.1 h
  obtain ⟨htouched, hn, -⟩ := Timeline.mem_ofFrame_iff.1 ht
  exact isTracked_of_touched hf huses hn htouched

theorem pairwise_moves (h : (analyze passes f shaders).result = .ok (a, f'))
    (ht : t ∈ a.timelines) : t.moves.Pairwise fun x y => x.pass < y.pass := by
  rw [Timeline.moves, Timeline.reduction_eq]
  exact Move.pairwise_passes (pairwise_of_mem_timelines h ht)

/-- The barriers on a resource before a pass. -/
theorem bucketsOf_of_mem (hf : f.WellFormed) (h : (analyze passes f shaders).result = .ok (a, f'))
    (ht : t ∈ a.timelines) :
    a.bucketsOf t.node.name = (List.range passes.length).map (.before · [t]) := by
  obtain ⟨frame, hts, -⟩ := timelines_eq h
  have hn := (node_of_mem_timelines h ht).1
  rw [hts] at ht
  have heq := Timeline.eq_ofNode ht rfl hn
  rw [bucketsOf_eq h hts hf hn, ← heq]

/-- **The barriers on a resource are the moves of its timeline.** -/
theorem movesOf_eq (hf : f.WellFormed) (hs : f.Seated)
    (h : (analyze passes f shaders).result = .ok (a, f')) (ht : t ∈ a.timelines) :
    a.movesOf t.node.name = t.moves := by
  have hends := ends_before (isTracked_of_mem_timelines hs h ht) (node_of_mem_timelines h ht).2
  have hzip : ((List.range passes.length).map (TransitionBatch.before · [t])).zipIdx =
      (List.range passes.length).map fun p => (TransitionBatch.before p [t], p) := by
    refine List.ext_getElem (by simp) fun i hi hi' => ?_
    simp
  have hat (p : Nat) : ((TransitionBatch.before p [t]).ends.map fun (src, dst) =>
      (⟨p, src, dst⟩ : Move)) = t.moves.filter (·.pass == p) := by
    rw [hends, List.map_map, Timeline.movesAt]
    refine (List.map_congr_left fun m hm => ?_).trans (List.map_id _)
    rw [← beq_iff_eq.1 (List.mem_filter.1 hm).2]
    rfl
  have hall : t.moves.filter (fun m => decide (m.pass < passes.length)) = t.moves := by
    refine List.filter_eq_self.2 fun m hm => ?_
    obtain ⟨e, he, hpass, -⟩ := Timeline.exists_entry_of_mem_moves hm
    rw [hpass]
    exact decide_eq_true (pass_lt_of_mem_timelines h ht he)
  rw [Analysis.movesOf, bucketsOf_of_mem hf h ht, hzip, List.flatMap_map]
  simp only [hat]
  rw [flatMap_filter_pass (pairwise_moves h ht), hall]

/-- The barriers on any name before a pass are those of its timeline, if it has one. -/
theorem ofResource_cases (hf : f.WellFormed) (h : (analyze passes f shaders).result = .ok (a, f'))
    {b : TransitionBatch} (hb : a.barriers[p]? = some b) (name : String) :
    b.ofResource name = .empty ∨
      ∃ t ∈ a.timelines, t.node.name = name ∧ b.ofResource name = .before p [t] := by
  by_cases hname : ∃ t ∈ a.timelines, t.node.name = name
  · obtain ⟨t, ht, rfl⟩ := hname
    refine .inr ⟨t, ht, rfl, ?_⟩
    have hbuckets := congrArg (·[p]?) (bucketsOf_of_mem hf h ht)
    have hlt : p < passes.length := by
      obtain ⟨hlt, -⟩ := List.getElem?_eq_some_iff.1 hb
      simpa [(barriers_eq h).1] using hlt
    simpa [Analysis.bucketsOf, hb, hlt] using hbuckets
  · refine .inl ?_
    rw [(barriers_eq h).1, List.getElem?_map, Option.map_eq_some_iff] at hb
    obtain ⟨q, -, rfl⟩ := hb
    have hnil : a.timelines.filter (·.node.name == name) = [] :=
      List.filter_eq_nil_iff.2 fun t ht heq => hname ⟨t, ht, beq_iff_eq.1 heq⟩
    rw [ofResource_before, hnil]
    rfl

/-- Before one pass there is one move at most. -/
theorem length_movesAt_le (h : (analyze passes f shaders).result = .ok (a, f'))
    (ht : t ∈ a.timelines) (p : Nat) : (t.movesAt p).length ≤ 1 := by
  cases hmoves : t.movesAt p with
  | nil => exact Nat.zero_le 1
  | cons m ms =>
    have hm : m ∈ t.movesAt p := by rw [hmoves]; exact List.mem_cons_self
    obtain ⟨hm, hpass⟩ := List.mem_filter.1 hm
    rw [← hmoves, Timeline.movesAt, ← beq_iff_eq.1 hpass,
      Move.filter_pass_eq (pairwise_moves h ht) hm]
    exact Nat.le_refl 1

/-- A barrier leads into an access that does not join the state before it. -/
theorem not_joins_of_mem_moves {m : Move} (hm : m ∈ t.moves) :
    t.node.joins m.src m.dst = false := by
  rw [Timeline.moves, Timeline.reduction_eq] at hm
  obtain ⟨_, e, _, -, hjoins, rfl⟩ := Move.mem_along_iff.1 hm
  exact hjoins

/-- No barrier on a buffer joins two reads. -/
theorem not_reads_of_mem_moves {m : Move} (hm : m ∈ t.moves) {x : BufferTransition}
    (hx : t.bufferTransition? m.src m.dst = some x) :
    ¬ (x.src.isReadOnly = true ∧ x.dst.isReadOnly = true) := by
  have hjoins := not_joins_of_mem_moves hm
  unfold Timeline.bufferTransition? at hx
  split at hx
  · next hp =>
    obtain rfl := Option.some.inj hx
    rintro ⟨hsrc, hdst⟩
    rw [Node.joins_of_buffer (by rw [Node.kind, hp]; rfl), Move.buffersJoin, hsrc, hdst] at hjoins
    cases hjoins
  · cases hx

/-- No barrier on an image has the same access and layout on both sides. -/
theorem not_alike_of_mem_moves {m : Move} (hm : m ∈ t.moves) {x : ImageTransition}
    (hx : t.imageTransition? m.src m.dst = some x) :
    ¬ (x.src.access = x.dst.access ∧ x.src.layout = x.dst.layout) := by
  have hjoins := not_joins_of_mem_moves hm
  unfold Timeline.imageTransition? at hx
  split at hx
  · next hp =>
    obtain rfl := Option.some.inj hx
    intro halike
    have himage : t.node.kind ≠ .buffer := by
      rw [Node.kind, hp]
      exact ResourceKind.noConfusion
    rw [Node.joins_of_not_buffer himage, Move.imagesJoin_iff.2 halike] at hjoins
    cases hjoins
  · cases hx

/-- A pass before which a resource has a barrier declares it. -/
theorem exists_touches_of_move (hf : f.WellFormed) (hs : f.Seated)
    (h : (analyze passes f shaders).result = .ok (a, f')) (ht : t ∈ a.timelines)
    (hmoves : t.movesAt p ≠ []) : ∃ pass, passes[p]? = some pass ∧ pass.Touches f t.index := by
  obtain ⟨m, hm⟩ := List.exists_mem_of_ne_nil _ hmoves
  obtain ⟨hm, hpass⟩ := List.mem_filter.1 hm
  obtain ⟨e, he, hentry, -⟩ := Timeline.exists_entry_of_mem_moves hm
  have hpasses := (records_of_mem_timelines hf hs h ht).entry_iff e.pass
  rw [← hentry, beq_iff_eq.1 hpass] at hpasses
  exact hpasses.1 ⟨e, he, hentry.symm.trans (beq_iff_eq.1 hpass)⟩

/-- Whether the barriers before the passes of a frame are those of the groups of accesses. -/
structure Analysis.Grouped (a : Analysis) (f : Forest) (passes : List Pass) : Prop where
  reducesTo : ∀ t ∈ a.timelines, t.node.ReducesTo t.accesses (a.movesOf t.node.name)
  at_most_one : ∀ b ∈ a.barriers, ∀ name, (b.ofResource name).size ≤ 1
  /-- A pass has a barrier only on what it declares. -/
  declared : ∀ (p : Nat) (b : TransitionBatch), a.barriers[p]? = some b → ∀ name,
    (b.ofResource name).size ≠ 0 → ∃ (pass : Pass) (i : Nat) (n : Node),
      passes[p]? = some pass ∧ f.nodes[i]? = some n ∧ n.name = name ∧ pass.Touches f i
  buffers : ∀ b ∈ a.barriers, ∀ x ∈ b.buffers,
    ¬ (x.src.isReadOnly = true ∧ x.dst.isReadOnly = true)
  images : ∀ b ∈ a.barriers, ∀ x ∈ b.images,
    ¬ (x.src.access = x.dst.access ∧ x.src.layout = x.dst.layout)

theorem grouped_of_analyze (hf : f.WellFormed) (hs : f.Seated)
    (h : (analyze passes f shaders).result = .ok (a, f')) : a.Grouped f passes := by
  have hsize {t : Timeline} (ht : t ∈ a.timelines) (p : Nat) :
      (TransitionBatch.before p [t]).size = (t.movesAt p).length :=
    size_before_cons (isTracked_of_mem_timelines hs h ht) (node_of_mem_timelines h ht).2
  have hbefore {b : TransitionBatch} (hb : b ∈ a.barriers) : ∃ p, b = .before p a.timelines := by
    rw [(barriers_eq h).1] at hb
    obtain ⟨p, -, rfl⟩ := List.mem_map.1 hb
    exact ⟨p, rfl⟩
  refine ⟨fun t ht => ?_, fun b hb name => ?_, fun p b hb name hne => ?_, fun b hb x hx => ?_,
    fun b hb x hx => ?_⟩
  · rw [movesOf_eq hf hs h ht]
    exact t.reducesTo
  · obtain ⟨p, hp⟩ := List.mem_iff_getElem?.1 hb
    rcases ofResource_cases hf h hp name with hempty | ⟨t, ht, -, hat⟩
    · rw [hempty]
      exact Nat.zero_le 1
    · rw [hat, hsize ht]
      exact length_movesAt_le h ht p
  · rcases ofResource_cases hf h hb name with hempty | ⟨t, ht, rfl, hat⟩
    · exact absurd (by rw [hempty]; rfl) hne
    · rw [hat, hsize ht] at hne
      obtain ⟨pass, hpass, htouches⟩ :=
        exists_touches_of_move hf hs h ht (List.ne_nil_of_length_pos (Nat.pos_of_ne_zero hne))
      exact ⟨pass, t.index, t.node, hpass, (node_of_mem_timelines h ht).1, rfl, htouches⟩
  · obtain ⟨p, rfl⟩ := hbefore hb
    obtain ⟨t, -, hx⟩ := List.mem_flatMap.1 hx
    obtain ⟨m, hm, hx⟩ := List.mem_filterMap.1 hx
    exact not_reads_of_mem_moves (List.mem_filter.1 hm).1 hx
  · obtain ⟨p, rfl⟩ := hbefore hb
    obtain ⟨t, -, hx⟩ := List.mem_flatMap.1 hx
    obtain ⟨m, hm, hx⟩ := List.mem_filterMap.1 hx
    exact not_alike_of_mem_moves (List.mem_filter.1 hm).1 hx

end

open Relation (ReflTransGen)

/-- **Barriers are those of the groups of accesses.** The moves of every timeline lead from group to
group, and in a frame that is accepted in any session they are the barriers on the resource, each
before its pass. -/
theorem barriers_grouped {δ : Type} [Device δ] {Aside : ObjectCache × δ → ObjectCache × δ → Prop}
    {d : δ} {s : Session δ} {passes : List Pass} {shaders : Registry} {a : Analysis} {f' : Forest}
    (hrun : ReflTransGen (Session.Step Aside) { device := d } s)
    (h : (analyze passes s.forest shaders).result = .ok (a, f')) :
    (∀ t : Timeline, t.node.ReducesTo t.accesses t.moves) ∧ a.Grouped s.forest passes :=
  ⟨Timeline.reducesTo,
    grouped_of_analyze (Session.wellFormed_kept hrun .empty) (Session.seated_kept hrun .empty) h⟩

/-! ### A second reader, before the next write -/

namespace Arguments

def session : Session Headless where
  forest := forest
  device := {
    lastHandle := 1
    created := { buffers := 1 }
    buffers := [(⟨1⟩, "arguments")] }

theorem steps : ReflTransGen (Session.Step (δ := Headless) fun _ _ => False) { device := {} }
    session :=
  .tail (.tail .refl (.operate (o := .addBuffer "arguments"
    ⟨64, BufferUsage.storage ∪ BufferUsage.indirect⟩ .transient) rfl))
    (.operate (o := .mount "arguments") rfl)

/-- The arguments are written again after the two reads. -/
def refilled : List Pass :=
  passes ++ [⟨"refill", .compute none, [.bound "arguments" "Arguments" .write]⟩]

end Arguments

/-- The second reader goes on after the first, so the next write waits for both. -/
theorem barriers_grouped_arguments :
    ReflTransGen (Session.Step (δ := Headless) fun _ _ => False) { device := {} }
      Arguments.session ∧
    ∃ a f', (analyze Arguments.refilled Arguments.session.forest {}).result = .ok (a, f') ∧
      a.Grouped Arguments.session.forest Arguments.refilled ∧
      a.movesOf "arguments" = [
        ⟨0, .undefined, Arguments.filled.state⟩,
        ⟨1, Arguments.filled.state, Arguments.dispatched.state⟩,
        ⟨3, Arguments.dispatched.state.mergeRead Arguments.counted.state,
          Arguments.filled.state⟩] := by
  have h : (analyze Arguments.refilled Arguments.session.forest {}).result = .ok (_, _) := rfl
  exact ⟨Arguments.steps, _, _, h, (barriers_grouped Arguments.steps h).2, rfl⟩

end FrameGraph
