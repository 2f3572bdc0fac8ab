import FrameGraph.Proofs.Buckets
import FrameGraph.Proofs.Retained

/-!
# Splitting frames

The states that a frame leaves behind are all that the next frame needs of it. So the passes of a
frame may as well be analysed as several frames: the barriers on a resource whose contents matter
are the same, pass by pass, and so are the states in the end (`analyzeAll_flatten`).

A frame declares pass by pass (`PassDeclares`), the entries of a node are those of the parts one
after the other (`entriesFrom_append`), and so are the moves along them
(`Timeline.reduction_ofNode_append`), since `Move.along` goes on from what the first part left.
-/

set_option autoImplicit false

namespace FrameGraph

/-! ## What passes declare -/

/-- The same uses as those of the pass at another position. -/
def PassUses.renumber (r : PassUses) (index : Nat) : PassUses :=
  { r with target := r.target.map fun t => { t with pass := index } }

theorem RenderTarget.add_renumber {t t' : RenderTarget AttachmentUse} {a : AttachmentUse}
    {extent : Extent} (h : t.add a extent = .ok t') (index : Nat) :
    RenderTarget.add { t with pass := index } a extent = .ok { t' with pass := index } := by
  have hplace : RenderTarget.place { t with pass := index } a = t.place a := rfl
  have hwith : RenderTarget.withAttachment { t with pass := index } a = t.withAttachment a := rfl
  unfold RenderTarget.add at h ⊢
  simp only [hplace, hwith] at h ⊢
  split at h
  · by_cases hdepth : a.kind.isDepthOrStencil = true
    · rw [if_pos hdepth] at h ⊢
      split at h
      · split at h
        · next hj =>
          cases h
          rw [if_pos hj]
        · cases h
      · cases h
        rfl
    · rw [if_neg hdepth] at h ⊢
      cases h
      rfl
  · cases h
    rfl
  · cases h
    rfl

section
variable {f g : Forest} {shaders : Registry} {pass : Pass}

theorem attach_renumber {use : Use} {p : Place} {t t' : RenderTarget AttachmentUse}
    (h : attach f use p t = .ok t') (index : Nat) :
    attach f use p { t with pass := index } = .ok { t' with pass := index } := by
  unfold attach at h ⊢
  split at h
  · cases h
    rfl
  · obtain ⟨view, hview, h⟩ := Except.bind_eq_ok_iff.1 h
    exact Except.bind_eq_ok_iff.2 ⟨view, hview, RenderTarget.add_renumber h index⟩

theorem addUse_renumber {done r : PassUses} {use : Use}
    (h : (addUse f shaders pass done use).result = .ok r) (index : Nat) :
    (addUse f shaders pass (done.renumber index) use).result = .ok (r.renumber index) := by
  obtain ⟨p, usage, target, hp, hb, husage, htarget, rfl⟩ := addUse_eq_ok_iff.1 h
  refine addUse_eq_ok_iff.2
    ⟨p, usage, target.map fun t => { t with pass := index }, hp, hb, husage, ?_, rfl⟩
  unfold PassUses.renumber
  cases hdone : done.target with
  | none =>
    rw [hdone] at htarget
    cases htarget
    rfl
  | some t =>
    rw [hdone] at htarget
    obtain ⟨t', ht', rfl⟩ := Except.map_eq_ok_iff.1 htarget
    exact Except.map_eq_ok_iff.2 ⟨_, attach_renumber ht' index, rfl⟩

/-- The position of a pass does not matter for what it declares. -/
theorem passUses_renumber {i : Nat} {r : PassUses} (h : (passUses f shaders i pass).result = .ok r)
    (j : Nat) : (passUses f shaders j pass).result = .ok (r.renumber j) := by
  unfold passUses at h ⊢
  rw [Traced.result_foldlM] at h ⊢
  have hstart : ({ target := if pass.kind = .render then some { pass := j } else none } : PassUses)
      = PassUses.renumber
        { target := if pass.kind = .render then some { pass := i } else none } j := by
    unfold PassUses.renumber
    by_cases hkind : pass.kind = .render
    · simp [hkind]
    · simp [hkind]
  rw [hstart]
  exact foldlM_ok_map (φ := fun r : PassUses => r.renumber j)
    (fun _ _ _ hstep => addUse_renumber hstep j) h

variable (f shaders) in
/-- Whether a pass is accepted and declares these uses. -/
def PassDeclares (pass : Pass) (uses : List NodeUse) : Prop :=
  ∃ r, (passUses f shaders 0 pass).result = .ok r ∧ r.uses = uses

theorem PassDeclares.forall₂ {uses : List NodeUse} (h : PassDeclares f shaders pass uses) :
    List.Forall₂ (Declares f shaders pass) pass.uses uses := by
  obtain ⟨r, hr, rfl⟩ := h
  exact (passUses_ok hr).1

theorem PassDeclares.of_retains {uses : List NodeUse} (h : PassDeclares f shaders pass uses)
    (hfg : f.Retains g) (hf : f.WellFormed) : PassDeclares g shaders pass uses := by
  obtain ⟨r, hr, huses⟩ := h
  exact ⟨r, passUses_of_retains hfg hf hr, huses⟩

/-- A frame is accepted if each of its passes is. -/
theorem frameUses_iff {passes : List Pass} {frame : List (List NodeUse)} :
    (∃ uses, (frameUses f shaders passes).result = .ok uses ∧ uses.map (·.uses) = frame) ↔
      List.Forall₂ (PassDeclares f shaders) passes frame := by
  have hfrom (k : Nat) : (∃ uses, List.Forall₂ (fun x r => (passUses f shaders x.2 x.1).result =
      .ok r) (passes.zipIdx k) uses ∧ uses.map (·.uses) = frame) ↔
      List.Forall₂ (PassDeclares f shaders) passes frame := by
    induction passes generalizing k frame with
    | nil => simp [eq_comm]
    | cons pass passes ih =>
      rw [List.zipIdx_cons, List.forall₂_cons_left_iff]
      constructor
      · rintro ⟨uses, huses, rfl⟩
        obtain ⟨r, rs, hr, hrs, rfl⟩ := List.forall₂_cons_left_iff.1 huses
        exact ⟨r.uses, rs.map (·.uses), ⟨_, passUses_renumber hr 0, rfl⟩,
          (ih (k + 1)).1 ⟨rs, hrs, rfl⟩, rfl⟩
      · rintro ⟨us, uss, ⟨r, hr, rfl⟩, huss, rfl⟩
        obtain ⟨rs, hrs, rfl⟩ := (ih (k + 1)).2 huss
        exact ⟨_ :: rs, .cons (passUses_renumber hr k) hrs, rfl⟩
  unfold frameUses
  rw [Traced.result_mapM]
  simp only [mapM_eq_ok_iff]
  exact hfrom 0

/-- The analysis of an accepted frame, from what its passes declare. -/
theorem analyze_frame {passes : List Pass} {a : Analysis} {f' : Forest}
    (h : (analyze passes f shaders).result = .ok (a, f')) :
    ∃ frame, List.Forall₂ (PassDeclares f shaders) passes frame ∧
      a.timelines = Timeline.ofFrame f.nodes frame ∧ f' = f.carry a.timelines := by
  obtain ⟨uses, huses, rfl, rfl⟩ := analyze_ok_iff.1 h
  exact ⟨_, frameUses_iff.1 ⟨uses, huses, rfl⟩, rfl, rfl⟩

theorem analyze_of_declares {passes : List Pass} {frame : List (List NodeUse)}
    (h : List.Forall₂ (PassDeclares f shaders) passes frame) :
    ∃ a, (analyze passes f shaders).result = .ok (a, f.carry (Timeline.ofFrame f.nodes frame)) ∧
      a.timelines = Timeline.ofFrame f.nodes frame := by
  obtain ⟨uses, huses, rfl⟩ := frameUses_iff.2 h
  exact ⟨_, analyze_ok_iff.2 ⟨uses, huses, rfl, rfl⟩, rfl⟩

theorem exists_analyze_iff {passes : List Pass} :
    (∃ r, (analyze passes f shaders).result = .ok r) ↔
      ∃ frame, List.Forall₂ (PassDeclares f shaders) passes frame := by
  constructor
  · rintro ⟨⟨a, f'⟩, h⟩
    obtain ⟨frame, hframe, -⟩ := analyze_frame h
    exact ⟨frame, hframe⟩
  · rintro ⟨frame, hframe⟩
    obtain ⟨a, ha, -⟩ := analyze_of_declares hframe
    exact ⟨_, ha⟩

end

/-! ## Entries and moves of the parts -/

/-- The entry of the same access `k` passes later. -/
def TimelineEntry.later (k : Nat) (e : TimelineEntry) : TimelineEntry := { e with pass := k + e.pass }

/-- The same move `k` passes later. -/
def Move.later (k : Nat) (m : Move) : Move := { m with pass := k + m.pass }

theorem Move.along_later (joins : AccessState → AccessState → Bool) (k : Nat) (s : AccessState)
    (es : List TimelineEntry) : along joins s (es.map (·.later k)) =
      ((along joins s es).1.map (·.later k), (along joins s es).2) := by
  induction es generalizing s with
  | nil => rfl
  | cons e es ih =>
    have hstate : (e.later k).state = e.state := rfl
    cases h : joins s e.state with
    | true => rw [List.map_cons, along_joined h, along_joined (hstate ▸ h), hstate, ih]
    | false =>
      rw [List.map_cons, along_moved h, along_moved (hstate ▸ h), hstate, ih]
      rfl

namespace Timeline

theorem entriesFrom_append (index : Nat) (n : Node) (first : Nat) (xs ys : List (List NodeUse)) :
    entriesFrom index n first (xs ++ ys) =
      entriesFrom index n first xs ++ entriesFrom index n (first + xs.length) ys := by
  induction xs generalizing first with
  | nil => rfl
  | cons uses xs ih =>
    have hlen : first + (uses :: xs).length = first + 1 + xs.length := by
      rw [List.length_cons]
      omega
    rw [hlen, List.cons_append, entriesFrom, entriesFrom]
    split
    · rw [ih, List.cons_append]
    · rw [ih]

theorem entriesFrom_later (index : Nat) (n : Node) (k first : Nat) (xs : List (List NodeUse)) :
    entriesFrom index n (k + first) xs = (entriesFrom index n first xs).map (·.later k) := by
  induction xs generalizing first with
  | nil => rfl
  | cons uses xs ih =>
    rw [entriesFrom, entriesFrom, Nat.add_assoc]
    split
    · rw [ih, List.map_cons]
      rfl
    · rw [ih]

section
variable (i : Nat) (n : Node) (xs ys : List (List NodeUse))

/-- The entries of a frame are those of its parts. -/
theorem entries_ofNode_append : (ofNode i n (xs ++ ys)).entries =
    (ofNode i n xs).entries ++
      (ofNode i (ofNode i n xs).after ys).entries.map (·.later xs.length) := by
  have hpayload : (ofNode i n xs).after.payload = n.payload := rfl
  show entriesFrom i n 0 (xs ++ ys) =
    entriesFrom i n 0 xs ++ (entriesFrom i (ofNode i n xs).after 0 ys).map (·.later xs.length)
  rw [entriesFrom_congr hpayload, entriesFrom_append, ← entriesFrom_later, Nat.add_comm]

/-- Where a frame starts from what the frame before left, it goes on as one frame would. -/
theorem reduction_ofNode_append (hres : n.residency ≠ .dontCare)
    (hshown : (ofNode i n xs).isShown = false) :
    (ofNode i n (xs ++ ys)).reduction =
      ((ofNode i n xs).moves ++
        (ofNode i (ofNode i n xs).after ys).moves.map (·.later xs.length),
       (ofNode i (ofNode i n xs).after ys).reduction.2) := by
  have hstart : (ofNode i n (xs ++ ys)).start = (ofNode i n xs).start := rfl
  have hleft : (ofNode i (ofNode i n xs).after ys).start =
      (ofNode i n xs).reduction.2 := by
    have hstart' : (ofNode i (ofNode i n xs).after ys).start =
        (ofNode i n xs).left := if_neg hres
    rw [hstart']
    by_cases hempty : (ofNode i n xs).entries = []
    · rw [left_of_idle (.inr hempty), reduction_eq, hempty]
      exact (if_neg hres).symm
    · have hres' : (ofNode i n xs).node.residency ≠ .dontCare := hres
      rw [left_of_used hres' hempty, finish, if_neg (by simp [hshown])]
  unfold moves
  rw [reduction_eq, entries_ofNode_append i n xs ys, hstart,
    Move.along_append, Move.along_later]
  rw [reduction_eq (ofNode i (ofNode i n xs).after ys), hleft,
    reduction_eq (ofNode i n xs)]
  rfl

/-- What two frames leave behind is what one frame of all their passes does. -/
theorem left_ofNode_append : (ofNode i n (xs ++ ys)).left =
    (ofNode i (ofNode i n xs).after ys).left := by
  have hentries := entries_ofNode_append i n xs ys
  by_cases hres : n.residency = .dontCare
  · have hidle : (ofNode i n xs).after.residency = .dontCare := hres
    rw [left_of_idle (t := ofNode i n (xs ++ ys)) (.inl hres),
      left_of_idle (t := ofNode i (ofNode i n xs).after ys) (.inl hidle)]
    exact (left_of_idle (t := ofNode i n xs) (.inl hres)).symm
  · by_cases hsecond : (ofNode i (ofNode i n xs).after ys).entries = []
    · -- the second frame leaves the node alone
      have hright : (ofNode i (ofNode i n xs).after ys).left =
          (ofNode i n xs).left := left_of_idle (.inr hsecond)
      rw [hsecond, List.map_nil, List.append_nil] at hentries
      have hsame : ofNode i n (xs ++ ys) = ofNode i n xs := congrArg (Timeline.mk i n) hentries
      rw [hright, hsame]
    · have hne : (ofNode i n (xs ++ ys)).entries ≠ [] := by
        rw [hentries]
        simp [hsecond]
      have hmatters : (ofNode i n (xs ++ ys)).node.residency ≠ .dontCare := hres
      have hmatters' : (ofNode i (ofNode i n xs).after ys).node.residency ≠ .dontCare := hres
      rw [left_of_used hmatters hne, left_of_used hmatters' hsecond]
      by_cases hshown : (ofNode i n xs).isShown = true
      · have hfirst : (ofNode i n (xs ++ ys)).isShown = true := hshown
        have hlast : (ofNode i (ofNode i n xs).after ys).isShown = true :=
          hshown
        rw [finish, finish, if_pos hfirst, if_pos hlast]
      · have hfirst : ¬ (ofNode i n (xs ++ ys)).isShown = true := hshown
        have hlast : ¬ (ofNode i (ofNode i n xs).after ys).isShown = true :=
          hshown
        rw [finish, finish, if_neg hfirst, if_neg hlast,
          reduction_ofNode_append i n xs ys hres (by simpa using hshown)]

/-- The moves before a pass of the first part, and before one of the second. -/
theorem movesAt_ofNode_append (hres : n.residency ≠ .dontCare)
    (hshown : (ofNode i n xs).isShown = false) (p : Nat) :
    (p < xs.length → (ofNode i n (xs ++ ys)).movesAt p = (ofNode i n xs).movesAt p) ∧
    (ofNode i n (xs ++ ys)).movesAt (xs.length + p) =
      ((ofNode i (ofNode i n xs).after ys).movesAt p).map
        (·.later xs.length) := by
  have hmoves : (ofNode i n (xs ++ ys)).moves = (ofNode i n xs).moves ++
      (ofNode i (ofNode i n xs).after ys).moves.map (·.later xs.length) :=
    congrArg Prod.fst (reduction_ofNode_append i n xs ys hres hshown)
  have hfirst : ∀ m ∈ (ofNode i n xs).moves, m.pass < xs.length := by
    intro m hm
    obtain ⟨e, he, hpass, -⟩ := exists_entry_of_mem_moves hm
    obtain ⟨k, _, _, hk, -, rfl⟩ := mem_entriesFrom_iff.1 he
    obtain ⟨hlt, -⟩ := List.getElem?_eq_some_iff.1 hk
    simp only at hpass
    omega
  unfold movesAt
  rw [hmoves]
  constructor
  · intro hp
    have hnone : ((ofNode i (ofNode i n xs).after ys).moves.map
        (·.later xs.length)).filter (·.pass == p) = [] := by
      refine List.filter_eq_nil_iff.2 fun m hm => ?_
      obtain ⟨m', -, rfl⟩ := List.mem_map.1 hm
      simp only [Move.later, beq_iff_eq]
      omega
    rw [List.filter_append, hnone, List.append_nil]
  · have hnone : (ofNode i n xs).moves.filter (·.pass == xs.length + p) = [] := by
      refine List.filter_eq_nil_iff.2 fun m hm => ?_
      have hlt := hfirst m hm
      simp only [beq_iff_eq]
      omega
    have hsame : ((·.pass == xs.length + p) ∘ Move.later xs.length : Move → Bool) =
        (·.pass == p) := by
      funext m
      simp [Move.later]
    rw [List.filter_append, hnone, List.nil_append, List.filter_map, hsame]

end

end Timeline

/-! ## Two frames -/

section
variable {f f' : Forest} {shaders : Registry} {passes first second : List Pass} {a : Analysis}

theorem before_ofNode_append {n : Node} (hres : n.residency = .transient ∨ n.residency = .persistent)
    (i : Nat) (xs ys : List (List NodeUse)) (p : Nat) :
    (p < xs.length → TransitionBatch.before p [.ofNode i n (xs ++ ys)] =
      .before p [.ofNode i n xs]) ∧
    TransitionBatch.before (xs.length + p) [.ofNode i n (xs ++ ys)] =
      .before p [.ofNode i (Timeline.ofNode i n xs).after ys] := by
  have hmatters : n.residency ≠ .dontCare := by rcases hres with hres | hres <;> simp [hres]
  have hshown : (Timeline.ofNode i n xs).isShown = false := by
    rcases hres with hres | hres <;> simp [Timeline.isShown, Timeline.ofNode, hres]
  obtain ⟨hfirst, hsecond⟩ := Timeline.movesAt_ofNode_append i n xs ys hmatters hshown p
  unfold TransitionBatch.before
  simp only [List.flatMap_singleton]
  refine ⟨fun hp => ?_, ?_⟩
  · rw [hfirst hp]
    rfl
  · rw [hsecond, List.filterMap_map, List.filterMap_map]
    rfl

/-- **A frame is accepted exactly if its parts are**, each after the one before. -/
theorem analyze_append_iff (hf : f.WellFormed) :
    (∃ r, (analyze (first ++ second) f shaders).result = .ok r) ↔
      ∃ a f₁, (analyze first f shaders).result = .ok (a, f₁) ∧
        ∃ r, (analyze second f₁ shaders).result = .ok r := by
  constructor
  · intro h
    obtain ⟨frame, hframe⟩ := exists_analyze_iff.1 h
    obtain ⟨xs, ys, -, hxs, hys⟩ := forall₂_append_left hframe
    obtain ⟨a, ha, -⟩ := analyze_of_declares hxs
    refine ⟨a, _, ha, exists_analyze_iff.2 ⟨_, hys.imp fun _ _ hpass => ?_⟩⟩
    exact hpass.of_retains (f.retains_carry _) hf
  · rintro ⟨a, f₁, ha, hsecond⟩
    have hf₁ := wellFormed_of_frame ha hf
    obtain ⟨xs, hxs, -, rfl⟩ := analyze_frame ha
    obtain ⟨ys, hys⟩ := exists_analyze_iff.1 hsecond
    refine exists_analyze_iff.2 ⟨xs ++ ys, List.rel_append hxs (hys.imp fun _ _ hpass => ?_)⟩
    exact hpass.of_retains (f.carry_retains _) hf₁

theorem carry_ofFrame_append (f : Forest) (xs ys : List (List NodeUse)) :
    (f.carry (Timeline.ofFrame f.nodes xs)).carry
        (Timeline.ofFrame (f.carry (Timeline.ofFrame f.nodes xs)).nodes ys) =
      f.carry (Timeline.ofFrame f.nodes (xs ++ ys)) := by
  have hnodes : ((f.carry (Timeline.ofFrame f.nodes xs)).carry
      (Timeline.ofFrame (f.carry (Timeline.ofFrame f.nodes xs)).nodes ys)).nodes =
        (f.carry (Timeline.ofFrame f.nodes (xs ++ ys))).nodes := by
    refine List.ext_getElem? fun i => ?_
    rw [nodes_carry_ofFrame, nodes_carry_ofFrame, nodes_carry_ofFrame, Option.map_map]
    refine congrArg (fun g => (f.nodes[i]?).map g) (funext fun n => ?_)
    unfold Timeline.after
    rw [Timeline.left_ofNode_append]
    rfl
  have hlife : ((f.carry (Timeline.ofFrame f.nodes xs)).carry
      (Timeline.ofFrame (f.carry (Timeline.ofFrame f.nodes xs)).nodes ys)).life =
        (f.carry (Timeline.ofFrame f.nodes (xs ++ ys))).life := by
    rw [Forest.life_carry, Forest.life_carry, Forest.life_carry]
  exact congrArg₂ Forest.mk hnodes hlife

/-- **Two frames are one**: they leave the resources in the same states, and the barriers on a
resource whose contents matter are the same. -/
theorem analyze_append (hf : f.WellFormed)
    (h : (analyze (first ++ second) f shaders).result = .ok (a, f')) :
    ∃ a₁ f₁ a₂, (analyze first f shaders).result = .ok (a₁, f₁) ∧
      (analyze second f₁ shaders).result = .ok (a₂, f') ∧
      ∀ (i : Nat) n, f.nodes[i]? = some n → n.residency = .transient ∨ n.residency = .persistent →
        a.bucketsOf n.name = a₁.bucketsOf n.name ++ a₂.bucketsOf n.name := by
  obtain ⟨frame, hframe, hts, rfl⟩ := analyze_frame h
  obtain ⟨xs, ys, rfl, hxs, hys⟩ := forall₂_append_left hframe
  obtain ⟨a₁, ha₁, hts₁⟩ := analyze_of_declares hxs
  have hys₁ := hys.imp fun _ _ hpass =>
    hpass.of_retains (f.retains_carry (Timeline.ofFrame f.nodes xs)) hf
  obtain ⟨a₂, ha₂, hts₂⟩ := analyze_of_declares hys₁
  have hf₁ := wellFormed_of_frame ha₁ hf
  rw [carry_ofFrame_append, ← hts] at ha₂
  refine ⟨a₁, _, a₂, ha₁, ha₂, fun i n hn hres => ?_⟩
  have hn₁ : (f.carry (Timeline.ofFrame f.nodes xs)).nodes[i]? =
      some (Timeline.ofNode i n xs).after := by rw [nodes_carry_ofFrame, hn]; rfl
  have hbuckets₂ := bucketsOf_eq ha₂ hts₂ hf₁ hn₁
  have hname : (Timeline.ofNode i n xs).after.name = n.name := rfl
  have hlen : first.length = xs.length := hxs.length_eq
  rw [hname] at hbuckets₂
  rw [bucketsOf_eq h hts hf hn, bucketsOf_eq ha₁ hts₁ hf hn, hbuckets₂, List.length_append,
    List.range_add, List.map_append, List.map_map]
  congr 1
  · refine List.map_congr_left fun p hp => ?_
    have hlt := List.mem_range.1 hp
    exact (before_ofNode_append hres i xs ys p).1 (hlen ▸ hlt)
  · refine List.map_congr_left fun p _ => ?_
    rw [Function.comp_apply, hlen]
    exact (before_ofNode_append hres i xs ys p).2

end

/-! ## Any number of frames -/

/-- Analyses frames one after the other, each with the resources as the one before leaves them. -/
def analyzeAll (shaders : Registry) : List (List Pass) → Forest → Traced (List Analysis × Forest)
  | [], f => pure ([], f)
  | passes :: frames, f => do
    let (a, f) ← analyze passes f shaders
    let (as, f) ← analyzeAll shaders frames f
    pure (a :: as, f)

/-- Whether the barriers of one frame on a resource are those of several frames, one after the
other. -/
structure Analysis.SplitsInto (a : Analysis) (as : List Analysis) (n : Node) : Prop where
  barriers : a.bucketsOf n.name = as.flatMap (·.bucketsOf n.name)
  endOfFrame : a.endOfFrame.ofResource n.name = .empty
  endOfFrames : ∀ b ∈ as, b.endOfFrame.ofResource n.name = .empty

section
variable {f f' : Forest} {shaders : Registry} {passes : List Pass} {frames : List (List Pass)}
  {a : Analysis} {as : List Analysis}

theorem analyzeAll_cons_ok_iff :
    (analyzeAll shaders (passes :: frames) f).result = .ok (as, f') ↔ ∃ a f₁ bs,
      (analyze passes f shaders).result = .ok (a, f₁) ∧
      (analyzeAll shaders frames f₁).result = .ok (bs, f') ∧ as = a :: bs := by
  simp only [analyzeAll, Traced.result_bind, Except.bind_eq_ok_iff, Traced.result_pure,
    Except.ok.injEq, Prod.exists, Prod.mk.injEq]
  constructor
  · rintro ⟨a, f₁, ha, bs, f₂, hbs, rfl, rfl⟩
    exact ⟨a, f₁, bs, ha, hbs, rfl⟩
  · rintro ⟨a, f₁, bs, ha, hbs, rfl⟩
    exact ⟨a, f₁, ha, bs, f', hbs, rfl, rfl⟩

/-- A frame is accepted exactly if it is accepted as several frames. -/
theorem analyze_flatten_iff (hf : f.WellFormed) :
    (∃ r, (analyze frames.flatten f shaders).result = .ok r) ↔
      ∃ r, (analyzeAll shaders frames f).result = .ok r := by
  induction frames generalizing f with
  | nil => exact ⟨fun _ => ⟨_, rfl⟩, fun _ => ⟨_, rfl⟩⟩
  | cons passes frames ih =>
    rw [List.flatten_cons, analyze_append_iff hf]
    constructor
    · rintro ⟨a, f₁, ha, hrest⟩
      obtain ⟨⟨bs, f'⟩, hbs⟩ := (ih (wellFormed_of_frame ha hf)).1 hrest
      exact ⟨_, analyzeAll_cons_ok_iff.2 ⟨a, f₁, bs, ha, hbs, rfl⟩⟩
    · rintro ⟨⟨as, f'⟩, h⟩
      obtain ⟨a, f₁, bs, ha, hbs, -⟩ := analyzeAll_cons_ok_iff.1 h
      exact ⟨a, f₁, ha, (ih (wellFormed_of_frame ha hf)).2 ⟨_, hbs⟩⟩

theorem splits_of_flatten (hf : f.WellFormed)
    (h : (analyze frames.flatten f shaders).result = .ok (a, f')) :
    ∃ as, (analyzeAll shaders frames f).result = .ok (as, f') ∧
      List.Forall₂ (fun b passes => b.barriers.length = passes.length) as frames ∧
      ∀ (i : Nat) n, f.nodes[i]? = some n → n.residency = .transient ∨ n.residency = .persistent →
        a.SplitsInto as n := by
  induction frames generalizing f a with
  | nil =>
    obtain ⟨uses, huses, rfl, rfl⟩ := analyze_ok_iff.1 h
    cases huses
    exact ⟨[], rfl, .nil, fun i n _ _ => ⟨rfl, rfl, by simp⟩⟩
  | cons passes frames ih =>
    rw [List.flatten_cons] at h
    obtain ⟨a₁, f₁, a₂, ha₁, ha₂, hbuckets⟩ := analyze_append hf h
    obtain ⟨as, has, hlen, hsplits⟩ := ih (wellFormed_of_frame ha₁ hf) ha₂
    refine ⟨a₁ :: as, analyzeAll_cons_ok_iff.2 ⟨a₁, f₁, as, ha₁, has, rfl⟩, .cons ?_ hlen, ?_⟩
    · rw [(barriers_eq ha₁).1, List.length_map, List.length_range]
    · intro i n hn hres
      have hshown : n.residency ≠ .swapchain := by rcases hres with hres | hres <;> simp [hres]
      have hend {ps : List Pass} {b : Analysis} {g : Forest}
          (hb : (analyze ps f shaders).result = .ok (b, g)) :
          b.endOfFrame.ofResource n.name = .empty := by
        obtain ⟨frame, -, hts, -⟩ := analyze_frame hb
        rw [(barriers_eq hb).2, hts]
        exact atEnd_of_hidden hf hn hshown frame
      obtain ⟨xs, -, -, rfl⟩ := analyze_frame ha₁
      obtain ⟨s, hs, -⟩ := Forest.exists_carry a₁.timelines hn
      have hrest := hsplits i _ hs hres
      refine ⟨?_, hend h, List.forall_mem_cons.2 ⟨hend ha₁, hrest.endOfFrames⟩⟩
      rw [hbuckets i n hn hres, List.flatMap_cons]
      exact congrArg _ hrest.barriers

/-- **Frames may be split anywhere.** Analysed as one frame or as several, the same passes are
accepted, leave the resources in the same states, and put the same barriers, pass by pass, on every
resource whose contents matter. -/
theorem analyzeAll_flatten (hf : f.WellFormed)
    (h : (∃ r, (analyze frames.flatten f shaders).result = .ok r) ∨
      ∃ r, (analyzeAll shaders frames f).result = .ok r) :
    ∃ a as f', (analyze frames.flatten f shaders).result = .ok (a, f') ∧
      (analyzeAll shaders frames f).result = .ok (as, f') ∧
      List.Forall₂ (fun b passes => b.barriers.length = passes.length) as frames ∧
      ∀ (i : Nat) n, f.nodes[i]? = some n → n.residency = .transient ∨ n.residency = .persistent →
        a.SplitsInto as n := by
  obtain ⟨⟨a, f'⟩, ha⟩ := h.elim id (analyze_flatten_iff hf).2
  obtain ⟨as, has, hsplits⟩ := splits_of_flatten hf ha
  exact ⟨a, as, f', ha, has, hsplits⟩

end

/-! ### A counter and a canvas -/

namespace Canvas

/-- A counter of which only the current frame matters, and a canvas that is kept. -/
def forest : Forest where
  nodes := [
    { name := "counter", residency := .transient, payload := .buffer (.uniform 16) (some ⟨1⟩) },
    { name := "canvas", residency := .persistent, payload := .image {} (some ⟨2⟩) false },
    { name := "canvas/canvas"
      residency := .persistent
      payload := .imageView (ImageDesc.defaultView {}) "canvas" (some ⟨3⟩)
      parent := some 1 }]

/-- The canvas is touched in the second frame only, and nothing is in the last. -/
def frames : List (List Pass) :=
  [[⟨"count", .compute none, [.bound "counter" "N" .readWrite]⟩],
   [⟨"paint", .copy, Use.copy "counter" "canvas"⟩,
    ⟨"blend", .compute none, [.bound "canvas" "Target" .readWrite]⟩],
   []]

end Canvas

theorem analyzeAll_flatten_canvas : ∃ a as f',
    (analyze Canvas.frames.flatten Canvas.forest {}).result = .ok (a, f') ∧
    (analyzeAll {} Canvas.frames Canvas.forest).result = .ok (as, f') ∧
    List.Forall₂ (fun b passes => b.barriers.length = passes.length) as Canvas.frames ∧
    ∀ (i : Nat) n, Canvas.forest.nodes[i]? = some n →
      n.residency = .transient ∨ n.residency = .persistent → a.SplitsInto as n :=
  analyzeAll_flatten (by decide) (.inl ⟨_, rfl⟩)

/-- The second frame waits for what the first one wrote to the counter. -/
example : ((analyzeAll {} Canvas.frames Canvas.forest).result.toOption.map fun r =>
    (r.1.flatMap (·.bucketsOf "counter")).map (·.buffers.length)) = some [1, 1, 0] := by rfl

end FrameGraph
