import FrameGraph.Proofs.Splitting

/-!
# Timelines as they grow

The timelines of a frame can be built while its declarations are gone through one after the other.
An access joins the last entry of its node if that is of the same pass, and makes an entry of its
own otherwise (`Timeline.push`). Only the last entry is looked at: the declarations of a pass follow
each other, so that the entry of the pass that is gone through is the last one or not there.

What has been pushed after some declarations is the timelines of a frame that ends there
(`Timeline.push_ofFrame`), so that in the end it is those of the analysis (`pushFrame_of_analyze`).
-/

set_option autoImplicit false

namespace FrameGraph

/-- The entry with one more access to the node in the same pass. -/
def TimelineEntry.join (e : TimelineEntry) (n : Node) (s : AccessState) : TimelineEntry :=
  let access := e.state.access ∪ s.access
  { e with state := ⟨e.state.stage ∪ s.stage, access, match n.imageDesc? with
      | some desc => Usage.imageLayout access desc.format
      | none => e.state.layout⟩ }

namespace Timeline

/-- Adds an access to the entries of a node. -/
def pushEntry (n : Node) (pass : Nat) (s : AccessState) (es : List TimelineEntry) :
    List TimelineEntry :=
  match es.getLast? with
  | some last => if last.pass = pass then es.dropLast ++ [last.join n s] else es ++ [⟨pass, s⟩]
  | none => [⟨pass, s⟩]

/-- Adds an access to the timelines of a frame. A node that has no timeline gets one. -/
def push (p : Place) (pass : Nat) (s : AccessState) (ts : List Timeline) : List Timeline :=
  if ts.any (·.index = p.index) then
    ts.map fun t =>
      if t.index = p.index then { t with entries := pushEntry p.node pass s t.entries } else t
  else ts ++ [⟨p.index, p.node, pushEntry p.node pass s []⟩]

end Timeline

/-- Adds the access of one declared use to the timelines. -/
def pushUse (f : Forest) (shaders : Registry) (index : Nat) (pass : Pass) (ts : List Timeline)
    (use : Use) : Traced (List Timeline) := do
  let p ← Traced.ofExcept (f.tracked use.resource)
  if !p.node.isBacked then Traced.fault (.useNotMounted pass.name use.resource)
  else do
    let usage ← Usage.classify shaders pass use p.node
    pure (Timeline.push p index (usage.stateOf p.node) ts)

/-- Goes through the declarations of the pass with that number. -/
def pushPass (f : Forest) (shaders : Registry) (ts : List Timeline) :
    Pass × Nat → Traced (List Timeline)
  | (pass, index) => pass.uses.foldlM (pushUse f shaders index pass) ts

/-- Goes through the passes of a frame. -/
def pushFrame (f : Forest) (shaders : Registry) (passes : List Pass) : Traced (List Timeline) :=
  passes.zipIdx.foldlM (pushPass f shaders) []

/-! ## One more access -/

/-- What comes last joins what was there, unless it was there already. -/
theorem eraseDups_concat {l : List Nat} {a : Nat} :
    (l ++ [a]).eraseDups = if a ∈ l then l.eraseDups else l.eraseDups ++ [a] := by
  rw [List.eraseDups_append]
  by_cases ha : a ∈ l
  · simp [List.removeAll, ha]
  · simp [List.removeAll, ha, List.eraseDups_cons]

namespace Timeline

variable {nodes : List Node} {frame : List (List NodeUse)} {done : List NodeUse} {use : NodeUse}
  {n : Node} {i : Nat} {u v : Usage}

theorem usageIn_concat : usageIn i (done ++ [use]) =
    if use.index = i then some (((usageIn i done).map (·.merge use.usage)).getD use.usage)
    else usageIn i done := by
  have huses : usesOf i (done ++ [use]) =
      usesOf i done ++ if use.index = i then [use.usage] else [] := by
    by_cases hi : use.index = i
    · simp [usesOf, hi]
    · simp [usesOf, hi]
  unfold usageIn
  rw [huses]
  by_cases hi : use.index = i
  · simp only [hi, if_true]
    cases usesOf i done with
    | nil => rfl
    | cons w ws => simp
  · simp only [hi, if_false, List.append_nil]

/-- The entries of a frame end with that of its last pass. -/
theorem entriesFrom_concat : entriesFrom i n 0 (frame ++ [done]) = entriesFrom i n 0 frame ++
    ((usageIn i done).map fun u => (⟨frame.length, u.stateOf n⟩ : TimelineEntry)).toList := by
  rw [entriesFrom_append, Nat.zero_add, entriesFrom, entriesFrom]
  cases usageIn i done with
  | none => rfl
  | some u => rfl

/-- Joined accesses are those of the joined usages. -/
theorem join_stateOf {pass : Nat} : TimelineEntry.join ⟨pass, v.stateOf n⟩ n (u.stateOf n) =
    ⟨pass, (v.merge u).stateOf n⟩ := by
  unfold TimelineEntry.join Usage.stateOf Usage.merge
  cases n.imageDesc? with
  | none => rfl
  | some desc => rfl

/-- An access in the pass that is gone through is pushed to the entry of that pass. -/
theorem pushEntry_entriesFrom : pushEntry n frame.length (use.usage.stateOf n)
    (entriesFrom use.index n 0 (frame ++ [done])) =
      entriesFrom use.index n 0 (frame ++ [done ++ [use]]) := by
  rw [entriesFrom_concat, entriesFrom_concat, usageIn_concat, if_pos rfl]
  cases usageIn use.index done with
  | none =>
    -- The node has no entry of this pass yet.
    simp only [Option.map_none, Option.toList_none, List.append_nil, Option.getD_none,
      Option.map_some, Option.toList_some]
    unfold pushEntry
    split
    · next last hlast =>
      obtain ⟨k, uses, v, hk, -, rfl⟩ := mem_entriesFrom_iff.1 (List.mem_of_getLast? hlast)
      obtain ⟨hlt, -⟩ := List.getElem?_eq_some_iff.1 hk
      rw [if_neg (by simp only [Nat.zero_add]; omega)]
    · next hnone =>
      rw [List.getLast?_eq_none_iff.1 hnone]
      rfl
  | some v =>
    simp only [Option.map_some, Option.toList_some, Option.getD_some]
    unfold pushEntry
    rw [List.getLast?_concat, List.dropLast_concat]
    simp only [if_true, join_stateOf]

/-- The entries of the other nodes stay. -/
theorem entriesFrom_concat_of_ne (hi : i ≠ use.index) :
    entriesFrom i n 0 (frame ++ [done ++ [use]]) = entriesFrom i n 0 (frame ++ [done]) := by
  rw [entriesFrom_concat, entriesFrom_concat, usageIn_concat, if_neg (Ne.symm hi)]

/-- A node that was not touched joins the nodes that were. -/
theorem touched_concat : touched (frame ++ [done ++ [use]]) =
    if use.index ∈ touched (frame ++ [done]) then touched (frame ++ [done])
    else touched (frame ++ [done]) ++ [use.index] := by
  simp only [touched, List.mem_eraseDups, ← eraseDups_concat]
  simp

theorem any_ofFrame_iff (hn : nodes[i]? = some n) :
    (ofFrame nodes frame).any (·.index = i) = true ↔ i ∈ touched frame := by
  rw [List.any_eq_true]
  constructor
  · rintro ⟨t, ht, hi⟩
    rw [← of_decide_eq_true hi]
    exact (mem_ofFrame_iff.1 ht).1
  · intro hi
    have hmem : (⟨i, n, entriesFrom i n 0 frame⟩ : Timeline) ∈ ofFrame nodes frame :=
      mem_ofFrame_iff.2 ⟨hi, hn, rfl⟩
    exact ⟨_, hmem, decide_eq_true rfl⟩

/-- **What has been pushed is the timelines of what has been gone through.** -/
theorem push_ofFrame (hn : nodes[use.index]? = some n) :
    push ⟨use.index, n⟩ frame.length (use.usage.stateOf n) (ofFrame nodes (frame ++ [done])) =
      ofFrame nodes (frame ++ [done ++ [use]]) := by
  unfold push
  by_cases hi : use.index ∈ touched (frame ++ [done])
  · -- The timeline of the node changes in its place.
    rw [if_pos ((any_ofFrame_iff hn).2 hi), ofFrame, ofFrame, touched_concat, if_pos hi,
      List.map_filterMap]
    refine List.filterMap_congr fun i _ => ?_
    by_cases heq : i = use.index
    · subst heq
      rw [hn, Option.map_some, Option.map_some, Option.map_some, if_pos rfl, pushEntry_entriesFrom]
    · simp only [Option.map_map, Function.comp_def, heq, if_false, entriesFrom_concat_of_ne heq]
  · -- The node gets a timeline, behind those of the others.
    rw [if_neg (mt (any_ofFrame_iff hn).1 hi), ofFrame, ofFrame, touched_concat, if_neg hi,
      List.filterMap_append]
    have hempty : entriesFrom use.index n 0 (frame ++ [done]) = [] := by
      by_contra hne
      exact hi ((mem_touched_iff (n := n)).2 hne)
    refine congr (congrArg _ (List.filterMap_congr fun i hmem => ?_)) ?_
    · have heq : i ≠ use.index := fun heq => hi (heq ▸ hmem)
      simp only [entriesFrom_concat_of_ne heq]
    · simp only [List.filterMap_cons, List.filterMap_nil, hn, Option.map_some,
        ← pushEntry_entriesFrom, hempty]

/-- A pass of which nothing has been gone through has no entries. -/
theorem ofFrame_concat_nil : ofFrame nodes (frame ++ [[]]) = ofFrame nodes frame := by
  have htouched : touched (frame ++ [[]]) = touched frame := by simp [touched]
  have hentries (i : Nat) (n : Node) : entriesFrom i n 0 (frame ++ [[]]) = entriesFrom i n 0 frame := by
    rw [entriesFrom_concat]
    exact List.append_nil _
  simp only [ofFrame, htouched, hentries]

end Timeline

/-! ## A whole frame -/

section
variable {f f' : Forest} {shaders : Registry} {pass : Pass} {use : Use} {u : NodeUse}
  {passes : List Pass} {frame : List (List NodeUse)} {done us : List NodeUse}

theorem pushUse_of_declares (h : Declares f shaders pass use u) :
    (pushUse f shaders frame.length pass (Timeline.ofFrame f.nodes (frame ++ [done])) use).result =
      .ok (Timeline.ofFrame f.nodes (frame ++ [done ++ [u]])) := by
  obtain ⟨⟨i, n⟩, hp, hbacked, hclassify, hi⟩ := h
  obtain rfl : u.index = i := hi
  unfold pushUse
  rw [Traced.result_bind, Traced.result_ofExcept, Except.bind_eq_ok_iff]
  refine ⟨_, hp, ?_⟩
  rw [if_neg (by simp [hbacked]), Traced.result_bind, Except.bind_eq_ok_iff]
  refine ⟨_, hclassify, ?_⟩
  rw [Traced.result_pure, Timeline.push_ofFrame (Forest.nodes_of_tracked hp)]

/-- **A pass pushes the accesses that it declares.** -/
theorem pushUses_of_declares {uses : List Use}
    (h : List.Forall₂ (Declares f shaders pass) uses us) :
    (uses.foldlM (pushUse f shaders frame.length pass)
      (Timeline.ofFrame f.nodes (frame ++ [done]))).result =
        .ok (Timeline.ofFrame f.nodes (frame ++ [done ++ us])) := by
  induction h generalizing done with
  | nil => simp
  | @cons use u uses us huse _ ih =>
    rw [List.foldlM_cons, Traced.result_bind, Except.bind_eq_ok_iff]
    refine ⟨_, pushUse_of_declares huse, ih.trans ?_⟩
    rw [List.append_assoc, List.singleton_append]

/-- **What the passes of a frame push is the timelines of the frame.** -/
theorem pushPasses_of_declares (h : List.Forall₂ (PassDeclares f shaders) passes frame)
    (earlier : List (List NodeUse)) :
    ((passes.zipIdx earlier.length).foldlM (pushPass f shaders)
      (Timeline.ofFrame f.nodes earlier)).result =
        .ok (Timeline.ofFrame f.nodes (earlier ++ frame)) := by
  induction h generalizing earlier with
  | nil => simp
  | @cons pass us passes frame hpass _ ih =>
    rw [List.zipIdx_cons, List.foldlM_cons, Traced.result_bind, Except.bind_eq_ok_iff,
      ← Timeline.ofFrame_concat_nil]
    have hrest := ih (earlier ++ [us])
    rw [List.length_append, List.length_singleton, List.append_assoc] at hrest
    exact ⟨_, pushUses_of_declares hpass.forall₂, hrest⟩

/-- **The timelines of an analysis are those that grow while its passes are gone through.** -/
theorem pushFrame_of_analyze {a : Analysis} (h : (analyze passes f shaders).result = .ok (a, f')) :
    (pushFrame f shaders passes).result = .ok a.timelines := by
  obtain ⟨frame, hframe, hts, -⟩ := analyze_frame h
  rw [hts]
  exact pushPasses_of_declares hframe []

end

end FrameGraph
