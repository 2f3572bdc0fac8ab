import FrameGraph.Proofs.Declarations
import FrameGraph.Proofs.Reduction
import FrameGraph.Proofs.Timelines

/-!
# Accepted frames

The timelines of an accepted frame are those of backed nodes whose every entry accesses something
(`node_of_mem_timelines`, `exists_mem_access`), and each declared use has its entry
(`exists_entry_of_use`).

`Analysis.movesOn` reads the barriers on one node back from the buckets of all passes, as moves.
Every move of a timeline is among them (`moves_subset_movesOn`), so what is proved of moves holds of
the barriers that are recorded.
-/

set_option autoImplicit false

namespace FrameGraph

/-! ## Barriers on one node -/

/-- The ends of the barriers of a batch that are on the object of a node. -/
def TransitionBatch.on (b : TransitionBatch) (n : Node) : List (AccessState × AccessState) :=
  match n.payload with
  | .buffer _ (some h) => (b.buffers.filter (·.buffer == h)).map fun x => (x.src, x.dst)
  | .image _ (some h) _ => (b.images.filter (·.image == h)).map fun x => (x.src, x.dst)
  | _ => []

/-- The barriers on the object of a node in the buckets of all passes. -/
def Analysis.movesOn (a : Analysis) (n : Node) : List Move :=
  a.barriers.zipIdx.flatMap fun (b, p) => (b.on n).map fun (src, dst) => ⟨p, src, dst⟩

theorem Analysis.mem_movesOn_iff {a : Analysis} {n : Node} {m : Move} :
    m ∈ a.movesOn n ↔ ∃ b, a.barriers[m.pass]? = some b ∧ (m.src, m.dst) ∈ b.on n := by
  simp only [movesOn, List.mem_flatMap, Prod.exists, List.mk_mem_zipIdx_iff_getElem?, List.mem_map]
  constructor
  · rintro ⟨b, p, hb, src, dst, hm, rfl⟩
    exact ⟨b, hb, hm⟩
  · rintro ⟨b, hb, hm⟩
    exact ⟨b, m.pass, hb, m.src, m.dst, hm, rfl⟩

/-- Whether a node is one on which accesses are recorded. -/
def Node.IsTracked (n : Node) : Prop := n.kind = .buffer ∨ n.kind = .image

theorem Node.imageDesc?_of_buffer {n : Node} (h : n.kind = .buffer) : n.imageDesc? = none := by
  unfold Node.imageDesc?
  split
  · next hp =>
    rw [Node.kind, hp] at h
    cases h
  · rfl

/-- What has the description of an image is an image. -/
theorem Node.kind_of_imageDesc {n : Node} (h : n.imageDesc?.isSome = true) : n.kind = .image := by
  unfold Node.imageDesc? at h
  unfold Node.kind
  split at h
  · next hp => rw [hp]; rfl
  · cases h

theorem Node.isSome_imageDesc {n : Node} (h : n.kind = .image) : n.imageDesc?.isSome = true := by
  unfold Node.imageDesc?
  split
  · rfl
  · next hother =>
    unfold Node.kind at h
    cases hp : n.payload with
    | image desc handle external => exact absurd hp (hother desc handle external)
    | buffer _ _ => simp [hp, Payload.kind] at h
    | bufferView _ _ _ => simp [hp, Payload.kind] at h
    | imageView _ _ _ => simp [hp, Payload.kind] at h
    | swapchain _ _ => simp [hp, Payload.kind] at h

/-- The moves of a timeline before a pass are barriers on its node in the bucket of that pass. -/
theorem mem_on_before {ts : List Timeline} {t : Timeline} {m : Move} (ht : t ∈ ts)
    (hkind : t.node.IsTracked) (hbacked : t.node.isBacked = true) (hm : m ∈ t.moves) :
    (m.src, m.dst) ∈ (TransitionBatch.before m.pass ts).on t.node := by
  have hmp : m ∈ t.movesAt m.pass := List.mem_filter.2 ⟨hm, beq_self_eq_true _⟩
  unfold TransitionBatch.on
  unfold Node.IsTracked Node.kind at hkind
  unfold Node.isBacked at hbacked
  cases hp : t.node.payload with
  | buffer desc handle =>
    rw [hp] at hbacked
    obtain ⟨h, rfl⟩ := Option.isSome_iff_exists.1 hbacked
    have hx : t.bufferTransition? m.src m.dst = some ⟨t.node.name, h, m.src, m.dst⟩ := by
      simp [Timeline.bufferTransition?, hp]
    refine List.mem_map.2
      ⟨⟨t.node.name, h, m.src, m.dst⟩, List.mem_filter.2 ⟨?_, beq_self_eq_true _⟩, rfl⟩
    exact List.mem_flatMap.2 ⟨t, ht, List.mem_filterMap.2 ⟨m, hmp, hx⟩⟩
  | image desc handle external =>
    rw [hp] at hbacked
    obtain ⟨h, rfl⟩ := Option.isSome_iff_exists.1 hbacked
    have hx : t.imageTransition? m.src m.dst =
        some ⟨t.node.name, h, m.src, m.dst, desc.aspect⟩ := by
      simp [Timeline.imageTransition?, hp]
    refine List.mem_map.2
      ⟨⟨t.node.name, h, m.src, m.dst, desc.aspect⟩,
        List.mem_filter.2 ⟨?_, beq_self_eq_true _⟩, rfl⟩
    exact List.mem_flatMap.2 ⟨t, ht, List.mem_filterMap.2 ⟨m, hmp, hx⟩⟩
  | bufferView _ _ _ => simp [hp, Payload.kind] at hkind
  | imageView _ _ _ => simp [hp, Payload.kind] at hkind
  | swapchain _ _ => simp [hp, Payload.kind] at hkind

/-! ## Reducing buffers and images -/

namespace Timeline

theorem reduction_of_buffer {t : Timeline} (h : t.node.kind = .buffer) :
    t.reduction = Move.along Move.buffersJoin t.start t.entries := by
  unfold Node.kind at h
  unfold reduction
  cases hp : t.node.payload <;> simp_all [Payload.kind]

theorem reduction_of_image {t : Timeline} (h : t.node.kind = .image) :
    t.reduction = Move.along Move.imagesJoin t.start t.entries := by
  unfold Node.kind at h
  unfold reduction
  cases hp : t.node.payload <;> simp_all [Payload.kind]

/-- Moves lead into entries, whatever the node. -/
theorem exists_entry_of_mem_moves {t : Timeline} {m : Move} (h : m ∈ t.moves) :
    ∃ e ∈ t.entries, m.pass = e.pass ∧ m.dst = e.state := by
  unfold moves reduction at h
  split at h
  · exact Move.exists_entry h
  · exact Move.exists_entry h

end Timeline

/-! ## Attachments -/

namespace AttachmentUse

/-- What happens to its contents does not change what an attachment is. -/
theorem toAttachmentUse_finish (ts : List Timeline) (pass : Nat) (y : AttachmentUse) :
    (y.finish ts pass).toAttachmentUse = y := by
  unfold finish
  split
  · rfl
  · split <;> rfl

/-- Nor does it change its format as it is described. -/
theorem format_desc_finish (ts : List Timeline) (pass : Nat) (y : AttachmentUse) :
    (y.finish ts pass).desc.format = y.format :=
  congrArg AttachmentUse.format (y.toAttachmentUse_finish ts pass)

theorem samples_desc_finish (ts : List Timeline) (pass : Nat) (y : AttachmentUse) :
    (y.finish ts pass).desc.samples = y.samples :=
  congrArg AttachmentUse.samples (y.toAttachmentUse_finish ts pass)

/-- An attachment in one layout, cleared before the pass and dropped after it or not. -/
def settle (y : AttachmentUse) (layout : ImageLayout) (cleared dropped : Bool) :
    Attachment where
  toAttachmentUse := y
  loadOp := if cleared then .clear else .load
  storeOp := if dropped then .dontCare else .store
  stencilLoadOp := if y.format.hasStencil then if cleared then .clear else .load else .dontCare
  stencilStoreOp := if y.format.hasStencil then if dropped then .dontCare else .store else .dontCare
  initialLayout := if cleared then .undefined else layout
  finalLayout := layout
  layout

section
variable {y : AttachmentUse} {layout : ImageLayout} {cleared dropped : Bool}

theorem loadOp_settle_iff :
    (y.settle layout cleared dropped).loadOp = .clear ↔ cleared = true := by
  cases cleared
  · exact iff_of_false (fun h => by cases h) Bool.false_ne_true
  · exact iff_of_true rfl rfl

theorem storeOp_settle_iff :
    (y.settle layout cleared dropped).storeOp = .store ↔ dropped = false := by
  cases dropped
  · exact iff_of_true rfl rfl
  · exact iff_of_false (fun h => by cases h) Bool.false_ne_true.symm

end

/-- What happens to an attachment in a pass depends on what its image is used for before, in and
after the pass. -/
theorem finish_eq_settle {ts : List Timeline} {t : Timeline} {y : AttachmentUse}
    {e : TimelineEntry} {before after : List TimelineEntry}
    (hfind : ts.find? (·.index == y.tracked) = some t) (hes : t.entries = before ++ e :: after)
    (hbefore : ∀ x ∈ before, x.pass ≠ e.pass) :
    y.finish ts e.pass = y.settle e.state.layout
      (y.isCleared t.node.residency before.length e.state)
      (y.isDropped t.node.residency !after.isEmpty) := by
  have hnone : before.findIdx? (·.pass == e.pass) = none :=
    List.findIdx?_eq_none_iff.2 fun x hx => by simpa using hbefore x hx
  have hposition : t.entries.findIdx? (·.pass == e.pass) = some before.length := by
    rw [hes, List.findIdx?_append, hnone, List.findIdx?_cons]
    simp
  have hstate : t.stateAt? e.pass = some e.state := by
    have hmiss : before.find? (·.pass == e.pass) = none :=
      List.find?_eq_none.2 fun x hx => by simpa using hbefore x hx
    rw [Timeline.stateAt?, hes, List.find?_append, hmiss]
    simp
  have hlater : decide (before.length + 1 < t.entries.length) = !after.isEmpty := by
    rw [hes]
    cases after <;> simp
  unfold finish
  simp only [hfind, hposition, hstate, hlater]
  rfl

/-- An attachment takes its layouts from the entry at its pass. -/
theorem finish_of_entry {ts : List Timeline} {t : Timeline} {pass : Nat} {y : AttachmentUse}
    {e : TimelineEntry} (hone : ∀ u ∈ ts, u.index = y.tracked → u = t) (ht : t ∈ ts)
    (hi : t.index = y.tracked) (he : e ∈ t.entries) (hp : e.pass = pass) :
    ∃ e' ∈ t.entries, e'.pass = pass ∧ (y.finish ts pass).layout = e'.state.layout ∧
      (y.finish ts pass).finalLayout = e'.state.layout ∧
      ((y.finish ts pass).initialLayout = e'.state.layout ∨
        (y.finish ts pass).initialLayout = .undefined) := by
  have hfind : ts.find? (·.index == y.tracked) = some t := by
    have hsome : (ts.find? (·.index == y.tracked)).isSome :=
      List.find?_isSome.2 ⟨t, ht, by simpa using hi⟩
    obtain ⟨u, hu⟩ := Option.isSome_iff_exists.1 hsome
    have hui := List.find?_some hu
    rw [hu, hone u (List.mem_of_find?_eq_some hu) (by simpa using hui)]
  have hsome : (t.entries.find? (·.pass == pass)).isSome :=
    List.find?_isSome.2 ⟨e, he, by simpa using hp⟩
  obtain ⟨e', he'⟩ := Option.isSome_iff_exists.1 hsome
  obtain ⟨hep', before, after, hsplit, hbefore⟩ := List.find?_eq_some_iff_append.1 he'
  obtain rfl : e'.pass = pass := by simpa using hep'
  refine ⟨e', List.mem_of_find?_eq_some he', rfl, ?_⟩
  rw [finish_eq_settle hfind hsplit (by simpa using hbefore)]
  refine ⟨rfl, rfl, ?_⟩
  unfold settle
  split
  · exact .inr rfl
  · exact .inl rfl

end AttachmentUse

/-- The barriers at the end of a frame, listed by timeline. -/
theorem images_atEnd (ts : List Timeline) : (TransitionBatch.atEnd ts).images = ts.flatMap fun t =>
    if t.isShown then (t.imageTransition? t.reduction.2 .present).toList else [] := by
  unfold TransitionBatch.atEnd
  induction ts with
  | nil => rfl
  | cons t ts ih =>
    simp only at ih
    cases hshown : t.isShown with
    | false => simp [hshown, ih]
    | true =>
      cases hb : t.imageTransition? t.reduction.2 .present with
      | none => simp [hshown, hb, ih]
      | some b => simp [hshown, hb, ih]

/-! ## The timelines of an accepted frame -/

section
variable {f f' : Forest} {shaders : Registry} {passes : List Pass} {a : Analysis} {t : Timeline}

theorem timelines_eq (h : (analyze passes f shaders).result = .ok (a, f')) :
    ∃ frame, a.timelines = Timeline.ofFrame f.nodes frame ∧ frame.length = passes.length := by
  obtain ⟨uses, huses, rfl, -⟩ := analyze_ok_iff.1 h
  obtain ⟨hlen, -⟩ := frameUses_ok huses
  exact ⟨uses.map (·.uses), rfl, by simp [hlen]⟩

theorem barriers_eq (h : (analyze passes f shaders).result = .ok (a, f')) :
    a.barriers = (List.range passes.length).map (.before · a.timelines) ∧
      a.endOfFrame = .atEnd a.timelines := by
  obtain ⟨uses, huses, rfl, -⟩ := analyze_ok_iff.1 h
  obtain ⟨hlen, -⟩ := frameUses_ok huses
  exact ⟨by rw [← hlen]; rfl, rfl⟩

/-- A use of a node in an accepted frame is one that a pass declares. -/
theorem exists_declares {uses : List PassUses}
    (huses : (frameUses f shaders passes).result = .ok uses)
    {us : List NodeUse} (hus : us ∈ uses.map (·.uses)) {u : NodeUse} (hu : u ∈ us) :
    ∃ pass ∈ passes, ∃ use ∈ pass.uses, Declares f shaders pass use u := by
  obtain ⟨r, hr, rfl⟩ := List.mem_map.1 hus
  obtain ⟨k, hk⟩ := List.mem_iff_getElem?.1 hr
  obtain ⟨pass, hpass, hok⟩ := exists_pass_of_getElem? huses hk
  obtain ⟨use, huse, hdeclares⟩ := exists_left_of_mem (passUses_ok hok).1 hu
  exact ⟨pass, List.mem_of_getElem? hpass, use, huse, hdeclares⟩

/-- A frame touches only backed nodes. -/
theorem exists_node_of_touched {uses : List PassUses} {i : Nat}
    (huses : (frameUses f shaders passes).result = .ok uses)
    (hi : i ∈ Timeline.touched (uses.map (·.uses))) :
    ∃ n, f.nodes[i]? = some n ∧ n.isBacked = true := by
  obtain ⟨us, hus, v, hv⟩ := Timeline.mem_touched.1 hi
  obtain ⟨pass, -, use, -, hdeclares⟩ := exists_declares huses hus hv
  obtain ⟨n, hn, hbacked, -⟩ := hdeclares.nodes
  exact ⟨n, hn, hbacked⟩

/-- A timeline is that of a backed node. -/
theorem node_of_mem_timelines (h : (analyze passes f shaders).result = .ok (a, f'))
    (ht : t ∈ a.timelines) : f.nodes[t.index]? = some t.node ∧ t.node.isBacked = true := by
  obtain ⟨uses, huses, rfl, -⟩ := analyze_ok_iff.1 h
  obtain ⟨htouched, hnode, -⟩ := Timeline.mem_ofFrame_iff.1 ht
  obtain ⟨n, hn, hbacked⟩ := exists_node_of_touched huses htouched
  rw [hnode] at hn
  obtain rfl := Option.some.inj hn
  exact ⟨hnode, hbacked⟩

/-- An entry accesses something. -/
theorem exists_mem_access (h : (analyze passes f shaders).result = .ok (a, f'))
    (ht : t ∈ a.timelines) {e : TimelineEntry} (he : e ∈ t.entries) : ∃ i, i ∈ e.state.access := by
  obtain ⟨uses, huses, rfl, -⟩ := analyze_ok_iff.1 h
  obtain ⟨us, u, hus, hu, hstate⟩ := (Timeline.mem_entries_iff ht).1 he
  obtain ⟨v, hv⟩ := Timeline.isSome_usageIn_iff.1 (Option.isSome_of_mem hu)
  obtain ⟨pass, -, use, -, hdeclares⟩ := exists_declares huses (List.mem_of_getElem? hus) hv
  obtain ⟨-, -, -, i, hi, -⟩ := hdeclares.nodes
  rw [hstate]
  exact ⟨i, (Timeline.mem_access_usageIn_iff hu).2 ⟨v, hv, hi⟩⟩

/-- A node has one timeline. -/
theorem eq_of_mem_timelines (h : (analyze passes f shaders).result = .ok (a, f')) {t' : Timeline}
    (ht : t ∈ a.timelines) (ht' : t' ∈ a.timelines) (hi : t.index = t'.index) : t = t' := by
  obtain ⟨frame, hts, -⟩ := timelines_eq h
  rw [hts] at ht ht'
  exact Timeline.eq_of_index_eq ht ht' hi

/-- A node that is used in a pass has its timeline, with an entry at the pass. -/
theorem exists_entry_of_nodeUse {uses : List PassUses} {i : Nat} {r : PassUses} {u : NodeUse}
    {n : Node} (hr : uses[i]? = some r) (hu : u ∈ r.uses) (hn : f.nodes[u.index]? = some n) :
    ∃ t ∈ (Analysis.ofUses f uses).timelines, t.index = u.index ∧ t.node = n ∧
      ∃ e ∈ t.entries, e.pass = i := by
  have hi : (uses.map (·.uses))[i]? = some r.uses := by simp [hr]
  let t : Timeline := ⟨u.index, n, Timeline.entriesFrom u.index n 0 (uses.map (·.uses))⟩
  have ht : t ∈ (Analysis.ofUses f uses).timelines :=
    Timeline.mem_ofFrame_iff.2
      ⟨Timeline.mem_touched.2 ⟨r.uses, List.mem_of_getElem? hi, _, hu⟩, hn, rfl⟩
  obtain ⟨v, hv⟩ := Option.isSome_iff_exists.1 (Timeline.isSome_usageIn_iff.2 ⟨_, hu⟩)
  exact ⟨t, ht, rfl, rfl, ⟨i, v.stateOf n⟩,
    (Timeline.mem_entries_iff ht).2 ⟨r.uses, v, hi, hv, rfl⟩, rfl⟩

/-- Every use that a pass declares is of a backed node, which has an entry at the pass. -/
theorem exists_entry_of_use (h : (analyze passes f shaders).result = .ok (a, f')) {i : Nat}
    {pass : Pass} {use : Use} (hpass : passes[i]? = some pass) (huse : use ∈ pass.uses) :
    ∃ p, f.tracked use.resource = .ok p ∧ p.node.isBacked = true ∧
      ∃ t ∈ a.timelines, t.index = p.index ∧ t.node = p.node ∧ ∃ e ∈ t.entries, e.pass = i := by
  obtain ⟨uses, huses, rfl, -⟩ := analyze_ok_iff.1 h
  obtain ⟨-, hpasses⟩ := frameUses_ok huses
  obtain ⟨r, hr, hruses⟩ := hpasses i pass hpass
  obtain ⟨u, hu, p, hp, hbacked, -, hindex⟩ := exists_right_of_mem (passUses_ok hruses).1 huse
  have hn : f.nodes[u.index]? = some p.node := by
    rw [hindex]
    exact Forest.nodes_of_tracked hp
  refine ⟨p, hp, hbacked, ?_⟩
  rw [← hindex]
  exact exists_entry_of_nodeUse hr hu hn

/-- The attachments of a render pass are images with an entry at the pass, from which their layouts
are taken. -/
theorem exists_entry_of_attachment (h : (analyze passes f shaders).result = .ok (a, f'))
    {target : RenderTarget Attachment} {x : Attachment} (htarget : target ∈ a.targets)
    (hx : x ∈ target.attachments) : ∃ t ∈ a.timelines, t.index = x.tracked ∧
      t.node.kind = .image ∧ ∃ e ∈ t.entries, e.pass = target.pass ∧
        x.layout = e.state.layout ∧ x.finalLayout = e.state.layout ∧
        (x.initialLayout = e.state.layout ∨ x.initialLayout = .undefined) := by
  obtain ⟨uses, huses, rfl, -⟩ := analyze_ok_iff.1 h
  obtain ⟨declared, hdeclared, rfl⟩ := List.mem_map.1 htarget
  obtain ⟨r, hr, hrtarget⟩ := List.mem_filterMap.1 hdeclared
  obtain ⟨y, hy, rfl⟩ := List.mem_map.1 hx
  obtain ⟨i, hi⟩ := List.mem_iff_getElem?.1 hr
  obtain ⟨pass, -, hpass⟩ := exists_pass_of_getElem? huses hi
  obtain ⟨rfl, hattached⟩ := (passUses_ok hpass).2.2 declared hrtarget
  obtain ⟨u, hu, hindex, n, hn, himage⟩ := hattached y hy
  rw [← hindex] at hn
  obtain ⟨t, ht, hti, rfl, e, he, hep⟩ := exists_entry_of_nodeUse hi hu hn
  rw [hindex] at hti
  obtain ⟨e', he', hep', hlayouts⟩ := AttachmentUse.finish_of_entry
    (fun v hv hvi => eq_of_mem_timelines h hv ht (hvi.trans hti.symm)) ht hti he hep
  refine ⟨t, ht, ?_, ?_, e', he', hep', hlayouts⟩
  · rw [hti, AttachmentUse.toAttachmentUse_finish]
  · exact Node.kind_of_imageDesc himage

theorem pairwise_of_mem_timelines (h : (analyze passes f shaders).result = .ok (a, f'))
    (ht : t ∈ a.timelines) : t.entries.Pairwise fun x y => x.pass < y.pass := by
  obtain ⟨frame, hts, -⟩ := timelines_eq h
  rw [hts] at ht
  exact Timeline.pairwise_entries ht

theorem pass_lt_of_mem_timelines (h : (analyze passes f shaders).result = .ok (a, f'))
    (ht : t ∈ a.timelines) {e : TimelineEntry} (he : e ∈ t.entries) : e.pass < passes.length := by
  obtain ⟨frame, hts, hlen⟩ := timelines_eq h
  rw [hts] at ht
  rw [← hlen]
  exact Timeline.pass_lt ht he

/-- **Every move of a timeline is recorded** as a barrier on its node. -/
theorem moves_subset_movesOn (h : (analyze passes f shaders).result = .ok (a, f'))
    (ht : t ∈ a.timelines) (hkind : t.node.IsTracked) {m : Move} (hm : m ∈ t.moves) :
    m ∈ a.movesOn t.node := by
  obtain ⟨e, he, hpass, -⟩ := Timeline.exists_entry_of_mem_moves hm
  have hlt := pass_lt_of_mem_timelines h ht he
  rw [← hpass] at hlt
  refine Analysis.mem_movesOn_iff.2 ⟨.before m.pass a.timelines, ?_, ?_⟩
  · simp [(barriers_eq h).1, hlt]
  · exact mem_on_before ht hkind (node_of_mem_timelines h ht).2 hm

end

/-! ## What a frame leaves behind -/

namespace Forest

theorem carry_cons_of_dontCare {f : Forest} {t : Timeline} {ts : List Timeline}
    (h : t.node.residency = .dontCare) : f.carry (t :: ts) = f.carry ts := by
  simp [carry, h]

theorem carry_cons {f : Forest} {t : Timeline} {ts : List Timeline}
    (h : t.node.residency ≠ .dontCare) : f.carry (t :: ts) =
      (f.modify t.index fun n => { n with current := t.finish }).carry ts := by
  simp [carry, h]

/-- What all nodes tell does not change with a change that they do not tell of. -/
theorem map_nodes_modify {α : Type} {f : Forest} {i : Nat} {change : Node → Node} {view : Node → α}
    (h : ∀ n, view (change n) = view n) :
    (f.modify i change).nodes.map view = f.nodes.map view :=
  map_modify h f.nodes i

/-- A frame changes no more than the states that nodes carry. -/
theorem map_nodes_carry {α : Type} {view : Node → α}
    (h : ∀ (n : Node) s, view { n with current := s } = view n) (f : Forest) (ts : List Timeline) :
    (f.carry ts).nodes.map view = f.nodes.map view := by
  induction ts generalizing f with
  | nil => rfl
  | cons t ts ih =>
    by_cases hres : t.node.residency = .dontCare
    · rw [carry_cons_of_dontCare hres, ih]
    · rw [carry_cons hres, ih, map_nodes_modify fun n => h n t.finish]

theorem hierarchy_carry (f : Forest) (ts : List Timeline) :
    (f.carry ts).hierarchy = f.hierarchy := map_nodes_carry (fun _ _ => rfl) f ts

theorem life_carry (f : Forest) (ts : List Timeline) : (f.carry ts).life = f.life := by
  induction ts generalizing f with
  | nil => rfl
  | cons t ts ih =>
    by_cases hres : t.node.residency = .dontCare
    · rw [carry_cons_of_dontCare hres, ih]
    · rw [carry_cons hres, ih]
      rfl

/-- The nodes after a frame are the nodes before it. -/
theorem exists_of_nodes_carry {f : Forest} {ts : List Timeline} {i : Nat} {n' : Node}
    (h : (f.carry ts).nodes[i]? = some n') : ∃ n, f.nodes[i]? = some n := by
  obtain ⟨hlt, -⟩ := List.getElem?_eq_some_iff.1 h
  have hlen := congrArg List.length (hierarchy_carry f ts)
  unfold hierarchy at hlen
  rw [List.length_map, List.length_map] at hlen
  exact ⟨_, List.getElem?_eq_getElem (hlen ▸ hlt)⟩

/-- Only the states that nodes carry change: that of a node whose contents matter becomes the last
of its timeline. -/
theorem exists_carry {f : Forest} (ts : List Timeline) {i : Nat} {n : Node}
    (h : f.nodes[i]? = some n) : ∃ s, (f.carry ts).nodes[i]? = some { n with current := s } ∧
      ((∃ t ∈ ts, t.index = i ∧ t.node.residency ≠ .dontCare ∧ s = t.finish) ∨
        s = n.current ∧ ∀ t ∈ ts, t.index = i → t.node.residency = .dontCare) := by
  induction ts generalizing f n with
  | nil => exact ⟨n.current, h, .inr ⟨rfl, by simp⟩⟩
  | cons t ts ih =>
    by_cases hres : t.node.residency = .dontCare
    · rw [carry_cons_of_dontCare hres]
      obtain ⟨s, hs, hlast⟩ := ih h
      refine ⟨s, hs, hlast.imp ?_ ?_⟩
      · rintro ⟨u, hu, hlast⟩
        exact ⟨u, List.mem_cons_of_mem _ hu, hlast⟩
      · rintro ⟨rfl, hall⟩
        exact ⟨rfl, List.forall_mem_cons.2 ⟨fun _ => hres, hall⟩⟩
    · rw [carry_cons hres]
      by_cases hi : t.index = i
      · have hn : (f.modify t.index fun n => { n with current := t.finish }).nodes[i]? =
            some { n with current := t.finish } := by
          simp [modify, hi, h]
        obtain ⟨s, hs, ⟨u, hu, hlast⟩ | ⟨rfl, -⟩⟩ := ih hn
        · exact ⟨s, hs, .inl ⟨u, List.mem_cons_of_mem _ hu, hlast⟩⟩
        · exact ⟨t.finish, hs, .inl ⟨t, List.mem_cons_self, hi, hres, rfl⟩⟩
      · have hn : (f.modify t.index fun n => { n with current := t.finish }).nodes[i]? =
            some n := by
          simp [modify, hi, h]
        obtain ⟨s, hs, hlast⟩ := ih hn
        refine ⟨s, hs, hlast.imp ?_ ?_⟩
        · rintro ⟨u, hu, hlast⟩
          exact ⟨u, List.mem_cons_of_mem _ hu, hlast⟩
        · rintro ⟨rfl, hall⟩
          exact ⟨rfl, List.forall_mem_cons.2 ⟨fun h => absurd h hi, hall⟩⟩

end Forest

/-- A node after a frame is one from before it, in the state in which the frame leaves it. -/
theorem exists_node_before {f f' : Forest} {shaders : Registry} {passes : List Pass} {a : Analysis}
    {i : Nat} {n' : Node} (h : (analyze passes f shaders).result = .ok (a, f'))
    (hn' : f'.nodes[i]? = some n') : ∃ n s, f.nodes[i]? = some n ∧ n' = { n with current := s } ∧
      ((∃ t ∈ a.timelines, t.index = i ∧ t.node.residency ≠ .dontCare ∧ s = t.finish) ∨
        s = n.current ∧ ∀ t ∈ a.timelines, t.index = i → t.node.residency = .dontCare) := by
  obtain ⟨-, -, -, rfl⟩ := analyze_ok_iff.1 h
  obtain ⟨n, hn⟩ := Forest.exists_of_nodes_carry hn'
  obtain ⟨s, hs, hlast⟩ := Forest.exists_carry a.timelines hn
  rw [hs] at hn'
  exact ⟨n, s, hn, (Option.some.inj hn').symm, hlast⟩

end FrameGraph
