import FrameGraph.Analysis.Basic
import FrameGraph.Proofs.Outcomes

/-!
# What an accepted frame declares

A frame is accepted when no declaration of its passes is a fault. Then each declared use comes to
one use of a backed node (`Declares`), pass by pass and in order (`frameUses_ok`), and the
attachments of a render pass are images that the pass uses (`passUses_ok`).
-/

set_option autoImplicit false

namespace FrameGraph

/-! ## Looking up -/

namespace Forest

theorem place?_eq_some_iff {f : Forest} {i : Nat} {p : Place} :
    f.place? i = some p ↔ p.index = i ∧ f.nodes[i]? = some p.node := by
  simp only [place?, Option.map_eq_some_iff]
  constructor
  · rintro ⟨n, hn, rfl⟩
    exact ⟨rfl, hn⟩
  · rintro ⟨rfl, hn⟩
    exact ⟨p.node, hn, rfl⟩

theorem nodes_of_find {f : Forest} {name : String} {p : Place} (h : f.find name = .ok p) :
    f.nodes[p.index]? = some p.node ∧ p.node.name = name := by
  unfold find at h
  split at h
  · next q hq =>
    obtain rfl := Except.ok.inj h
    obtain ⟨i, hi, hp⟩ := Option.bind_eq_some_iff.1 hq
    obtain ⟨rfl, hn⟩ := place?_eq_some_iff.1 hp
    refine ⟨hn, ?_⟩
    obtain ⟨hlt, hname, -⟩ := List.findIdx?_eq_some_iff_getElem.1 hi
    obtain ⟨_, hget⟩ := List.getElem?_eq_some_iff.1 hn
    rw [hget] at hname
    exact beq_iff_eq.1 hname
  · cases h

theorem nodes_of_resolve {f : Forest} {name : String} {p : Place} (h : f.resolve name = .ok p) :
    f.nodes[p.index]? = some p.node := by
  obtain ⟨q, hq, h⟩ := Except.bind_eq_ok_iff.1 h
  split at h
  · split at h
    · next image himage =>
      obtain rfl := Except.ok.inj h
      obtain ⟨i, -, hp⟩ := Option.bind_eq_some_iff.1 himage
      obtain ⟨rfl, hn⟩ := place?_eq_some_iff.1 hp
      exact hn
    · cases h
  · obtain rfl := Except.ok.inj h
    exact (nodes_of_find hq).1

theorem nodes_of_tracked {f : Forest} {name : String} {p : Place} (h : f.tracked name = .ok p) :
    f.nodes[p.index]? = some p.node := by
  obtain ⟨q, hq, h⟩ := Except.bind_eq_ok_iff.1 h
  split at h
  · next parent _ hparent =>
    obtain rfl := Except.ok.inj h
    obtain ⟨i, -, hp⟩ := Option.bind_eq_some_iff.1 hparent
    obtain ⟨rfl, hn⟩ := place?_eq_some_iff.1 hp
    exact hn
  · obtain rfl := Except.ok.inj h
    exact nodes_of_resolve hq

theorem nodes_of_view {f : Forest} {name : String} {p : Place} (h : f.view name = .ok p) :
    f.nodes[p.index]? = some p.node := by
  obtain ⟨q, hq, h⟩ := Except.bind_eq_ok_iff.1 h
  split at h
  · obtain rfl := Except.ok.inj h
    exact nodes_of_resolve hq
  · obtain rfl := Except.ok.inj h
    exact nodes_of_resolve hq
  · dsimp only at h
    split at h
    · next child hchild =>
      obtain rfl := Except.ok.inj h
      obtain ⟨i, -, hp⟩ := List.mem_filterMap.1 (List.mem_of_find?_eq_some hchild)
      obtain ⟨rfl, hn⟩ := place?_eq_some_iff.1 hp
      exact hn
    · cases h
  · cases h

end Forest

/-! ## What a use comes to -/

namespace Usage

/-- The accesses for which an image is put into a layout. -/
def laidOut : AccessMask :=
  AccessMask.transferWrite ∪ AccessMask.transferRead ∪ AccessMask.shaderWrite ∪
    AccessMask.shaderRead ∪ AccessMask.inputAttachmentRead ∪ AccessMask.colorAttachmentWrite ∪
    AccessMask.depthStencilAttachmentWrite ∪ AccessMask.shadingRateAttachmentRead

/-- Whether a usage makes any access to a node, and one that has a layout if the node is no
buffer. -/
def Accesses (u : Usage) (n : Node) : Prop :=
  ∃ i, i ∈ u.access ∧ (n.isBufferLike = false → i ∈ laidOut)

/-- An access that has a layout is enough. -/
theorem Accesses.of_laidOut {u : Usage} {i : Nat} (n : Node) (h : i ∈ u.access)
    (hi : i ∈ laidOut) : u.Accesses n := ⟨i, h, fun _ => hi⟩

/-- A buffer needs no layout. -/
theorem Accesses.of_buffer {u : Usage} {n : Node} {i : Nat} (h : i ∈ u.access)
    (hn : n.isBufferLike = true) : u.Accesses n :=
  ⟨i, h, fun hn' => absurd (hn.symm.trans hn') Bool.noConfusion⟩

theorem Accesses.merge {u : Usage} {n : Node} (h : u.Accesses n) (v : Usage) :
    (u.merge v).Accesses n := by
  obtain ⟨i, hi, hlaid⟩ := h
  exact ⟨i, Mask.mem_union.2 (.inl hi), hlaid⟩

/-- Whether a usage does what a use of a node declares: it makes an access, and it writes exactly if
the mode of the use does. -/
structure Answers (u : Usage) (use : Use) (n : Node) : Prop where
  accesses : u.Accesses n
  writes : u.access.meets AccessMask.writes = use.mode.writes

section
variable {pass : String} {use : Use} {n : Node} {u : Usage}

theorem answers_ofOutput (h : ofOutput pass use = .ok u) : u.Answers use n := by
  unfold ofOutput at h
  dsimp only at h
  split at h
  · split at h
    · next hmode =>
      cases h
      exact ⟨.of_laidOut (i := 10) n (by decide) (by decide), by rw [hmode]; rfl⟩
    · next hmode =>
      cases h
      exact ⟨.of_laidOut (i := 10) n (Mask.mem_union.2 (.inl (by decide))) (by decide),
        by rw [hmode]; rfl⟩
    · cases h
  · split at h
    · split at h
      · next hmode =>
        cases h
        exact ⟨.of_laidOut (i := 8) n (by decide) (by decide), by rw [hmode]; rfl⟩
      · next hmode =>
        cases h
        exact ⟨.of_laidOut (i := 8) n (Mask.mem_union.2 (.inl (by decide))) (by decide),
          by rw [hmode]; rfl⟩
      · cases h
    · cases h

theorem answers_ofInput (use : Use) (n : Node) : (ofInput use).Answers use n := by
  have hreads (stage : StageMask) : Accesses ⟨stage, .inputAttachmentRead⟩ n :=
    .of_laidOut (i := 4) n (show 4 ∈ AccessMask.inputAttachmentRead by decide) (by decide)
  unfold ofInput
  dsimp only
  split
  · next hmode =>
    refine ⟨(hreads _).merge _, ?_⟩
    rw [hmode]
    split <;> rfl
  · next hmode =>
    refine ⟨hreads _, ?_⟩
    rw [Bool.eq_false_iff.2 hmode]
    show AccessMask.inputAttachmentRead.meets AccessMask.writes = false
    decide

theorem answers_ofAttachment (h : ofAttachment pass use n = .ok u) : u.Answers use n := by
  unfold ofAttachment at h
  split at h
  · cases h
  · split at h
    · cases h
    · split at h
      · exact answers_ofOutput h
      · split at h
        · split at h
          · cases h
          · next hmode =>
            cases h
            refine ⟨.of_laidOut (i := 23) n (by decide) (by decide), ?_⟩
            rw [Bool.eq_false_iff.2 hmode]
            rfl
        · cases h
        · cases h
          exact answers_ofInput use n

theorem answers_ofIndirect (h : ofIndirect pass use n = .ok u) : u.Answers use n := by
  unfold ofIndirect at h
  split at h
  · cases h
  · next hreads =>
    simp only [Bool.or_eq_true, not_or] at hreads
    obtain ⟨hbuffer, hmode⟩ := hreads
    cases h
    refine ⟨.of_buffer (i := 0) (by decide) (by simpa using hbuffer), ?_⟩
    rw [Bool.eq_false_iff.2 hmode]
    rfl

theorem isBufferLike_of_bufferDesc (h : n.bufferDesc?.isSome = true) : n.isBufferLike = true := by
  unfold Node.bufferDesc? at h
  split at h
  · next hp => simp [Node.isBufferLike, Node.kind, hp, Payload.kind]
  · cases h

/-- What a shader does. Only a buffer can be read as uniform. -/
theorem answers_shaderAccess {uniform : Bool} (stage : StageMask)
    (huniform : uniform = true → n.isBufferLike = true) :
    Answers ⟨stage, shaderAccess use.mode uniform⟩ use n := by
  refine ⟨?_, ?_⟩
  · cases use.mode with
    | read =>
      cases uniform with
      | true => exact .of_buffer (i := 3) (show 3 ∈ AccessMask.uniformRead by decide) (huniform rfl)
      | false => exact .of_laidOut (i := 5) n (show 5 ∈ AccessMask.shaderRead by decide) (by decide)
    | write => exact .of_laidOut (i := 6) n (show 6 ∈ AccessMask.shaderWrite by decide) (by decide)
    | readWrite =>
      exact .of_laidOut (i := 5) n
        (show 5 ∈ AccessMask.shaderRead ∪ AccessMask.shaderWrite by decide) (by decide)
  · show (shaderAccess use.mode uniform).meets AccessMask.writes = use.mode.writes
    cases use.mode <;> cases uniform <;> rfl

theorem answers_ofDraw {shader : Shader} (h : (ofDraw pass use n shader).result = .ok u) :
    u.Answers use n := by
  unfold ofDraw at h
  split at h
  · exact answers_ofIndirect h
  · simp only [Traced.result_bind, Except.bind_eq_ok_iff] at h
    obtain ⟨b, -, stage, -, h⟩ := h
    cases h
    exact answers_shaderAccess _ fun huniform => ((Bool.and_eq_true _ _).mp huniform).2

theorem answers_ofCompute {shader : Option Shader} (h : ofCompute pass use n shader = .ok u) :
    u.Answers use n := by
  unfold ofCompute at h
  split at h
  · exact answers_ofIndirect h
  · dsimp only at h
    split at h
    · obtain ⟨b, -, h⟩ := Except.bind_eq_ok_iff.1 h
      cases h
      exact answers_shaderAccess _ fun huniform => ((Bool.and_eq_true _ _).mp huniform).2
    · cases h
      exact answers_shaderAccess _ fun huniform =>
        isBufferLike_of_bufferDesc (Option.isSome_of_any huniform)

theorem answers_ofCopy (use : Use) (n : Node) : (ofCopy use).Answers use n := by
  unfold ofCopy
  cases hmode : use.mode with
  | read => exact ⟨.of_laidOut (i := 11) n (by decide) (by decide), by rw [hmode]; rfl⟩
  | write => exact ⟨.of_laidOut (i := 12) n (by decide) (by decide), by rw [hmode]; rfl⟩
  | readWrite => exact ⟨.of_laidOut (i := 11) n (by decide) (by decide), by rw [hmode]; rfl⟩

/-- **What an accepted use comes to is what it declares.** -/
theorem answers_classify {shaders : Registry} {pass : Pass}
    (h : (classify shaders pass use n).result = .ok u) : u.Answers use n := by
  unfold classify at h
  split at h
  · exact answers_ofAttachment h
  · simp only [Traced.result_bind, Except.bind_eq_ok_iff] at h
    obtain ⟨shader, -, h⟩ := h
    exact answers_ofDraw h
  · simp only [Traced.result_bind, Except.bind_eq_ok_iff] at h
    obtain ⟨shader, -, h⟩ := h
    exact answers_ofCompute h
  · cases h
    exact answers_ofCopy use n

end

end Usage

/-! ## The uses of a pass -/

/-- What a use that a pass declares comes to: a use of the backed node that the name stands for. -/
def Declares (f : Forest) (shaders : Registry) (pass : Pass) (use : Use) (u : NodeUse) : Prop :=
  ∃ p, f.tracked use.resource = .ok p ∧ p.node.isBacked = true ∧
    (Usage.classify shaders pass use p.node).result = .ok u.usage ∧ u.index = p.index

theorem Declares.nodes {f : Forest} {shaders : Registry} {pass : Pass} {use : Use} {u : NodeUse}
    (h : Declares f shaders pass use u) :
    ∃ n, f.nodes[u.index]? = some n ∧ n.isBacked = true ∧ u.usage.Accesses n := by
  obtain ⟨p, hp, hbacked, hu, hi⟩ := h
  rw [hi]
  exact ⟨p.node, Forest.nodes_of_tracked hp, hbacked, (Usage.answers_classify hu).accesses⟩

/-- Whether an attachment is an image that one of the uses uses. -/
def IsAttached (f : Forest) (us : List NodeUse) (x : AttachmentUse) : Prop :=
  ∃ u ∈ us, u.index = x.tracked ∧ ∃ n, f.nodes[x.tracked]? = some n ∧ n.imageDesc?.isSome = true

theorem IsAttached.mono {f : Forest} {us us' : List NodeUse} {x : AttachmentUse}
    (h : IsAttached f us x) (hus : ∀ u ∈ us, u ∈ us') : IsAttached f us' x := by
  obtain ⟨u, hu, h⟩ := h
  exact ⟨u, hus u hu, h⟩

theorem RenderTarget.add_ok {t t' : RenderTarget AttachmentUse} {a : AttachmentUse}
    {extent : Extent} (h : t.add a extent = .ok t') :
    t'.pass = t.pass ∧ t'.attachments = t.withAttachment a ∧
      t'.extent = if (t.withAttachment a).length = 1 then extent else t.extent := by
  unfold RenderTarget.add at h
  dsimp only at h
  split at h
  · split at h
    · split at h
      · split at h
        · cases h; exact ⟨rfl, rfl, rfl⟩
        · cases h
      · cases h; exact ⟨rfl, rfl, rfl⟩
    · cases h; exact ⟨rfl, rfl, rfl⟩
  · cases h; exact ⟨rfl, rfl, rfl⟩
  · cases h; exact ⟨rfl, rfl, rfl⟩

theorem RenderTarget.mem_withAttachment {t : RenderTarget AttachmentUse} {a x : AttachmentUse}
    (h : x ∈ t.withAttachment a) : x ∈ t.attachments ∨ x = a := by
  unfold RenderTarget.withAttachment at h
  split at h
  · exact .inl h
  · simpa using h

theorem attach_ok {f : Forest} {use : Use} {p : Place} {t t' : RenderTarget AttachmentUse}
    (h : attach f use p t = .ok t') : t'.pass = t.pass ∧ ∀ x ∈ t'.attachments,
      x ∈ t.attachments ∨ x.tracked = p.index ∧ p.node.imageDesc?.isSome = true := by
  unfold attach at h
  split at h
  · cases h
    exact ⟨rfl, fun x hx => .inl hx⟩
  · next desc hdesc =>
    obtain ⟨view, -, h⟩ := Except.bind_eq_ok_iff.1 h
    obtain ⟨hpass, hattachments, -⟩ := RenderTarget.add_ok h
    refine ⟨hpass, fun x hx => ?_⟩
    rw [hattachments] at hx
    rcases RenderTarget.mem_withAttachment hx with hx | rfl
    · exact .inl hx
    · exact .inr ⟨rfl, by rw [hdesc]; rfl⟩

section
variable {f : Forest} {shaders : Registry} {pass : Pass}

/-- What an accepted use comes to, in terms of what is looked up. -/
theorem addUse_eq_ok_iff {done r : PassUses} {use : Use} :
    (addUse f shaders pass done use).result = .ok r ↔ ∃ p usage target,
      f.tracked use.resource = .ok p ∧ p.node.isBacked = true ∧
      (Usage.classify shaders pass use p.node).result = .ok usage ∧
      done.target.mapM (attach f use p) = .ok target ∧
      r = ⟨done.uses ++ [⟨p.index, usage⟩], target⟩ := by
  simp only [addUse, Traced.result_bind, Traced.result_ofExcept, Except.bind_eq_ok_iff]
  constructor
  · rintro ⟨p, hp, h⟩
    split at h
    · cases h
    · next hbacked =>
      simp only [Traced.result_bind, Traced.result_ofExcept, Except.bind_eq_ok_iff] at h
      obtain ⟨usage, husage, target, htarget, h⟩ := h
      exact ⟨p, usage, target, hp, by simpa using hbacked, husage, htarget,
        (Except.ok.inj h).symm⟩
  · rintro ⟨p, usage, target, hp, hbacked, husage, htarget, rfl⟩
    refine ⟨p, hp, ?_⟩
    rw [if_neg (by simp [hbacked])]
    simp only [Traced.result_bind, Traced.result_ofExcept, Except.bind_eq_ok_iff]
    exact ⟨usage, husage, target, htarget, rfl⟩

/-- What one declared use adds to a pass. -/
theorem addUse_ok {done r : PassUses} {use : Use}
    (h : (addUse f shaders pass done use).result = .ok r) :
    ∃ u, Declares f shaders pass use u ∧ r.uses = done.uses ++ [u] ∧
      r.target.map (·.pass) = done.target.map (·.pass) ∧
      ∀ t' ∈ r.target, ∀ x ∈ t'.attachments,
        (∃ t ∈ done.target, x ∈ t.attachments) ∨ IsAttached f [u] x := by
  obtain ⟨p, usage, target, hp, hbacked, husage, htarget, rfl⟩ := addUse_eq_ok_iff.1 h
  refine ⟨⟨p.index, usage⟩, ⟨p, hp, hbacked, husage, rfl⟩, rfl, ?_⟩
  cases hdone : done.target with
  | none =>
    rw [hdone] at htarget
    cases htarget
    exact ⟨rfl, by simp⟩
  | some t =>
    rw [hdone] at htarget
    obtain ⟨t', ht', rfl⟩ := Except.map_eq_ok_iff.1 htarget
    obtain ⟨hpass, hattachments⟩ := attach_ok ht'
    refine ⟨congrArg some hpass, ?_⟩
    rintro t'' ht'' x hx
    obtain rfl := Option.some.inj ht''
    rcases hattachments x hx with hx | ⟨hi, himage⟩
    · exact .inl ⟨t, rfl, hx⟩
    · refine .inr ⟨_, List.mem_singleton_self _, hi.symm, p.node, ?_, himage⟩
      rw [hi]
      exact Forest.nodes_of_tracked hp

theorem foldlM_addUse_ok {uses : List Use} {done r : PassUses}
    (h : (uses.foldlM (addUse f shaders pass) done).result = .ok r) :
    ∃ us, List.Forall₂ (Declares f shaders pass) uses us ∧ r.uses = done.uses ++ us ∧
      r.target.map (·.pass) = done.target.map (·.pass) ∧
      ∀ t' ∈ r.target, ∀ x ∈ t'.attachments,
        (∃ t ∈ done.target, x ∈ t.attachments) ∨ IsAttached f us x := by
  induction uses generalizing done with
  | nil =>
    obtain rfl := Except.ok.inj h
    exact ⟨[], .nil, by simp, rfl, fun t' ht' x hx => .inl ⟨t', ht', hx⟩⟩
  | cons use uses ih =>
    rw [List.foldlM_cons, Traced.result_bind, Except.bind_eq_ok_iff] at h
    obtain ⟨mid, hmid, h⟩ := h
    obtain ⟨u, hu, huses, hpass, hattached⟩ := addUse_ok hmid
    obtain ⟨us, hus, huses', hpass', hattached'⟩ := ih h
    refine ⟨u :: us, .cons hu hus, by rw [huses', huses]; simp, hpass'.trans hpass, ?_⟩
    intro t' ht' x hx
    rcases hattached' t' ht' x hx with ⟨t, ht, hx⟩ | hx
    · rcases hattached t ht x hx with hx | hx
      · exact .inl hx
      · exact .inr (hx.mono (by simp))
    · exact .inr (hx.mono fun v hv => List.mem_cons_of_mem _ hv)

/-- What an accepted pass declares. Its attachments, where it is a render pass, are images that it
uses. -/
theorem passUses_ok {index : Nat} {r : PassUses}
    (h : (passUses f shaders index pass).result = .ok r) :
    List.Forall₂ (Declares f shaders pass) pass.uses r.uses ∧
      (pass.kind = .render ↔ r.target.isSome = true) ∧
      ∀ t ∈ r.target, t.pass = index ∧ ∀ x ∈ t.attachments, IsAttached f r.uses x := by
  obtain ⟨us, hus, huses, hpass, hattached⟩ := foldlM_addUse_ok h
  simp only [List.nil_append] at huses
  rw [huses]
  by_cases hkind : pass.kind = .render
  · simp only [hkind, ↓reduceIte, Option.map_some] at hpass hattached
    refine ⟨hus, ?_, fun t ht => ⟨?_, fun x hx => ?_⟩⟩
    · cases htarget : r.target <;> simp_all
    · rw [Option.mem_def.1 ht] at hpass
      simpa using hpass
    · rcases hattached t ht x hx with ⟨t', ht', hx⟩ | hx
      · obtain rfl := Option.some.inj ht'
        cases hx
      · exact hx
  · simp only [hkind, ↓reduceIte, Option.map_none, Option.map_eq_none_iff] at hpass
    refine ⟨hus, ?_, ?_⟩
    · simp [hkind, hpass]
    · simp [hpass]

end

/-! ## The uses of a frame -/

/-- The passes of an accepted frame, each with what it declares. -/
theorem frameUses_ok {f : Forest} {shaders : Registry} {passes : List Pass} {uses : List PassUses}
    (h : (frameUses f shaders passes).result = .ok uses) :
    uses.length = passes.length ∧ ∀ i pass, passes[i]? = some pass →
      ∃ r, uses[i]? = some r ∧ (passUses f shaders i pass).result = .ok r := by
  unfold frameUses at h
  rw [Traced.result_mapM, mapM_eq_ok_iff] at h
  refine ⟨by simpa using h.length_eq.symm, fun i pass hpass => ?_⟩
  have hi : passes.zipIdx[i]? = some (pass, i) := by simp [List.getElem?_zipIdx, hpass]
  exact forall₂_getElem? h hi

theorem exists_pass_of_getElem? {f : Forest} {shaders : Registry} {passes : List Pass}
    {uses : List PassUses} (h : (frameUses f shaders passes).result = .ok uses) {i : Nat}
    {r : PassUses} (hr : uses[i]? = some r) :
    ∃ pass, passes[i]? = some pass ∧ (passUses f shaders i pass).result = .ok r := by
  obtain ⟨hlen, hpasses⟩ := frameUses_ok h
  obtain ⟨hi, -⟩ := List.getElem?_eq_some_iff.1 hr
  obtain ⟨r', hr', hpass⟩ := hpasses i _ (List.getElem?_eq_getElem (hlen ▸ hi))
  rw [hr] at hr'
  obtain rfl := Option.some.inj hr'
  exact ⟨_, List.getElem?_eq_getElem _, hpass⟩

theorem analyze_ok_iff {f f' : Forest} {shaders : Registry} {passes : List Pass} {a : Analysis} :
    (analyze passes f shaders).result = .ok (a, f') ↔ ∃ uses,
      (frameUses f shaders passes).result = .ok uses ∧ a = Analysis.ofUses f uses ∧
        f' = f.carry a.timelines := by
  simp only [analyze, Traced.result_bind, Except.bind_eq_ok_iff]
  constructor
  · rintro ⟨uses, huses, h⟩
    cases h
    exact ⟨uses, huses, rfl, rfl⟩
  · rintro ⟨uses, huses, rfl, rfl⟩
    exact ⟨uses, huses, rfl⟩

end FrameGraph
