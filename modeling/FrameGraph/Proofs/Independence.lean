import FrameGraph.Proofs.Records

/-!
# What a resource does not depend on

What a frame does to a node depends on what each pass declares of that node, and on nothing else:
not on the order of the declarations, nor on how often one is repeated, nor on the declarations of
other nodes, nor on the names of the passes (`agreesOn_of_alike`).
-/

set_option autoImplicit false

namespace FrameGraph

/-! ## The name of a pass -/

namespace Usage

variable {pass : String} {use : Use} {n : Node} {u : Usage}

theorem ofOutput_rename (h : ofOutput pass use = .ok u) (pass' : String) :
    ofOutput pass' use = .ok u := by
  unfold ofOutput at h ⊢
  dsimp only at h ⊢
  split at h
  · next hdepth =>
    rw [if_pos hdepth]
    split at h <;> simp_all
  · next hdepth =>
    rw [if_neg hdepth]
    split at h
    · split at h <;> simp_all
    · cases h

theorem ofIndirect_rename (h : ofIndirect pass use n = .ok u) (pass' : String) :
    ofIndirect pass' use n = .ok u := by
  unfold ofIndirect at h ⊢
  split at h
  · cases h
  · next hreads =>
    rw [if_neg hreads]
    exact h

theorem ofAttachment_rename (h : ofAttachment pass use n = .ok u) (pass' : String) :
    ofAttachment pass' use n = .ok u := by
  unfold ofAttachment at h ⊢
  split at h
  · cases h
  · split at h
    · cases h
    · next hformat =>
      rw [if_neg hformat]
      by_cases hout : use.isOutput = true
      · rw [if_pos hout] at h ⊢
        exact ofOutput_rename h pass'
      · rw [if_neg hout] at h ⊢
        split at h
        · split at h <;> simp_all
        · cases h
        · simp_all

theorem findBinding_rename {shader : Shader} {b : ShaderBinding}
    (h : findBinding pass use shader = .ok b) (pass' : String) :
    findBinding pass' use shader = .ok b := by
  unfold findBinding at h ⊢
  split at h
  · exact h
  · cases h

theorem ofDraw_rename {shader : Shader} (h : (ofDraw pass use n shader).result = .ok u)
    (pass' : String) : (ofDraw pass' use n shader).result = .ok u := by
  unfold ofDraw at h ⊢
  split at h
  · next hkind =>
    rw [if_pos hkind]
    exact ofIndirect_rename h pass'
  · next hkind =>
    rw [if_neg hkind]
    simp only [Traced.result_bind, Traced.result_ofExcept, Except.bind_eq_ok_iff] at h ⊢
    obtain ⟨b, hb, h⟩ := h
    exact ⟨b, findBinding_rename hb pass', h⟩

theorem ofCompute_rename {shader : Option Shader} (h : ofCompute pass use n shader = .ok u)
    (pass' : String) : ofCompute pass' use n shader = .ok u := by
  unfold ofCompute at h ⊢
  split at h
  · next hkind =>
    rw [if_pos hkind]
    exact ofIndirect_rename h pass'
  · next hkind =>
    rw [if_neg hkind]
    cases shader with
    | none => exact h
    | some shader =>
      obtain ⟨b, hb, h⟩ := Except.bind_eq_ok_iff.1 h
      exact Except.bind_eq_ok_iff.2 ⟨b, findBinding_rename hb pass', h⟩

/-- **What a use comes to depends on the pass by its kind alone**: the name is for messages. -/
theorem classify_rename {shaders : Registry} {pass pass' : Pass}
    (h : (classify shaders pass use n).result = .ok u) (hkind : pass'.kind = pass.kind) :
    (classify shaders pass' use n).result = .ok u := by
  unfold classify at h ⊢
  rw [hkind]
  split at h
  · exact ofAttachment_rename h pass'.name
  · simp only [Traced.result_bind, Except.bind_eq_ok_iff] at h ⊢
    obtain ⟨shader, hshader, h⟩ := h
    exact ⟨shader, hshader, ofDraw_rename h pass'.name⟩
  · simp only [Traced.result_bind, Except.bind_eq_ok_iff] at h ⊢
    obtain ⟨shader, hshader, h⟩ := h
    exact ⟨shader, hshader, ofCompute_rename h pass'.name⟩
  · exact h

end Usage

/-! ## Two frames that are alike on a node -/

/-- Whether two passes are of one kind and declare the same of the node at a position, in whatever
order and however often. -/
structure Pass.AlikeOn (f : Forest) (i : Nat) (pass pass' : Pass) : Prop where
  kind : pass.kind = pass'.kind
  mem_iff : ∀ use, f.StandsFor i use.resource → (use ∈ pass.uses ↔ use ∈ pass'.uses)

/-- Whether two analyses do the same to the resource of a name. -/
structure Analysis.AgreesOn (a b : Analysis) (name : String) : Prop where
  timeline : a.timeline? name = b.timeline? name
  buckets : a.bucketsOf name = b.bucketsOf name
  endOfFrame : a.endOfFrame.ofResource name = b.endOfFrame.ofResource name

section
variable {f f₁ f₂ : Forest} {shaders : Registry} {i : Nat} {n : Node}

namespace Pass.AlikeOn

variable {pass pass' : Pass}

theorem symm (h : AlikeOn f i pass pass') : AlikeOn f i pass' pass :=
  ⟨h.kind.symm, fun use hstands => (h.mem_iff use hstands).symm⟩

theorem asks (h : AlikeOn f i pass pass') {u : Usage} (hu : pass.Asks f shaders i n u) :
    pass'.Asks f shaders i n u := by
  obtain ⟨use, huse, hstands, hclassify⟩ := hu
  exact ⟨use, (h.mem_iff use hstands).1 huse, hstands,
    Usage.classify_rename hclassify h.kind.symm⟩

theorem usageIn_eq (h : AlikeOn f i pass pass') (hf : f.WellFormed) (hs : f.Seated)
    (hn : f.nodes[i]? = some n) {us us' : List NodeUse} (hus : PassDeclares f shaders pass us)
    (hus' : PassDeclares f shaders pass' us') :
    Timeline.usageIn i us = Timeline.usageIn i us' := by
  refine Timeline.usageIn_congr fun u => ?_
  rw [hus.mem_iff hf hs hn, hus'.mem_iff hf hs hn]
  exact ⟨h.asks, h.symm.asks⟩

/-- Whether passes are alike can be seen by looking up the names that they use. -/
theorem of_tracked (hf : f.WellFormed) (hs : f.Seated) (hkind : pass.kind = pass'.kind)
    (huses : ∀ use ∈ pass.uses ++ pass'.uses,
      (f.tracked use.resource).toOption.map (·.index) = some i →
        use ∈ pass.uses ∧ use ∈ pass'.uses) : AlikeOn f i pass pass' := by
  refine ⟨hkind, fun use hstands => ?_⟩
  have htracked : (f.tracked use.resource).toOption.map (·.index) = some i := by
    obtain ⟨n, hn, -⟩ := hstands.exists_node hs
    rw [hstands.tracked hf hs hn]
    rfl
  constructor
  · intro huse
    exact (huses use (List.mem_append_left _ huse) htracked).2
  · intro huse
    exact (huses use (List.mem_append_right _ huse) htracked).1

end Pass.AlikeOn

variable {first second : List Pass}

/-- Frames that are alike on a node have the same entries for it. -/
theorem entriesFrom_of_alike (hf : f.WellFormed) (hs : f.Seated) (hn : f.nodes[i]? = some n)
    (halike : List.Forall₂ (Pass.AlikeOn f i) first second) {xs ys : List (List NodeUse)}
    (hxs : List.Forall₂ (PassDeclares f shaders) first xs)
    (hys : List.Forall₂ (PassDeclares f shaders) second ys) (k : Nat) :
    Timeline.entriesFrom i n k xs = Timeline.entriesFrom i n k ys := by
  induction halike generalizing xs ys k with
  | nil =>
    cases hxs
    cases hys
    rfl
  | cons hpass _ ih =>
    cases hxs with
    | cons hx hxs =>
      cases hys with
      | cons hy hys =>
        unfold Timeline.entriesFrom
        rw [hpass.usageIn_eq hf hs hn hx hy, ih hxs hys (k + 1)]

/-- Such frames do the same to the node. -/
theorem agreesOn_of_analyze (hf : f.WellFormed) (hs : f.Seated) (hn : f.nodes[i]? = some n)
    (halike : List.Forall₂ (Pass.AlikeOn f i) first second) {a b : Analysis}
    (ha : (analyze first f shaders).result = .ok (a, f₁))
    (hb : (analyze second f shaders).result = .ok (b, f₂)) :
    a.AgreesOn b n.name ∧ f₁.nodes[i]? = f₂.nodes[i]? := by
  obtain ⟨xs, hxs, hats, rfl⟩ := analyze_frame ha
  obtain ⟨ys, hys, hbts, rfl⟩ := analyze_frame hb
  have hnode : Timeline.ofNode i n xs = Timeline.ofNode i n ys :=
    congrArg (Timeline.mk i n) (entriesFrom_of_alike hf hs hn halike hxs hys 0)
  refine ⟨⟨?_, ?_, ?_⟩, ?_⟩
  · rw [timeline?_eq hats hf hn, timeline?_eq hbts hf hn, hnode]
  · rw [bucketsOf_eq ha hats hf hn, bucketsOf_eq hb hbts hf hn, hnode, halike.length_eq]
  · rw [(barriers_eq ha).2, (barriers_eq hb).2, hats, hbts, ofResource_atEnd, ofResource_atEnd,
      filter_name_ofFrame hf hn, filter_name_ofFrame hf hn, hnode]
  · rw [hats, hbts, nodes_carry_ofFrame, nodes_carry_ofFrame, hn, Option.map_some, Option.map_some,
      hnode]

end

open Relation (ReflTransGen)

/-- **What a frame does to a resource depends on the declarations of that resource alone.** The
resource keeps its timeline, its barriers and the state in which it is left, though all timelines
grow together while the declarations are gone through in their order. -/
theorem agreesOn_of_alike {δ : Type} [Device δ] {Aside : ObjectCache × δ → ObjectCache × δ → Prop}
    {d : δ} {s : Session δ} (hrun : ReflTransGen (Session.Step Aside) { device := d } s)
    {first second : List Pass} {shaders : Registry} {a b : Analysis} {f₁ f₂ : Forest}
    (ha : (analyze first s.forest shaders).result = .ok (a, f₁))
    (hb : (analyze second s.forest shaders).result = .ok (b, f₂)) {i : Nat} {n : Node}
    (hn : s.forest.nodes[i]? = some n)
    (halike : List.Forall₂ (Pass.AlikeOn s.forest i) first second) :
    ((pushFrame s.forest shaders first).result = .ok a.timelines ∧
      (pushFrame s.forest shaders second).result = .ok b.timelines) ∧
    a.AgreesOn b n.name ∧ f₁.nodes[i]? = f₂.nodes[i]? :=
  ⟨⟨pushFrame_of_analyze ha, pushFrame_of_analyze hb⟩,
    agreesOn_of_analyze (Session.wellFormed_kept hrun .empty) (Session.seated_kept hrun .empty) hn
      halike ha hb⟩

/-! ### The canvas among other declarations -/

namespace Gallery

/-- The canvas is declared as before, in another order and twice; the window is cleared and shown by
other declarations. -/
def revised : List Pass :=
  [⟨"draft", .copy, Use.copy "window/0" "canvas" ++ Use.copy "canvas/canvas" "window/0/window/0" ++
      Use.copy "window" "canvas"⟩,
   ⟨"clear", .copy, [.bound "window" "" .write, .bound "canvas" "" .read]⟩]

theorem accepted : ∃ r, (analyze passes session.forest {}).result = .ok r := ⟨_, rfl⟩

theorem revised_accepted : ∃ r, (analyze revised session.forest {}).result = .ok r := ⟨_, rfl⟩

theorem alike : List.Forall₂ (Pass.AlikeOn session.forest 3) passes revised := by
  have hf := Session.wellFormed_kept steps .empty
  have hs := Session.seated_kept steps .empty
  exact .cons (.of_tracked hf hs rfl (by decide)) (.cons (.of_tracked hf hs rfl (by decide)) .nil)

end Gallery

theorem agreesOn_of_alike_gallery : ∃ a b f₁ f₂,
    (analyze Gallery.passes Gallery.session.forest {}).result = .ok (a, f₁) ∧
    (analyze Gallery.revised Gallery.session.forest {}).result = .ok (b, f₂) ∧
    ((pushFrame Gallery.session.forest {} Gallery.passes).result = .ok a.timelines ∧
      (pushFrame Gallery.session.forest {} Gallery.revised).result = .ok b.timelines) ∧
    a.AgreesOn b "canvas" ∧ f₁.nodes[3]? = f₂.nodes[3]? := by
  obtain ⟨⟨a, f₁⟩, ha⟩ := Gallery.accepted
  obtain ⟨⟨b, f₂⟩, hb⟩ := Gallery.revised_accepted
  exact ⟨a, b, f₁, f₂, ha, hb, agreesOn_of_alike Gallery.steps ha hb rfl Gallery.alike⟩

end FrameGraph
