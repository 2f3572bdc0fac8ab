import FrameGraph.Device.Headless
import FrameGraph.Proofs.Carried
import FrameGraph.Proofs.Retained

/-!
# The steady state

A frame that is repeated changes nothing any more: the first time it may find the resources in any
states, but from the second time on it finds them in the states in which it leaves them. So every
later repetition has the same barriers, timelines and attachments (`repeats_same`), also with
operations in between that neither release objects nor acquire other images.

The reason is that joining goes by a key: a state joins the states of its own key and keeps it
(`Move.Keyed`). Where all entries of a timeline have one key, the last state has taken in all of
them, and taking them in once more adds nothing; where they have not, some entry is moved into from
whatever state came before, and so the last state does not depend on the first
(`Move.Keyed.along_idem`).
-/

set_option autoImplicit false

namespace FrameGraph

/-! ## States -/

namespace AccessState

/-- Whether all that `t` touches is part of `s`. -/
def Absorbs (s t : AccessState) : Prop := s.mergeRead t = s

theorem absorbs_mergeRead (s t : AccessState) : (s.mergeRead t).Absorbs t := by
  simp only [Absorbs, mergeRead, Mask.union_assoc, Mask.union_self]

theorem Absorbs.mergeRead {s t : AccessState} (h : s.Absorbs t) (u : AccessState) :
    (s.mergeRead u).Absorbs t := by
  have hstage : s.stage ∪ t.stage = s.stage := congrArg stage h
  have haccess : s.access ∪ t.access = s.access := congrArg access h
  simp only [Absorbs, AccessState.mergeRead]
  rw [Mask.union_assoc, Mask.union_comm u.stage, ← Mask.union_assoc, hstage,
    Mask.union_assoc, Mask.union_comm u.access, ← Mask.union_assoc, haccess]

end AccessState

/-! ## Runs of one key -/

namespace Move

/-- Whether a state joins exactly those with its own key, and keeps the key. -/
structure Keyed {κ : Type} (joins : AccessState → AccessState → Bool)
    (key : AccessState → Option κ) : Prop where
  joins_iff : ∀ s t, joins s t = true ↔ ∃ k, key s = some k ∧ key t = some k
  merge : ∀ s t k, key s = some k → key t = some k → key (s.mergeRead t) = some k

/-- Buffers join as long as nothing is written. -/
theorem buffersJoin_keyed :
    Keyed buffersJoin fun s => if s.isReadOnly = true then some () else none where
  joins_iff s t := by simp [buffersJoin]
  merge s t k hs ht := by
    simp only [Option.ite_none_right_eq_some, AccessState.isReadOnly, Bool.not_eq_true'] at hs ht ⊢
    refine ⟨?_, hs.2⟩
    rw [AccessState.isWrite_mergeRead, hs.1, ht.1]
    rfl

/-- Images join while access and layout stay the same. -/
theorem imagesJoin_keyed : Keyed imagesJoin fun s => some (s.access, s.layout) where
  joins_iff s t := by
    rw [imagesJoin_iff]
    constructor
    · rintro ⟨haccess, hlayout⟩
      exact ⟨_, rfl, by rw [haccess, hlayout]⟩
    · rintro ⟨k, hs, ht⟩
      have hkey := Option.some.inj (hs.trans ht.symm)
      exact ⟨congrArg Prod.fst hkey, congrArg Prod.snd hkey⟩
  merge s t k hs ht := by
    have hkey := Option.some.inj (hs.trans ht.symm)
    have haccess : s.access = t.access := congrArg Prod.fst hkey
    rw [← hs]
    simp only [AccessState.mergeRead, haccess, Mask.union_self]

section
variable {κ : Type} {joins : AccessState → AccessState → Bool} {key : AccessState → Option κ}
  {s t : AccessState} {k : κ} {es : List TimelineEntry} (hkey : Keyed joins key)
include hkey

/-- A run takes in all of its entries. -/
theorem Keyed.run (hs : key s = some k) (hes : ∀ e ∈ es, key e.state = some k) :
    key (along joins s es).2 = some k ∧
      (∀ t, s.Absorbs t → (along joins s es).2.Absorbs t) ∧
      ∀ e ∈ es, (along joins s es).2.Absorbs e.state := by
  induction es generalizing s with
  | nil => exact ⟨hs, fun _ => id, by simp⟩
  | cons e es ih =>
    obtain ⟨he, hes⟩ := List.forall_mem_cons.1 hes
    have hjoins : joins s e.state = true := (hkey.joins_iff s e.state).2 ⟨k, hs, he⟩
    rw [along_joined hjoins]
    obtain ⟨hlast, hkeeps, htakes⟩ := ih (hkey.merge s e.state k hs he) hes
    refine ⟨hlast, fun t ht => hkeeps t (ht.mergeRead e.state), ?_⟩
    exact List.forall_mem_cons.2 ⟨hkeeps _ (AccessState.absorbs_mergeRead s e.state), htakes⟩

/-- What a state has taken in before adds nothing to it. -/
theorem Keyed.last_of_absorbs (hs : key s = some k) (hes : ∀ e ∈ es, key e.state = some k)
    (habsorbs : ∀ e ∈ es, s.Absorbs e.state) : (along joins s es).2 = s := by
  induction es with
  | nil => rfl
  | cons e es ih =>
    obtain ⟨he, hes⟩ := List.forall_mem_cons.1 hes
    obtain ⟨hadds, habsorbs⟩ := List.forall_mem_cons.1 habsorbs
    have hsame : s.mergeRead e.state = s := hadds
    rw [along_joined ((hkey.joins_iff s e.state).2 ⟨k, hs, he⟩), hsame]
    exact ih hes habsorbs

/-- From two states of one key, either all entries join or both ways end in the same state. -/
theorem Keyed.run_or_same (hs : key s = some k) (ht : key t = some k) (es : List TimelineEntry) :
    (∀ e ∈ es, key e.state = some k) ∨ (along joins s es).2 = (along joins t es).2 := by
  induction es generalizing s t with
  | nil => exact .inl (by simp)
  | cons e es ih =>
    by_cases he : key e.state = some k
    · have hjoins (u : AccessState) (hu : key u = some k) : joins u e.state = true :=
        (hkey.joins_iff u e.state).2 ⟨k, hu, he⟩
      rw [along_joined (hjoins s hs), along_joined (hjoins t ht)]
      rcases ih (hkey.merge s e.state k hs he) (hkey.merge t e.state k ht he) with hes | hsame
      · exact .inl (List.forall_mem_cons.2 ⟨he, hes⟩)
      · exact .inr hsame
    · have hmoved (u : AccessState) (hu : key u = some k) : joins u e.state = false := by
        rw [Bool.eq_false_iff]
        intro hjoins
        obtain ⟨k', hk', hek⟩ := (hkey.joins_iff u e.state).1 hjoins
        rw [hu] at hk'
        exact he (hek.trans hk'.symm)
      rw [along_moved (hmoved s hs), along_moved (hmoved t ht)]
      exact .inr rfl

/-- After its first entry, a timeline goes on from a state of that entry's key. -/
theorem Keyed.exists_first {e : TimelineEntry} (he : key e.state = some k) (s : AccessState)
    (es : List TimelineEntry) :
    ∃ u, key u = some k ∧ u.Absorbs e.state ∧
      (along joins s (e :: es)).2 = (along joins u es).2 := by
  cases hjoins : joins s e.state with
  | true =>
    obtain ⟨k', hs, hek⟩ := (hkey.joins_iff s e.state).1 hjoins
    rw [he] at hek
    obtain rfl := Option.some.inj hek
    refine ⟨s.mergeRead e.state, hkey.merge s e.state k hs he,
      AccessState.absorbs_mergeRead s e.state, ?_⟩
    rw [along_joined hjoins]
  | false =>
    refine ⟨e.state, he, ?_, ?_⟩
    · simp only [AccessState.Absorbs, AccessState.mergeRead, Mask.union_self]
    · rw [along_moved hjoins]

/-- **The last state of a timeline is found again** when the timeline starts from it. -/
theorem Keyed.along_idem (s : AccessState) (es : List TimelineEntry) :
    (along joins (along joins s es).2 es).2 = (along joins s es).2 := by
  cases es with
  | nil => rfl
  | cons e es =>
    cases he : key e.state with
    | none =>
      have hmoved (u : AccessState) : joins u e.state = false := by
        rw [Bool.eq_false_iff]
        intro hjoins
        obtain ⟨k, -, hek⟩ := (hkey.joins_iff u e.state).1 hjoins
        rw [he] at hek
        cases hek
      rw [along_moved (hmoved s), along_moved (hmoved _)]
    | some k =>
      obtain ⟨u, hu, hadds, hlast⟩ := hkey.exists_first he s es
      obtain ⟨v, hv, -, hlast'⟩ := hkey.exists_first he (along joins s (e :: es)).2 es
      rcases hkey.run_or_same hv hu es with hes | hsame
      · obtain ⟨hend, hkeeps, htakes⟩ := hkey.run hu hes
        rw [← hlast] at hend hkeeps htakes
        exact hkey.last_of_absorbs hend (List.forall_mem_cons.2 ⟨he, hes⟩)
          (List.forall_mem_cons.2 ⟨hkeeps _ hadds, htakes⟩)
      · rw [hlast', hsame, hlast]

end

end Move

/-- However the accesses to a node are joined, its last state is found again. -/
theorem Node.along_idem (n : Node) (s : AccessState) (es : List TimelineEntry) :
    (Move.along n.joins (Move.along n.joins s es).2 es).2 = (Move.along n.joins s es).2 := by
  unfold joins
  cases n.payload with
  | buffer desc handle => exact Move.buffersJoin_keyed.along_idem s es
  | bufferView desc origin handle => exact Move.imagesJoin_keyed.along_idem s es
  | image desc handle external => exact Move.imagesJoin_keyed.along_idem s es
  | imageView desc origin handle => exact Move.imagesJoin_keyed.along_idem s es
  | swapchain source acquired => exact Move.imagesJoin_keyed.along_idem s es

/-! ## Nodes that a frame leaves as it finds them -/

namespace Timeline

/-- **A frame leaves a node in the same state the second time.** -/
theorem left_after (i : Nat) (n : Node) (frame : List (List NodeUse)) :
    (ofNode i (ofNode i n frame).after frame).left = (ofNode i n frame).left := by
  have hpayload : (ofNode i n frame).after.payload = n.payload := rfl
  have hentries : (ofNode i (ofNode i n frame).after frame).entries = (ofNode i n frame).entries :=
    entriesFrom_congr hpayload i 0 frame
  by_cases hidle : (ofNode i n frame).node.residency = .dontCare ∨ (ofNode i n frame).entries = []
  · have hidle' : (ofNode i (ofNode i n frame).after frame).node.residency = .dontCare ∨
        (ofNode i (ofNode i n frame).after frame).entries = [] := by
      rw [hentries]
      exact hidle
    exact left_of_idle hidle'
  · obtain ⟨hres, hused⟩ := not_or.1 hidle
    have hres' : (ofNode i (ofNode i n frame).after frame).node.residency ≠ .dontCare := hres
    have hused' : (ofNode i (ofNode i n frame).after frame).entries ≠ [] := by
      rw [hentries]
      exact hused
    have hleft := left_of_used hres hused
    rw [left_of_used hres' hused', hleft]
    by_cases hshown : (ofNode i n frame).isShown = true
    · have hshown' : (ofNode i (ofNode i n frame).after frame).isShown = true := hshown
      rw [finish, finish, if_pos hshown, if_pos hshown']
    · have hshown' : ¬ (ofNode i (ofNode i n frame).after frame).isShown = true := hshown
      have hend : (ofNode i n frame).left = (ofNode i n frame).reduction.2 := by
        rw [hleft, finish, if_neg hshown]
      have hstart : (ofNode i (ofNode i n frame).after frame).start =
          (ofNode i n frame).reduction.2 := by
        rw [← hend]
        exact if_neg hres
      rw [finish, finish, if_neg hshown, if_neg hshown', reduction_eq, hstart, hentries,
        reduction_eq]
      exact n.along_idem _ _

end Timeline

/-- Whether a frame leaves every node in the state in which it finds it. -/
def Forest.Settled (f : Forest) (frame : List (List NodeUse)) : Prop :=
  ∀ (i : Nat) n, f.nodes[i]? = some n → (Timeline.ofNode i n frame).left = n.current

namespace Forest

/-- Any resources settle in one frame. -/
theorem settled_carry (f : Forest) (frame : List (List NodeUse)) :
    (f.carry (Timeline.ofFrame f.nodes frame)).Settled frame := by
  intro i n' hn'
  rw [nodes_carry_ofFrame] at hn'
  obtain ⟨n, -, rfl⟩ := Option.map_eq_some_iff.1 hn'
  exact Timeline.left_after i n frame

theorem Settled.carry_eq {f : Forest} {frame : List (List NodeUse)} (h : f.Settled frame) :
    f.carry (Timeline.ofFrame f.nodes frame) = f := by
  have hnodes : (f.carry (Timeline.ofFrame f.nodes frame)).nodes = f.nodes := by
    refine List.ext_getElem? fun i => ?_
    rw [nodes_carry_ofFrame]
    cases hn : f.nodes[i]? with
    | none => rfl
    | some n =>
      have hsame : (Timeline.ofNode i n frame).after = n := by
        unfold Timeline.after
        rw [h i n hn]
        rfl
      rw [Option.map_some, hsame]
  exact congrArg₂ Forest.mk hnodes (life_carry f _)

end Forest

/-! ## Nodes that are preserved -/

/-- Whether a node is the same resource as before, with the object and in the state that it had. -/
structure Node.Preserved (n n' : Node) : Prop extends Node.Retained n n' where
  current : n.isBacked = true → n'.current = n.current

/-- A node that had an object may have been mounted again meanwhile, and that is all. -/
theorem Node.Preserved.eq {n n' : Node} (h : n.Preserved n') (hb : n.isBacked = true) :
    n' = { n with life := n'.life } := by
  cases n
  cases n'
  obtain ⟨⟨⟨rfl, rfl, rfl, -⟩, hpayload⟩, hcurrent⟩ := h
  obtain rfl := hpayload hb
  obtain rfl := hcurrent hb
  rfl

/-- Whether every node of `f` is preserved in `g`. -/
def Forest.Preserves (f g : Forest) : Prop :=
  ∀ (i : Nat) n, f.nodes[i]? = some n → ∃ n', g.nodes[i]? = some n' ∧ n.Preserved n'

theorem Forest.Preserves.retains {f g : Forest} (h : f.Preserves g) : f.Retains g := by
  intro i n hn
  obtain ⟨n', hn', hp⟩ := h i n hn
  exact ⟨n', hn', hp.toRetained⟩

/-- The node without the time of the last mount. -/
def Node.ageless (n : Node) : Node := { n with life := 0 }

/-- The timeline without the time of the last mount. -/
def Timeline.ageless (t : Timeline) : Timeline := t.mapNode Node.ageless

section
variable {f g : Forest} {frame : List (List NodeUse)} (h : f.Preserves g)
  (hbacked : ∀ i ∈ Timeline.touched frame, ∃ n, f.nodes[i]? = some n ∧ n.isBacked = true)
include h hbacked

/-- The nodes that a frame touches are as before, but for the time of the last mount. -/
theorem exists_preserved {i : Nat} (hi : i ∈ Timeline.touched frame) :
    ∃ n life, f.nodes[i]? = some n ∧ g.nodes[i]? = some { n with life } := by
  obtain ⟨n, hn, hb⟩ := hbacked i hi
  obtain ⟨n', hn', hp⟩ := h i n hn
  rw [hp.eq hb] at hn'
  exact ⟨n, n'.life, hn, hn'⟩

theorem map_ageless_ofFrame : (Timeline.ofFrame g.nodes frame).map (·.ageless) =
    (Timeline.ofFrame f.nodes frame).map (·.ageless) := by
  refine map_mapNode_ofFrame (φ := Node.ageless) fun i hi => ?_
  obtain ⟨n, life, hn, hn'⟩ := exists_preserved h hbacked hi
  exact ⟨n, { n with life }, hn, hn', rfl, rfl⟩

/-- Preserved resources stay settled, whatever has been added. -/
theorem Forest.Settled.of_preserves (hf : f.Settled frame) : g.Settled frame := by
  intro i n' hn'
  by_cases hi : i ∈ Timeline.touched frame
  · obtain ⟨n, life, hn, hn''⟩ := exists_preserved h hbacked hi
    rw [hn'] at hn''
    obtain rfl := Option.some.inj hn''
    have hpayload : ({ n with life } : Node).payload = n.payload := rfl
    have hsame : (Timeline.ofNode i { n with life } frame).left =
        (Timeline.ofNode i n frame).left := by
      unfold Timeline.ofNode
      rw [Timeline.entriesFrom_congr hpayload]
      rfl
    rw [hsame]
    exact hf i n hn
  · have hempty : (Timeline.ofNode i n' frame).entries = [] := by
      rw [Timeline.mem_touched_iff (n := n')] at hi
      exact Classical.not_not.1 hi
    exact Timeline.left_of_idle (.inr hempty)

end

/-! ## Analyses that agree -/

/-- Whether two analyses agree on all that is done with them. -/
structure Analysis.Same (a b : Analysis) : Prop where
  barriers : a.barriers = b.barriers
  endOfFrame : a.endOfFrame = b.endOfFrame
  targets : a.targets = b.targets
  timelines : a.timelines.map (fun t => (t.node.name, t.entries)) =
    b.timelines.map fun t => (t.node.name, t.entries)

section
variable (ts : List Timeline)

theorem before_map_ageless (p : Nat) :
    TransitionBatch.before p (ts.map (·.ageless)) = .before p ts := by
  unfold TransitionBatch.before
  rw [List.flatMap_map, List.flatMap_map]
  rfl

theorem atEnd_map_ageless : TransitionBatch.atEnd (ts.map (·.ageless)) = .atEnd ts := by
  unfold TransitionBatch.atEnd
  rw [List.filter_map, List.filterMap_map]
  rfl

end

/-- When resources were mounted does not matter to an analysis. -/
theorem Analysis.same_ofUses {f g : Forest} {uses : List PassUses}
    (h : (ofUses g uses).timelines.map (·.ageless) = (ofUses f uses).timelines.map (·.ageless)) :
    (ofUses g uses).Same (ofUses f uses) where
  barriers := by
    show (List.range uses.length).map (TransitionBatch.before · (ofUses g uses).timelines) =
      (List.range uses.length).map (TransitionBatch.before · (ofUses f uses).timelines)
    refine List.map_congr_left fun p _ => ?_
    rw [← before_map_ageless, h, before_map_ageless]
  endOfFrame := by
    show TransitionBatch.atEnd (ofUses g uses).timelines = .atEnd (ofUses f uses).timelines
    rw [← atEnd_map_ageless, h, atEnd_map_ageless]
  targets := targets_ofUses (φ := Node.ageless) (fun _ => rfl) h
  timelines := by
    have hview (ts : List Timeline) : ts.map (fun t => (t.node.name, t.entries)) =
        (ts.map (·.ageless)).map fun t => (t.node.name, t.entries) := by
      rw [List.map_map]
      rfl
    rw [hview, h, ← hview]

/-! ## Repeating a frame -/

/-- Whether every object of `f` is still there in `g`, and every swapchain has the same image
acquired. -/
def Forest.KeepsObjects (f g : Forest) : Prop :=
  ∀ (i : Nat) n, f.nodes[i]? = some n → n.isBacked = true →
    ∃ n', g.nodes[i]? = some n' ∧ n'.payload = n.payload

instance (f g : Forest) : Decidable (f.KeepsObjects g) :=
  decidable_of_iff (∀ x ∈ f.nodes.zipIdx, x.1.isBacked = true →
      (g.nodes[x.2]?).map (·.payload) = some x.1.payload) <| by
    constructor
    · intro hall i n hn hb
      exact Option.map_eq_some_iff.1 (hall (n, i) (List.mk_mem_zipIdx_iff_getElem?.2 hn) hb)
    · rintro hkeeps ⟨n, i⟩ hx hb
      exact Option.map_eq_some_iff.2 (hkeeps i n (List.mk_mem_zipIdx_iff_getElem?.1 hx) hb)

section
variable {δ : Type} [Device δ]

/-- What repeating a frame leads to from a start, with operations in between that release nothing
and acquire no other image. -/
inductive Repeats (passes : List Pass) (shaders : Registry) (start : Forest × δ) :
    Forest × δ → Prop
  | start : Repeats passes shaders start start
  | operate {f f' : Forest} {d d' : δ} {o : Operation} (hr : Repeats passes shaders start (f, d))
      (ho : o.run f d = .ok (f', d')) (hkeeps : f.KeepsObjects f') :
      Repeats passes shaders start (f', d')
  | frame {f f' : Forest} {d : δ} {a : Analysis} (hr : Repeats passes shaders start (f, d))
      (ha : (analyze passes f shaders).result = .ok (a, f')) :
      Repeats passes shaders start (f', d)

variable {passes : List Pass} {shaders : Registry} {f f' f₁ : Forest} {d d' : δ} {a : Analysis}

/-- Operations that keep the objects preserve every node. -/
theorem Forest.Preserves.operate {o : Operation} (h : f₁.Preserves f)
    (ho : o.run f d = .ok (f', d')) (hkeeps : f.KeepsObjects f') : f₁.Preserves f' := by
  intro i n hn
  obtain ⟨n', hn', hp⟩ := h i n hn
  obtain ⟨n'', hn'', hsame, hcurrent⟩ := Operation.exists_node ho hn'
  have hpayload : n'.isBacked = true → n''.payload = n'.payload := by
    intro hb
    obtain ⟨m, hm, hpayload⟩ := hkeeps i n' hn' hb
    rw [hn''] at hm
    obtain rfl := Option.some.inj hm
    exact hpayload
  refine ⟨n'', hn'', hp.toRetained.trans ⟨hsame, hpayload⟩, fun hb => ?_⟩
  have hb' : n'.isBacked = true := hp.toRetained.isBacked hb
  -- its object is still there, so the state was not forgotten
  have hkept : n''.current = n'.current := by
    refine hcurrent.resolve_right fun hnot => ?_
    rw [Node.isBacked, hpayload hb'] at hnot
    exact Bool.false_ne_true (hnot.symm.trans hb')
  exact hkept.trans (hp.current hb)

/-- **A repeated frame changes nothing any more.** Analysed once, a frame leaves the resources in
states that each repetition finds and leaves again, with one and the same result. -/
theorem repeats_same (hf : f.WellFormed) (h : (analyze passes f shaders).result = .ok (a, f₁))
    (d : δ) : ∃ b, (analyze passes f₁ shaders).result = .ok (b, f₁) ∧
      ∀ s, Repeats passes shaders (f₁, d) s →
        ∃ c, (analyze passes s.1 shaders).result = .ok (c, s.1) ∧ c.Same b := by
  have hf₁ := wellFormed_of_frame h hf
  obtain ⟨uses, huses, rfl, rfl⟩ := analyze_ok_iff.1 h
  have hretains := f.retains_carry (Analysis.ofUses f uses).timelines
  have hsettled : (f.carry (Analysis.ofUses f uses).timelines).Settled (uses.map (·.uses)) :=
    f.settled_carry _
  generalize f.carry (Analysis.ofUses f uses).timelines = f₁ at hf₁ hretains hsettled
  have huses₁ := frameUses_of_retains hretains hf huses
  have hbacked (i : Nat) := exists_node_of_touched (i := i) huses₁
  have hagain (g : Forest) (hg : f₁.Preserves g) :
      (analyze passes g shaders).result = .ok (Analysis.ofUses g uses, g) := by
    have hcarry := (hsettled.of_preserves hg hbacked).carry_eq
    exact analyze_ok_iff.2 ⟨uses, frameUses_of_retains hg.retains hf₁ huses₁, rfl, hcarry.symm⟩
  have hrefl : f₁.Preserves f₁ := fun i n hn => ⟨n, hn, .refl n, fun _ => rfl⟩
  refine ⟨Analysis.ofUses f₁ uses, hagain f₁ hrefl, fun s hs => ?_⟩
  have hpreserves : f₁.Preserves s.1 := by
    induction hs with
    | start => exact hrefl
    | operate _ ho hkeeps ih => exact ih.operate ho hkeeps
    | frame _ ha ih =>
      rw [hagain _ ih] at ha
      obtain ⟨-, rfl⟩ := Prod.mk.inj (Except.ok.inj ha)
      exact ih
  exact ⟨Analysis.ofUses s.1 uses, hagain s.1 hpreserves,
    Analysis.same_ofUses (map_ageless_ofFrame hpreserves hbacked)⟩

end

/-! ### A counter shown in a window -/

namespace Ticker

def source : SwapchainImport := ⟨[⟨1⟩], .b8g8r8a8Unorm, ⟨4, 4⟩⟩

def forest : Forest where
  nodes := [
    { name := "window", residency := .swapchain, payload := .swapchain source 0 },
    { name := "window/0"
      residency := .swapchain
      payload := .image source.imageDesc (some ⟨1⟩) true
      parent := some 0 },
    { name := "window/0/window/0"
      residency := .swapchain
      payload := .imageView source.imageDesc.defaultView "window/0" (some ⟨2⟩)
      parent := some 1 },
    { name := "counter", residency := .transient, payload := .buffer (.uniform 16) (some ⟨3⟩) }]

def passes : List Pass :=
  [⟨"count", .compute none, [.bound "counter" "N" .readWrite]⟩,
   ⟨"show", .copy, Use.copy "counter" "window"⟩]

def uses : List PassUses :=
  [⟨[⟨3, .computeShader, AccessMask.shaderRead ∪ AccessMask.shaderWrite⟩], none⟩,
   ⟨[⟨3, .transfer, .transferRead⟩, ⟨1, .transfer, .transferWrite⟩], none⟩]

/-- The resources after the first frame. -/
def shown : Forest := forest.carry (Analysis.ofUses forest uses).timelines

/-- The resources when the window has been mounted again. -/
def remounted : Forest where
  nodes := shown.nodes.mapIdx fun i n => if i = 3 then n else { n with life := 1 }
  life := 1

theorem analyze_forest : (analyze passes forest {}).result =
    .ok (Analysis.ofUses forest uses, shown) := rfl

theorem repeats_remounted : Repeats passes {} (shown, ({} : Headless)) (remounted, {}) :=
  .operate (o := .mount "window") (.frame .start
    (show (analyze passes shown {}).result = .ok (Analysis.ofUses shown uses, shown) from rfl))
    rfl (by decide)

end Ticker

theorem repeats_same_ticker : ∃ b c,
    (analyze Ticker.passes Ticker.shown {}).result = .ok (b, Ticker.shown) ∧
    (analyze Ticker.passes Ticker.remounted {}).result = .ok (c, Ticker.remounted) ∧ c.Same b := by
  obtain ⟨b, hb, hall⟩ := repeats_same (by decide) Ticker.analyze_forest ({} : Headless)
  obtain ⟨c, hc, hsame⟩ := hall _ Ticker.repeats_remounted
  exact ⟨b, c, hb, hc, hsame⟩

end FrameGraph
