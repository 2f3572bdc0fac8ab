import FrameGraph.Device.Headless
import FrameGraph.Proofs.Hazards
import FrameGraph.Proofs.Operations
import Mathlib.Data.List.Chain

/-!
# Writes to a buffer wait for everything before them

A run is any number of frames with operations between them. While a buffer stays mounted, the state
that it carries tells of every access to it so far: either that state itself waits for the access,
or a chain of barriers leads from the access to the state (`Leads`). Joining a reader and passing a
barrier keep this (`Leads.along`), and so do the hand-over to the next frame and the operations
between frames (`StaysMounted.leads`). A write is never joined, so it ends its chain with a barrier
of its own: `exists_chain_into_write`.
-/

set_option autoImplicit false

namespace FrameGraph

theorem Mask.subset_trans {κ : Vocabulary} {a b c : Mask κ} (hab : a ⊆ b) (hbc : b ⊆ c) : a ⊆ c :=
  Mask.subset_iff.2 fun i hi => Mask.subset_iff.1 hbc i (Mask.subset_iff.1 hab i hi)

/-- Whether a barrier out of `s` waits for `x` and shows what it wrote. -/
structure AccessState.WaitsFor (s x : AccessState) : Prop where
  stage : x.stage ⊆ s.stage
  srcAccess : x.srcAccess ⊆ s.srcAccess

namespace AccessState

theorem WaitsFor.refl (s : AccessState) : s.WaitsFor s :=
  ⟨Mask.subset_refl _, Mask.subset_refl _⟩

theorem WaitsFor.trans {s t x : AccessState} (hst : t.WaitsFor s) (hx : s.WaitsFor x) :
    t.WaitsFor x :=
  ⟨Mask.subset_trans hx.stage hst.stage, Mask.subset_trans hx.srcAccess hst.srcAccess⟩

theorem mergeRead_waitsFor_left (s t : AccessState) : (s.mergeRead t).WaitsFor s := by
  refine ⟨Mask.subset_union_left _ _, Mask.subset_iff.2 fun i hi => ?_⟩
  obtain ⟨hs, hw⟩ := Mask.mem_inter.1 hi
  exact Mask.mem_inter.2 ⟨Mask.mem_union.2 (.inl hs), hw⟩

theorem mergeRead_waitsFor_right (s t : AccessState) : (s.mergeRead t).WaitsFor t := by
  refine ⟨Mask.subset_union_right _ _, Mask.subset_iff.2 fun i hi => ?_⟩
  obtain ⟨ht, hw⟩ := Mask.mem_inter.1 hi
  exact Mask.mem_inter.2 ⟨Mask.mem_union.2 (.inr ht), hw⟩

end AccessState

/-! ## Times of a run -/

/-- An entry of a timeline in one of the frames of a run. -/
structure RunEntry extends TimelineEntry where
  frame : Nat

/-- A barrier in one of the frames of a run. -/
structure RunMove extends Move where
  frame : Nat

def RunEntry.time (x : RunEntry) : Nat × Nat := (x.frame, x.pass)

def RunMove.time (b : RunMove) : Nat × Nat := (b.frame, b.pass)

/-- Whether one pass of a run comes before another. -/
def Earlier (s t : Nat × Nat) : Prop := s.1 < t.1 ∨ s.1 = t.1 ∧ s.2 < t.2

/-- The barriers on a buffer in the buckets of all passes. -/
def Analysis.bufferMoves (a : Analysis) (h : Handle .buffer) : List Move :=
  a.barriers.zipIdx.flatMap fun (b, p) =>
    (b.buffers.filter (·.buffer == h)).map fun x => ⟨p, x.src, x.dst⟩

theorem Analysis.movesOn_of_buffer {a : Analysis} {n : Node} {desc : BufferDesc}
    {h : Handle .buffer} (hn : n.payload = .buffer desc (some h)) :
    a.movesOn n = a.bufferMoves h := by
  unfold movesOn bufferMoves TransitionBatch.on
  simp only [hn, List.map_map]
  rfl

variable {as as' : List Analysis} {h : Handle .buffer} {x y : RunEntry} {c : List RunMove}
  {s s' : AccessState} {k : Nat}

/-- Whether a barrier on the buffer is recorded in its frame. -/
def Recorded (as : List Analysis) (h : Handle .buffer) (b : RunMove) : Prop :=
  ∃ a, as[b.frame]? = some a ∧ b.toMove ∈ a.bufferMoves h

theorem Recorded.mono {b : RunMove} (hb : Recorded as h b) (has : as <+: as') :
    Recorded as' h b := by
  obtain ⟨a, ha, hm⟩ := hb
  obtain ⟨rest, rfl⟩ := has
  obtain ⟨hlt, -⟩ := List.getElem?_eq_some_iff.1 ha
  exact ⟨a, (List.getElem?_append_left hlt).trans ha, hm⟩

theorem Recorded.frame_lt {b : RunMove} (hb : Recorded as h b) : b.frame < as.length := by
  obtain ⟨a, ha, -⟩ := hb
  exact (List.getElem?_eq_some_iff.1 ha).1

/-! ## Chains of barriers -/

/-- A chain of barriers on a buffer from one access to another: the first waits for the one, each
next for the one before it, and the last leads into the other. -/
structure Chain (as : List Analysis) (h : Handle .buffer) (x y : RunEntry) (c : List RunMove) :
    Prop where
  recorded : ∀ b ∈ c, Recorded as h b
  after : ∀ b ∈ c, Earlier x.time b.time
  linked : c.IsChain fun b b' => Earlier b.time b'.time ∧ b.dst.stage ⊆ b'.src.stage
  first : ∃ b, c.head? = some b ∧ b.src.WaitsFor x.state
  last : ∃ b, c.getLast? = some b ∧ b.time = y.time ∧ y.state.stage ⊆ b.dst.stage

/-- A chain of barriers from an access to a state. Where there is no barrier yet, the state itself
tells of the access. -/
structure Leads (as : List Analysis) (h : Handle .buffer) (x : RunEntry) (c : List RunMove)
    (s : AccessState) : Prop where
  recorded : ∀ b ∈ c, Recorded as h b
  after : ∀ b ∈ c, Earlier x.time b.time
  linked : c.IsChain fun b b' => Earlier b.time b'.time ∧ b.dst.stage ⊆ b'.src.stage
  first : ∀ b ∈ c.head?, b.src.WaitsFor x.state
  last : ∀ b ∈ c.getLast?, b.dst.stage ⊆ s.stage
  direct : c = [] → s.WaitsFor x.state

namespace Leads

theorem nil (hs : s.WaitsFor x.state) : Leads as h x [] s where
  recorded := by simp
  after := by simp
  linked := .nil
  first := by simp
  last := by simp
  direct _ := hs

theorem mono (hx : Leads as h x c s) (has : as <+: as') (hs : s'.WaitsFor s) :
    Leads as' h x c s' where
  recorded b hb := (hx.recorded b hb).mono has
  after := hx.after
  linked := hx.linked
  first := hx.first
  last b hb := Mask.subset_trans (hx.last b hb) hs.stage
  direct hc := hs.trans (hx.direct hc)

/-- One more barrier, out of the state that the chain has reached. -/
theorem concat {b : RunMove} (hx : Leads as h x c b.src) (hb : Recorded as h b)
    (hxb : Earlier x.time b.time) (hc : ∀ b' ∈ c, Earlier b'.time b.time) :
    Leads as h x (c ++ [b]) b.dst where
  recorded := by
    simp only [List.forall_mem_append, List.forall_mem_singleton]
    exact ⟨hx.recorded, hb⟩
  after := by
    simp only [List.forall_mem_append, List.forall_mem_singleton]
    exact ⟨hx.after, hxb⟩
  linked := by
    refine List.isChain_append.2 ⟨hx.linked, .singleton b, fun b' hb' b'' hb'' => ?_⟩
    obtain rfl := Option.some.inj hb''
    exact ⟨hc b' (List.mem_of_mem_getLast? hb'), hx.last b' hb'⟩
  first b' hb' := by
    cases c with
    | nil =>
      obtain rfl := Option.some.inj hb'
      exact hx.direct rfl
    | cons b'' c => exact hx.first b' hb'
  last b' hb' := by
    rw [List.getLast?_concat] at hb'
    obtain rfl := Option.some.inj hb'
    exact Mask.subset_refl _
  direct hnil := by simp at hnil

/-- A chain that ends in a barrier into an access leads from access to access. -/
theorem chain {b : RunMove} (hx : Leads as h x (c ++ [b]) s) (ht : b.time = y.time)
    (hy : y.state.stage ⊆ b.dst.stage) : Chain as h x y (c ++ [b]) where
  recorded := hx.recorded
  after := hx.after
  linked := hx.linked
  first := by
    obtain ⟨b', hb'⟩ := Option.isSome_iff_exists.1 (List.isSome_head?.2 (List.concat_ne_nil b c))
    exact ⟨b', hb', hx.first b' hb'⟩
  last := ⟨b, List.getLast?_concat, ht, hy⟩

end Leads

theorem Chain.mono (hc : Chain as h x y c) (has : as <+: as') : Chain as' h x y c :=
  { hc with recorded := fun b hb => (hc.recorded b hb).mono has }

/-! ### Within a frame -/

section
variable {es xs ys : List TimelineEntry} {e : TimelineEntry}

/-- A chain goes on along the entries of a frame. -/
theorem Leads.along (hx : Leads as h x c s) (hes : es.Pairwise fun x y => x.pass < y.pass)
    (hxe : ∀ e ∈ es, Earlier x.time (k, e.pass))
    (hce : ∀ b ∈ c, ∀ e ∈ es, Earlier b.time (k, e.pass))
    (hrec : ∀ m ∈ (Move.along Move.buffersJoin s es).1, Recorded as h ⟨m, k⟩) :
    ∃ c', Leads as h x c' (Move.along Move.buffersJoin s es).2 ∧
      ∀ b ∈ c', b ∈ c ∨ b.frame = k ∧ ∃ e ∈ es, b.pass = e.pass := by
  induction es generalizing c s with
  | nil => exact ⟨c, hx, fun b hb => .inl hb⟩
  | cons e es ih =>
    obtain ⟨hlt, hes⟩ := List.pairwise_cons.1 hes
    obtain ⟨hxe', hxe⟩ := List.forall_mem_cons.1 hxe
    cases hj : Move.buffersJoin s e.state with
    | true =>
      rw [Move.along_joined hj] at hrec ⊢
      obtain ⟨c', hc', hmem⟩ := ih (hx.mono List.prefix_rfl (s.mergeRead_waitsFor_left e.state)) hes
        hxe (fun b hb e he => hce b hb e (List.mem_cons_of_mem _ he)) hrec
      refine ⟨c', hc', fun b hb => (hmem b hb).imp_right ?_⟩
      rintro ⟨hk, e', he', hp⟩
      exact ⟨hk, e', List.mem_cons_of_mem _ he', hp⟩
    | false =>
      rw [Move.along_moved hj] at hrec ⊢
      obtain ⟨hb, hrec⟩ := List.forall_mem_cons.1 hrec
      let b : RunMove := ⟨⟨e.pass, s, e.state⟩, k⟩
      have hcb : ∀ b' ∈ c, Earlier b'.time b.time := fun b' hb' =>
        hce b' hb' e List.mem_cons_self
      have hbefore : ∀ b' ∈ c ++ [b], ∀ e' ∈ es, Earlier b'.time (k, e'.pass) := by
        intro b' hb' e' he'
        rcases List.mem_append.1 hb' with hb' | hb'
        · exact hce b' hb' e' (List.mem_cons_of_mem _ he')
        · rw [List.mem_singleton.1 hb']
          exact .inr ⟨rfl, hlt e' he'⟩
      obtain ⟨c', hc', hmem⟩ := ih (hx.concat (b := b) hb hxe' hcb) hes hxe hbefore hrec
      refine ⟨c', hc', fun b' hb' => ?_⟩
      rcases hmem b' hb' with hb' | ⟨hk, e', he', hp⟩
      · rcases List.mem_append.1 hb' with hb' | hb'
        · exact .inl hb'
        · rw [List.mem_singleton.1 hb']
          exact .inr ⟨rfl, e, List.mem_cons_self, rfl⟩
      · exact .inr ⟨hk, e', List.mem_cons_of_mem _ he', hp⟩

/-- After an entry the state tells of it. -/
theorem waitsFor_last_concat (s : AccessState) (xs : List TimelineEntry) (e : TimelineEntry) :
    (Move.along Move.buffersJoin s (xs ++ [e])).2.WaitsFor e.state := by
  rw [Move.along_append]
  cases hj : Move.buffersJoin (Move.along Move.buffersJoin s xs).2 e.state with
  | true =>
    rw [Move.along_joined hj]
    exact AccessState.mergeRead_waitsFor_right _ _
  | false =>
    rw [Move.along_moved hj]
    exact .refl _

section
variable (hes : es.Pairwise fun x y => x.pass < y.pass)
  (hrec : ∀ m ∈ (Move.along Move.buffersJoin s es).1, Recorded as h ⟨m, k⟩)
include hes hrec

/-- From an entry of a frame a chain leads to the end of the frame. -/
theorem leads_of_mem (he : e ∈ es) :
    ∃ c, Leads as h ⟨e, k⟩ c (Move.along Move.buffersJoin s es).2 := by
  obtain ⟨xs, ys, hsplit⟩ := List.append_of_mem he
  have hafter : ∀ e' ∈ ys, Earlier (RunEntry.mk e k).time (k, e'.pass) := fun e' he' =>
    .inr ⟨rfl, lt_of_mem_right hes hsplit he'⟩
  rw [List.append_cons] at hsplit
  rw [hsplit] at hes hrec
  rw [hsplit, Move.along_append]
  rw [Move.along_append] at hrec
  obtain ⟨c, hc, -⟩ := (Leads.nil (waitsFor_last_concat s xs e)).along
    (List.pairwise_append.1 hes).2.1 hafter (by simp)
    fun m hm => hrec m (List.mem_append_right _ hm)
  exact ⟨c, hc⟩

/-- A chain that leads into a frame goes on to every write of the frame. -/
theorem Leads.exists_chain (hx : Leads as h x c s) (hsplit : es = xs ++ e :: ys)
    (hwrite : e.state.isWrite = true) (hxe : ∀ e' ∈ xs ++ [e], Earlier x.time (k, e'.pass))
    (hce : ∀ b ∈ c, ∀ e' ∈ xs ++ [e], Earlier b.time (k, e'.pass)) :
    ∃ c', Chain as h x ⟨e, k⟩ c' := by
  have hbefore : ∀ e' ∈ xs, e'.pass < e.pass := fun e' he' => lt_of_mem_left hes hsplit he'
  have hjoin := Move.buffersJoin_of_write (Move.along Move.buffersJoin s xs).2 hwrite
  rw [hsplit] at hes hrec
  rw [Move.along_append, Move.along_moved hjoin] at hrec
  obtain ⟨c', hc', hmem⟩ := hx.along (List.pairwise_append.1 hes).1
    (fun e' he' => hxe e' (List.mem_append_left _ he'))
    (fun b hb e' he' => hce b hb e' (List.mem_append_left _ he'))
    fun m hm => hrec m (List.mem_append_left _ hm)
  let b : RunMove := ⟨⟨e.pass, (Move.along Move.buffersJoin s xs).2, e.state⟩, k⟩
  have hb : Recorded as h b := hrec _ (List.mem_append_right _ List.mem_cons_self)
  have hlast : ∀ b' ∈ c', Earlier b'.time b.time := by
    intro b' hb'
    rcases hmem b' hb' with hb' | ⟨hk, e', he', hp⟩
    · exact hce b' hb' e (by simp)
    · refine .inr ⟨hk, ?_⟩
      show b'.pass < e.pass
      rw [hp]
      exact hbefore e' he'
  have hconcat := Leads.concat (b := b) hc' hb (hxe e (by simp)) hlast
  exact ⟨c' ++ [b], hconcat.chain rfl (Mask.subset_refl _)⟩

/-- Within a frame a chain leads from every entry to every write after it. -/
theorem exists_chain_within {e' : TimelineEntry} (he : e ∈ es) (he' : e' ∈ es)
    (hlt : e.pass < e'.pass) (hwrite : e'.state.isWrite = true) :
    ∃ c, Chain as h ⟨e, k⟩ ⟨e', k⟩ c := by
  obtain ⟨xs, ys, zs, hsplit⟩ := exists_split hes he he' hlt
  have hafter : ∀ y ∈ ys ++ e' :: zs, e.pass < y.pass := fun y hy =>
    lt_of_mem_right hes hsplit hy
  rw [List.append_cons] at hsplit
  rw [hsplit] at hes hrec
  rw [Move.along_append] at hrec
  refine (Leads.nil (waitsFor_last_concat s xs e)).exists_chain (List.pairwise_append.1 hes).2.1
    (fun m hm => hrec m (List.mem_append_right _ hm)) rfl hwrite (fun y hy => ?_) (by simp)
  refine .inr ⟨rfl, hafter y ?_⟩
  rw [List.append_cons]
  exact List.mem_append_left _ hy

end

end

/-! ## Runs -/

/-- The node at `i` is a buffer with the object `h`. -/
def Forest.Holds (f : Forest) (i : Nat) (h : Handle .buffer) : Prop :=
  ∃ n desc, f.nodes[i]? = some n ∧ n.payload = .buffer desc (some h)

/-- A run through which the node at `i` stays a buffer with the object `h`: frames, whose analyses
are listed, and operations between them. -/
inductive StaysMounted {δ : Type} [Device δ] (i : Nat) (h : Handle .buffer) :
    Forest × δ → List Analysis → Forest × δ → Prop
  | start {f : Forest} {d : δ} (hf : f.Holds i h) : StaysMounted i h (f, d) [] (f, d)
  | operate {s : Forest × δ} {as : List Analysis} {f f' : Forest} {d d' : δ} {o : Operation}
      (hrun : StaysMounted i h s as (f, d)) (ho : o.run f d = .ok (f', d'))
      (hf : f'.Holds i h) : StaysMounted i h s as (f', d')
  | frame {s : Forest × δ} {as : List Analysis} {f f' : Forest} {d : δ} {passes : List Pass}
      {shaders : Registry} {a : Analysis} (hrun : StaysMounted i h s as (f, d))
      (ha : (analyze passes f shaders).result = .ok (a, f')) :
      StaysMounted i h s (as ++ [a]) (f', d)

/-- The accesses to the node at `i` in a run. -/
def Visits (as : List Analysis) (i : Nat) (x : RunEntry) : Prop :=
  ∃ a t, as[x.frame]? = some a ∧ t ∈ a.timelines ∧ t.index = i ∧ x.toTimelineEntry ∈ t.entries

variable {i : Nat}

theorem Visits.frame_lt (hx : Visits as i x) : x.frame < as.length := by
  obtain ⟨a, -, ha, -⟩ := hx
  exact (List.getElem?_eq_some_iff.1 ha).1

/-- An access of a longer run is one of the run before or one of the last frame. -/
theorem Visits.cases_concat {a : Analysis} (hx : Visits (as ++ [a]) i x) :
    Visits as i x ∨ x.frame = as.length ∧ ∃ t ∈ a.timelines, t.index = i ∧
      x.toTimelineEntry ∈ t.entries := by
  obtain ⟨a', t, ha, ht⟩ := hx
  obtain ⟨hlt, -⟩ := List.getElem?_eq_some_iff.1 ha
  rw [List.length_append, List.length_singleton] at hlt
  rcases Nat.lt_or_ge x.frame as.length with hk | hk
  · rw [List.getElem?_append_left hk] at ha
    exact .inl ⟨a', t, ha, ht⟩
  · have hk : x.frame = as.length := by omega
    rw [hk, List.getElem?_concat_length] at ha
    obtain rfl := Option.some.inj ha
    exact .inr ⟨hk, t, ht⟩

/-- What is known of a buffer after a run that took it from `n` to `n'`. -/
structure BufferInv (as : List Analysis) (i : Nat) (h : Handle .buffer) (n n' : Node) : Prop where
  residency : n'.residency = n.residency
  payload : ∃ desc, n'.payload = .buffer desc (some h)
  /-- The carried state tells of every access. -/
  leads : n.residency ≠ .dontCare → ∀ x, Visits as i x → ∃ c, Leads as h x c n'.current
  chains : ∀ x y, Visits as i x → Visits as i y → Earlier x.time y.time →
    y.state.isWrite = true → n.residency ≠ .dontCare ∨ x.frame = y.frame → ∃ c, Chain as h x y c

section
variable {δ : Type} [Device δ] {f f' : Forest} {d d' : δ} {n n' : Node}

theorem BufferInv.operate {o : Operation} (hinv : BufferInv as i h n n')
    (hn' : f.nodes[i]? = some n') (ho : o.run f d = .ok (f', d')) (hf : f'.Holds i h) :
    ∃ n'', f'.nodes[i]? = some n'' ∧ BufferInv as i h n n'' := by
  obtain ⟨n'', hn'', hkeeps, hcur⟩ := Operation.exists_node ho hn'
  obtain ⟨m, desc, hm, hp⟩ := hf
  rw [hn''] at hm
  obtain rfl := Option.some.inj hm
  -- the buffer still has its object, so what it carried was not lost
  have hcur : n''.current = n'.current := by
    refine hcur.resolve_right fun hb => ?_
    rw [Node.isBacked, hp] at hb
    cases hb
  refine ⟨n'', hn'', hkeeps.residency.trans hinv.residency, ⟨desc, hp⟩, ?_, hinv.chains⟩
  rw [hcur]
  exact hinv.leads

/-! ### One more frame -/

variable {passes : List Pass} {shaders : Registry} {a : Analysis} {t : Timeline}

section
variable (hinv : BufferInv as i h n n') (hn' : f.nodes[i]? = some n')
  (ha : (analyze passes f shaders).result = .ok (a, f'))
include hinv hn' ha

/-- The moves of the buffer in the frame, as they are recorded. -/
theorem BufferInv.reduction (ht : t ∈ a.timelines) (hi : t.index = i) :
    t.node = n' ∧ t.finish = (Move.along Move.buffersJoin t.start t.entries).2 ∧
      ∀ m ∈ (Move.along Move.buffersJoin t.start t.entries).1,
        Recorded (as ++ [a]) h ⟨m, as.length⟩ := by
  obtain ⟨desc, hp⟩ := hinv.payload
  obtain ⟨hnode, -⟩ := node_of_mem_timelines ha ht
  rw [hi, hn'] at hnode
  obtain rfl := Option.some.inj hnode
  have hkind : t.node.kind = .buffer := by rw [Node.kind, hp]; rfl
  have hreduction := Timeline.reduction_of_buffer hkind
  refine ⟨rfl, ?_, fun m hm => ⟨a, List.getElem?_concat_length, ?_⟩⟩
  · unfold Timeline.finish Timeline.isShown Node.imageDesc?
    simp [hp, hreduction]
  · rw [← Analysis.movesOn_of_buffer hp]
    refine moves_subset_movesOn ha ht (.inl hkind) ?_
    unfold Timeline.moves
    rw [hreduction]
    exact hm

/-- What led to the carried state leads to the start of the frame. -/
theorem BufferInv.leads_start (hres : n.residency ≠ .dontCare) (hx : Visits as i x)
    (ht : t ∈ a.timelines) (hi : t.index = i) :
    ∃ c, Leads (as ++ [a]) h x c t.start ∧ ∀ b ∈ c, b.frame < as.length := by
  obtain ⟨hnode, -⟩ := hinv.reduction hn' ha ht hi
  obtain ⟨c, hc⟩ := hinv.leads hres x hx
  have hstart : t.start = n'.current := by
    rw [Timeline.start, hnode, if_neg (hinv.residency ▸ hres)]
  rw [hstart]
  exact ⟨c, hc.mono (List.prefix_append as [a]) (.refl _), fun b hb => (hc.recorded b hb).frame_lt⟩

theorem BufferInv.leads_finish (hres : n.residency ≠ .dontCare) (hx : Visits (as ++ [a]) i x)
    (ht : t ∈ a.timelines) (hi : t.index = i) : ∃ c, Leads (as ++ [a]) h x c t.finish := by
  obtain ⟨-, hfinish, hrec⟩ := hinv.reduction hn' ha ht hi
  have hes := pairwise_of_mem_timelines ha ht
  rw [hfinish]
  rcases hx.cases_concat with hx | ⟨hk, t', ht', hi', hmem⟩
  · obtain ⟨c, hc, hlt⟩ := hinv.leads_start hn' ha hres hx ht hi
    obtain ⟨c', hc', -⟩ := hc.along hes (fun e _ => .inl hx.frame_lt)
      (fun b hb e _ => .inl (hlt b hb)) hrec
    exact ⟨c', hc'⟩
  · obtain rfl := eq_of_mem_timelines ha ht' ht (hi'.trans hi.symm)
    obtain ⟨e, k⟩ := x
    obtain rfl : k = as.length := hk
    exact leads_of_mem hes hrec hmem

/-- A write of the frame is led into from every access before it. -/
theorem BufferInv.chain_frame (hx : Visits (as ++ [a]) i x) (hxy : Earlier x.time y.time)
    (hres : n.residency ≠ .dontCare ∨ x.frame = y.frame) (hy : y.frame = as.length)
    (ht : t ∈ a.timelines) (hi : t.index = i) (hmem : y.toTimelineEntry ∈ t.entries)
    (hwrite : y.state.isWrite = true) : ∃ c, Chain (as ++ [a]) h x y c := by
  obtain ⟨-, -, hrec⟩ := hinv.reduction hn' ha ht hi
  have hes := pairwise_of_mem_timelines ha ht
  obtain ⟨e, k⟩ := y
  obtain rfl : k = as.length := hy
  rcases hx.cases_concat with hx | ⟨hkx, t', ht', hi', hmem'⟩
  · have hres : n.residency ≠ .dontCare := hres.resolve_right (Nat.ne_of_lt hx.frame_lt)
    obtain ⟨c, hc, hlt⟩ := hinv.leads_start hn' ha hres hx ht hi
    obtain ⟨xs, ys, hsplit⟩ := List.append_of_mem hmem
    exact hc.exists_chain hes hrec hsplit hwrite (fun e _ => .inl hx.frame_lt)
      fun b hb e _ => .inl (hlt b hb)
  · obtain rfl := eq_of_mem_timelines ha ht' ht (hi'.trans hi.symm)
    obtain ⟨e', k⟩ := x
    obtain rfl : k = as.length := hkx
    have hlt : e'.pass < e.pass := by
      rcases hxy with hxy | ⟨-, hxy⟩
      · exact absurd hxy (Nat.lt_irrefl _)
      · exact hxy
    exact exists_chain_within hes hrec hmem' hmem hlt hwrite

theorem BufferInv.frame :
    ∃ n'', f'.nodes[i]? = some n'' ∧ BufferInv (as ++ [a]) i h n n'' := by
  obtain ⟨-, -, -, hf'⟩ := analyze_ok_iff.1 ha
  obtain ⟨s, hs, hlast⟩ := Forest.exists_carry a.timelines hn'
  rw [← hf'] at hs
  refine ⟨_, hs, hinv.residency, hinv.payload, fun hres x hx => ?_, ?_⟩
  · rcases hlast with ⟨t, ht, hi, -, rfl⟩ | ⟨rfl, hnone⟩
    · exact hinv.leads_finish hn' ha hres hx ht hi
    · rcases hx.cases_concat with hx | ⟨-, t, ht, hi, -⟩
      · obtain ⟨c, hc⟩ := hinv.leads hres x hx
        exact ⟨c, hc.mono (List.prefix_append as [a]) (.refl _)⟩
      · obtain ⟨hnode, -⟩ := hinv.reduction hn' ha ht hi
        have := hnone t ht hi
        rw [hnode, hinv.residency] at this
        exact absurd this hres
  · intro x y hx hy hxy hwrite hres
    rcases hy.cases_concat with hy | ⟨hk, t, ht, hi, hmem⟩
    · have hx : Visits as i x := by
        refine hx.cases_concat.resolve_right ?_
        rintro ⟨hkx, -⟩
        have hlt := hy.frame_lt
        unfold Earlier RunEntry.time at hxy
        omega
      obtain ⟨c, hc⟩ := hinv.chains x y hx hy hxy hwrite hres
      exact ⟨c, hc.mono (List.prefix_append as [a])⟩
    · exact hinv.chain_frame hn' ha hx hxy hres hk ht hi hmem hwrite

end

/-! ### Any run -/

theorem StaysMounted.inv {s s' : Forest × δ} (hrun : StaysMounted i h s as s')
    (hn : s.1.nodes[i]? = some n) : ∃ n', s'.1.nodes[i]? = some n' ∧ BufferInv as i h n n' := by
  induction hrun with
  | start hf =>
    obtain ⟨m, desc, hm, hp⟩ := hf
    rw [hn] at hm
    obtain rfl := Option.some.inj hm
    have hnone : ∀ x, ¬ Visits [] i x := fun x hx => absurd hx.frame_lt (Nat.not_lt_zero _)
    exact ⟨n, hn, rfl, ⟨desc, hp⟩, fun _ x hx => absurd hx (hnone x),
      fun x _ hx => absurd hx (hnone x)⟩
  | operate _ ho hf ih =>
    obtain ⟨n', hn', hinv⟩ := ih hn
    exact hinv.operate hn' ho hf
  | frame _ ha ih =>
    obtain ⟨n', hn', hinv⟩ := ih hn
    exact hinv.frame hn' ha

/-- **A write to a buffer waits for every access before it**, in the same frame or in an earlier one
where the contents of the buffer matter from frame to frame. -/
theorem exists_chain_into_write {s s' : Forest × δ} (hrun : StaysMounted i h s as s')
    (hn : s.1.nodes[i]? = some n) (hx : Visits as i x) (hy : Visits as i y)
    (hxy : Earlier x.time y.time) (hwrite : y.state.isWrite = true)
    (hres : n.residency ≠ .dontCare ∨ x.frame = y.frame) : ∃ c, Chain as h x y c := by
  obtain ⟨n', -, hinv⟩ := hrun.inv hn
  exact hinv.chains x y hx hy hxy hwrite hres

end

/-! ### Arguments that are filled again -/

namespace Arguments

def device : Headless := { lastHandle := 1, buffers := [(⟨1⟩, "arguments")] }

/-- After the frame and another mount the buffer carries both readers. -/
def mounted : Forest where
  nodes := [{ timeline.node with
    life := 2
    current := dispatched.state.mergeRead counted.state }]
  life := 2

theorem mount_eq :
    (Operation.mount "arguments").run (forest.carry analysis.timelines) device =
      .ok (mounted, device) := rfl

def next : Analysis :=
  .ofUses mounted
    [⟨[⟨0, .computeShader, .shaderWrite⟩], none⟩,
     ⟨[⟨0, .drawIndirect, .indirectCommandRead⟩], none⟩,
     ⟨[⟨0, .computeShader, .shaderRead⟩], none⟩]

theorem analyze_mounted_eq :
    (analyze passes mounted {}).result = .ok (next, mounted.carry next.timelines) := rfl

theorem staysMounted : StaysMounted 0 ⟨1⟩ (forest, device) [analysis, next]
    (mounted.carry next.timelines, device) :=
  .frame (.operate (.frame (.start ⟨_, _, rfl, rfl⟩) analyze_eq) mount_eq ⟨_, _, rfl, rfl⟩)
    analyze_mounted_eq

theorem visits_counted : Visits [analysis, next] 0 ⟨counted, 0⟩ :=
  ⟨analysis, timeline, rfl, by decide, rfl, by decide⟩

theorem visits_filled : Visits [analysis, next] 0 ⟨filled, 1⟩ :=
  ⟨next, ⟨0, mounted.nodes[0], timeline.entries⟩, rfl, by decide, rfl, by decide⟩

end Arguments

theorem exists_chain_into_write_arguments :
    ∃ c, Chain [Arguments.analysis, Arguments.next] ⟨1⟩ ⟨Arguments.counted, 0⟩
      ⟨Arguments.filled, 1⟩ c :=
  exists_chain_into_write Arguments.staysMounted rfl Arguments.visits_counted
    Arguments.visits_filled (.inl Nat.zero_lt_one) (by decide) (.inl (by decide))

end FrameGraph
