import FrameGraph.Analysis.Timeline

/-!
# What the timelines of a frame say

`Timeline.ofFrame` has one timeline for each node that the frame touches (`mem_ofFrame_iff`,
`eq_of_index_eq`). Its entries stand in strict pass order (`pairwise_entriesFrom`), one for each
pass that uses the node (`mem_entriesFrom_iff`), and an entry's stages and accesses are those of all
uses in the pass (`mem_usageIn_iff`).
-/

set_option autoImplicit false

namespace FrameGraph

theorem nodup_eraseDups : ∀ l : List Nat, l.eraseDups.Nodup
  | [] => by simp
  | a :: l => by
    rw [List.eraseDups_cons]
    refine List.nodup_cons.2 ⟨fun hm => ?_, nodup_eraseDups _⟩
    rw [List.mem_eraseDups, List.mem_filter] at hm
    simp at hm
termination_by l => l.length
decreasing_by
  have := List.length_filter_le (fun b => !b == a) l
  simp only [List.length_cons]
  omega

/-- Where one member of a list without repetition has a say, the rest adds nothing. -/
theorem flatMap_eq_of_unique {α β : Type} {f : α → List β} {l : List α} {a : α} (hl : l.Nodup)
    (ha : a ∈ l) (h : ∀ b ∈ l, b ≠ a → f b = []) : l.flatMap f = f a := by
  induction l with
  | nil => cases ha
  | cons b l ih =>
    obtain ⟨hb, hl⟩ := List.nodup_cons.1 hl
    rw [List.flatMap_cons]
    by_cases hba : b = a
    · subst hba
      have hnil : l.flatMap f = [] := by
        refine List.flatMap_eq_nil_iff.2 fun x hx => h x (List.mem_cons_of_mem _ hx) ?_
        rintro rfl
        exact hb hx
      rw [hnil, List.append_nil]
    · have ha' : a ∈ l := (List.mem_cons.1 ha).resolve_left (Ne.symm hba)
      rw [h b List.mem_cons_self hba, List.nil_append,
        ih hl ha' fun x hx => h x (List.mem_cons_of_mem _ hx)]

/-! ## Places in a timeline -/

section
variable {es xs ys : List TimelineEntry} {e x : TimelineEntry}
  (hes : es.Pairwise fun x y => x.pass < y.pass)
include hes

theorem lt_of_mem_left (h : es = xs ++ e :: ys) (hx : x ∈ xs) : x.pass < e.pass := by
  rw [h] at hes
  exact (List.pairwise_append.1 hes).2.2 x hx e List.mem_cons_self

theorem lt_of_mem_right (h : es = xs ++ e :: ys) (hx : x ∈ ys) : e.pass < x.pass := by
  rw [h] at hes
  exact (List.pairwise_cons.1 (List.pairwise_append.1 hes).2.1).1 x hx

/-- Entries are told apart by their passes. -/
theorem eq_of_pass_eq {y : TimelineEntry} (hx : x ∈ es) (hy : y ∈ es) (hxy : x.pass = y.pass) :
    x = y := by
  obtain ⟨xs, rest, hsplit⟩ := List.append_of_mem hx
  rw [hsplit] at hy
  rcases List.mem_append.1 hy with hy | hy
  · have := lt_of_mem_left hes hsplit hy
    omega
  · rcases List.mem_cons.1 hy with rfl | hy
    · rfl
    · have := lt_of_mem_right hes hsplit hy
      omega

/-- Two entries cut a timeline in three. -/
theorem exists_split {y : TimelineEntry} (hx : x ∈ es) (hy : y ∈ es) (hxy : x.pass < y.pass) :
    ∃ xs ys zs, es = xs ++ x :: (ys ++ y :: zs) := by
  obtain ⟨xs, rest, hsplit⟩ := List.append_of_mem hx
  have hyrest : y ∈ rest := by
    rw [hsplit] at hy
    rcases List.mem_append.1 hy with hy | hy
    · have := lt_of_mem_left hes hsplit hy
      omega
    · rcases List.mem_cons.1 hy with rfl | hy
      · omega
      · exact hy
  obtain ⟨ys, zs, rfl⟩ := List.append_of_mem hyrest
  exact ⟨xs, ys, zs, hsplit⟩

end

namespace Timeline

/-! ## All uses in a pass -/

theorem mem_usesOf {index : Nat} {uses : List NodeUse} {v : Usage} :
    v ∈ usesOf index uses ↔ ⟨index, v⟩ ∈ uses := by
  simp only [usesOf, List.mem_map, List.mem_filter, beq_iff_eq]
  constructor
  · rintro ⟨⟨_, _⟩, ⟨hu, rfl⟩, rfl⟩
    exact hu
  · intro h
    exact ⟨_, ⟨h, rfl⟩, rfl⟩

section
variable {κ : Vocabulary} (part : Usage → Mask κ) {i : Nat}
  (hpart : ∀ u v, part (u.merge v) = part u ∪ part v)
include hpart

theorem mem_foldl_merge (us : List Usage) (u : Usage) :
    i ∈ part (us.foldl Usage.merge u) ↔ i ∈ part u ∨ ∃ v ∈ us, i ∈ part v := by
  induction us generalizing u with
  | nil => simp
  | cons v us ih =>
    rw [List.foldl_cons, ih, hpart]
    simp [or_assoc]

/-- A part of a usage that merging joins is joined from all uses. -/
theorem mem_usageIn_iff {index : Nat} {uses : List NodeUse} {u : Usage}
    (h : usageIn index uses = some u) :
    i ∈ part u ↔ ∃ v, ⟨index, v⟩ ∈ uses ∧ i ∈ part v := by
  unfold usageIn at h
  split at h
  · cases h
  · next v vs hv =>
    obtain rfl := Option.some.inj h
    rw [mem_foldl_merge part hpart]
    simp only [← mem_usesOf, hv, List.mem_cons]
    grind

end

theorem mem_stage_usageIn_iff {index i : Nat} {uses : List NodeUse} {u : Usage}
    (h : usageIn index uses = some u) : i ∈ u.stage ↔ ∃ v, ⟨index, v⟩ ∈ uses ∧ i ∈ v.stage :=
  mem_usageIn_iff Usage.stage (fun _ _ => rfl) h

theorem mem_access_usageIn_iff {index i : Nat} {uses : List NodeUse} {u : Usage}
    (h : usageIn index uses = some u) : i ∈ u.access ↔ ∃ v, ⟨index, v⟩ ∈ uses ∧ i ∈ v.access :=
  mem_usageIn_iff Usage.access (fun _ _ => rfl) h

theorem isSome_usageIn_iff {index : Nat} {uses : List NodeUse} :
    (usageIn index uses).isSome ↔ ∃ v, ⟨index, v⟩ ∈ uses := by
  unfold usageIn
  simp only [← mem_usesOf]
  split
  · next h => simp [h]
  · next v vs hv => simp [hv]

/-- Which uses of a node there are is all that counts, not their order or number. -/
theorem usageIn_congr {index : Nat} {uses uses' : List NodeUse}
    (h : ∀ v, ⟨index, v⟩ ∈ uses ↔ ⟨index, v⟩ ∈ uses') :
    usageIn index uses = usageIn index uses' := by
  have hsome : (usageIn index uses).isSome ↔ (usageIn index uses').isSome := by
    simp only [isSome_usageIn_iff, h]
  cases hu : usageIn index uses with
  | none =>
    cases hu' : usageIn index uses' with
    | none => rfl
    | some u' => simp [hu, hu'] at hsome
  | some u =>
    cases hu' : usageIn index uses' with
    | none => simp [hu, hu'] at hsome
    | some u' =>
      have hstage : u.stage = u'.stage := Mask.ext fun i => by
        simp only [mem_stage_usageIn_iff hu, mem_stage_usageIn_iff hu', h]
      have haccess : u.access = u'.access := Mask.ext fun i => by
        simp only [mem_access_usageIn_iff hu, mem_access_usageIn_iff hu', h]
      cases u
      cases u'
      simp only at hstage haccess
      rw [hstage, haccess]

/-! ## Entries -/

theorem mem_entriesFrom_iff {index first : Nat} {n : Node} {frame : List (List NodeUse)}
    {e : TimelineEntry} : e ∈ entriesFrom index n first frame ↔ ∃ k uses u, frame[k]? = some uses ∧
      usageIn index uses = some u ∧ e = ⟨first + k, u.stateOf n⟩ := by
  induction frame generalizing first with
  | nil => simp [entriesFrom]
  | cons uses frame ih =>
    constructor
    · intro h
      unfold entriesFrom at h
      split at h
      · next u hu =>
        rcases List.mem_cons.1 h with rfl | h
        · exact ⟨0, uses, u, rfl, hu, rfl⟩
        · obtain ⟨k, uses', u', hk, hu', rfl⟩ := ih.1 h
          exact ⟨k + 1, uses', u', hk, hu', by rw [Nat.add_assoc, Nat.add_comm 1]⟩
      · obtain ⟨k, uses', u', hk, hu', rfl⟩ := ih.1 h
        exact ⟨k + 1, uses', u', hk, hu', by rw [Nat.add_assoc, Nat.add_comm 1]⟩
    · rintro ⟨k, uses', u, hk, hu, rfl⟩
      unfold entriesFrom
      cases k with
      | zero =>
        obtain rfl := Option.some.inj hk
        rw [hu]
        exact List.mem_cons_self
      | succ k =>
        have hrest : (⟨first + (k + 1), u.stateOf n⟩ : TimelineEntry) ∈
            entriesFrom index n (first + 1) frame :=
          ih.2 ⟨k, uses', u, hk, hu, by rw [Nat.add_assoc, Nat.add_comm 1]⟩
        split
        · exact List.mem_cons_of_mem _ hrest
        · exact hrest

theorem pairwise_entriesFrom (index first : Nat) (n : Node) (frame : List (List NodeUse)) :
    (entriesFrom index n first frame).Pairwise fun x y => x.pass < y.pass := by
  induction frame generalizing first with
  | nil => exact List.Pairwise.nil
  | cons uses frame ih =>
    unfold entriesFrom
    split
    · refine List.pairwise_cons.2 ⟨fun e he => ?_, ih _⟩
      obtain ⟨k, -, -, -, -, rfl⟩ := mem_entriesFrom_iff.1 he
      show first < first + 1 + k
      omega
    · exact ih _

/-! ## Timelines -/

theorem mem_touched {i : Nat} {frame : List (List NodeUse)} :
    i ∈ touched frame ↔ ∃ uses ∈ frame, ∃ v, ⟨i, v⟩ ∈ uses := by
  simp only [touched, List.mem_eraseDups, List.mem_map, List.mem_flatten]
  constructor
  · rintro ⟨⟨_, v⟩, ⟨uses, huses, hu⟩, rfl⟩
    exact ⟨uses, huses, v, hu⟩
  · rintro ⟨uses, huses, v, hu⟩
    exact ⟨_, ⟨uses, huses, hu⟩, rfl⟩

variable {nodes : List Node} {frame : List (List NodeUse)} {t t' : Timeline}

theorem mem_ofFrame_iff : t ∈ ofFrame nodes frame ↔ t.index ∈ touched frame ∧
    nodes[t.index]? = some t.node ∧ t.entries = entriesFrom t.index t.node 0 frame := by
  simp only [ofFrame, List.mem_filterMap, Option.map_eq_some_iff]
  constructor
  · rintro ⟨i, hi, n, hn, rfl⟩
    exact ⟨hi, hn, rfl⟩
  · rintro ⟨hi, hn, he⟩
    refine ⟨t.index, hi, t.node, hn, ?_⟩
    rw [← he]

/-- The position of a node tells its timeline. -/
theorem eq_of_index_eq (h : t ∈ ofFrame nodes frame) (h' : t' ∈ ofFrame nodes frame)
    (hi : t.index = t'.index) : t = t' := by
  obtain ⟨-, hn, he⟩ := mem_ofFrame_iff.1 h
  obtain ⟨-, hn', he'⟩ := mem_ofFrame_iff.1 h'
  cases t
  cases t'
  simp only at hi hn hn' he he'
  subst hi
  rw [hn] at hn'
  obtain rfl := Option.some.inj hn'
  rw [he, he']

theorem nodup_ofFrame : (ofFrame nodes frame).Nodup := by
  refine List.pairwise_filterMap.2 ((nodup_eraseDups _).imp ?_)
  intro i j hij t ht t' ht' h
  obtain ⟨n, -, rfl⟩ := Option.map_eq_some_iff.1 ht
  obtain ⟨n', -, rfl⟩ := Option.map_eq_some_iff.1 ht'
  exact hij (congrArg Timeline.index h)

theorem pairwise_entries (h : t ∈ ofFrame nodes frame) :
    t.entries.Pairwise fun x y => x.pass < y.pass := by
  rw [(mem_ofFrame_iff.1 h).2.2]
  exact pairwise_entriesFrom ..

/-- An entry stands for the uses of its node in its pass. -/
theorem mem_entries_iff {e : TimelineEntry} (h : t ∈ ofFrame nodes frame) :
    e ∈ t.entries ↔ ∃ uses u, frame[e.pass]? = some uses ∧ usageIn t.index uses = some u ∧
      e.state = u.stateOf t.node := by
  rw [(mem_ofFrame_iff.1 h).2.2, mem_entriesFrom_iff]
  constructor
  · rintro ⟨k, uses, u, hk, hu, rfl⟩
    exact ⟨uses, u, by simpa using hk, hu, rfl⟩
  · rintro ⟨uses, u, hk, hu, hs⟩
    refine ⟨e.pass, uses, u, hk, hu, ?_⟩
    cases e
    simp only at hs
    simp [hs]

theorem pass_lt {e : TimelineEntry} (h : t ∈ ofFrame nodes frame) (he : e ∈ t.entries) :
    e.pass < frame.length := by
  obtain ⟨uses, -, hk, -, -⟩ := (mem_entries_iff h).1 he
  exact (List.getElem?_eq_some_iff.1 hk).1

end Timeline

end FrameGraph
