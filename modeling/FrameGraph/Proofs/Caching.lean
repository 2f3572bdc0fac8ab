import FrameGraph.Plan.Basic
import FrameGraph.Proofs.Outcomes

/-!
# What the object cache remembers

The cache only grows: what it has given out once it gives out again (`ObjectCache.Extends`). So a
computation that got its objects once is repeated, from any cache that extends the one it left,
without the device: it gets the same objects and is only counted as having found them
(`PlanM.Replays`).
-/

set_option autoImplicit false

namespace FrameGraph

variable {δ : Type}

namespace ObjectCache

/-- The cache when `n` more objects have been found in it. -/
def found (c : ObjectCache) (n : Nat) : ObjectCache := { c with hits := c.hits + n }

theorem found_found (c : ObjectCache) (m n : Nat) : (c.found m).found n = c.found (m + n) := by
  simp [found, Nat.add_assoc]

/-- Whether `c'` gives out all that `c` does. -/
def Extends (c c' : ObjectCache) : Prop :=
  ∀ (desc : ObjectDesc) h, c.find? desc = some h → c'.find? desc = some h

variable {c c' c'' : ObjectCache} {desc : ObjectDesc} {h : Handle desc.kind} {d d' : δ}

theorem Extends.refl (c : ObjectCache) : c.Extends c := fun _ _ h => h

theorem Extends.trans (h : c.Extends c') (h' : c'.Extends c'') : c.Extends c'' :=
  fun desc x hx => h' desc x (h desc x hx)

theorem Extends.found (h : c.Extends c') (n : Nat) : c.Extends (c'.found n) := h

theorem extends_add (c : ObjectCache) (h : Handle desc.kind) : c.Extends (c.add desc h) := by
  intro desc' x hx
  obtain ⟨id, hid, rfl⟩ := Option.map_eq_some_iff.1 hx
  refine Option.map_eq_some_iff.2 ⟨id, ?_, rfl⟩
  show (c.entries ++ [(desc, h.id)]).lookup desc' = some id
  rw [List.lookup_append, hid]
  rfl

theorem mem_of_find? (hfind : c.find? desc = some h) : (desc, h.id) ∈ c.entries := by
  obtain ⟨id, hid, rfl⟩ := Option.map_eq_some_iff.1 hfind
  obtain ⟨before, after, hentries, -⟩ := List.lookup_eq_some_iff.1 hid
  rw [hentries]
  exact List.mem_append_right _ List.mem_cons_self

theorem find?_add_self (hnone : c.find? desc = none) : (c.add desc h).find? desc = some h := by
  have hlookup : c.entries.lookup desc = none := Option.map_eq_none_iff.1 hnone
  refine Option.map_eq_some_iff.2 ⟨h.id, ?_, rfl⟩
  show (c.entries ++ [(desc, h.id)]).lookup desc = some h.id
  rw [List.lookup_append, hlookup]
  simp

/-- What is found after an object was added was there before, or is that object. -/
theorem find?_add_cases {desc' : ObjectDesc} {x : Handle desc'.kind}
    (hfind : (c.add desc h).find? desc' = some x) :
    c.find? desc' = some x ∨ desc' = desc ∧ x.id = h.id := by
  obtain ⟨id, hid, rfl⟩ := Option.map_eq_some_iff.1 hfind
  have hid : (c.entries ++ [(desc, h.id)]).lookup desc' = some id := hid
  rw [List.lookup_append] at hid
  cases hbefore : c.entries.lookup desc' with
  | some id' =>
    rw [hbefore] at hid
    obtain rfl := Option.some.inj hid
    exact .inl (Option.map_eq_some_iff.2 ⟨id', hbefore, rfl⟩)
  | none =>
    rw [hbefore, Option.none_or, List.lookup_cons] at hid
    split at hid
    · next heq => exact .inr ⟨beq_iff_eq.1 heq, (Option.some.inj hid).symm⟩
    · cases hid

/-- What was found or made can be found from then on. -/
theorem getOrCreate_ok [Device δ] (hget : c.getOrCreate desc d = (.ok h, c', d')) :
    c.Extends c' ∧ c'.find? desc = some h := by
  unfold getOrCreate at hget
  split at hget
  · next x hfind =>
    cases hget
    exact ⟨(Extends.refl c).found 1, hfind⟩
  · next hnone =>
    split at hget
    · cases hget
    · cases hget
      exact ⟨extends_add c h, find?_add_self hnone⟩

/-- An object that is there is found, and the device is not asked. -/
theorem getOrCreate_of_find [Device δ] (hfind : c.find? desc = some h) (d : δ) :
    c.getOrCreate desc d = (.ok h, c.found 1, d) := by
  unfold getOrCreate
  rw [hfind]
  rfl

end ObjectCache

/-! ## Computations that are repeated -/

namespace PlanM

variable {α α' β β' : Type} {R : α → α' → Prop} {S : β → β' → Prop}

/-- A sequence gives a result through one of its first part. -/
theorem bind_ok_iff {x : PlanM δ α} {k : α → PlanM δ β} {s s' : ObjectCache × δ} {b : β} :
    ((x >>= k).run s).result = .ok (.ok b, s') ↔ ∃ a t, (x.run s).result = .ok (.ok a, t) ∧
      ((k a).run t).result = .ok (.ok b, s') := by
  show (x.run s >>= fun p => ExceptT.bindCont k p.1 p.2).result = .ok (.ok b, s') ↔ _
  rw [Traced.result_bind, Except.bind_eq_ok_iff]
  constructor
  · rintro ⟨⟨r, t⟩, hx, hk⟩
    cases r with
    | ok a => exact ⟨a, t, hx, hk⟩
    | error e => cases hk
  · rintro ⟨a, t, hx, hk⟩
    exact ⟨(.ok a, t), hx, hk⟩

/-- Whether `y` does after `x` what `x` did, with objects from the cache alone: from whatever cache
extends the one that `x` left. -/
def Replays (R : α → α' → Prop) (x : PlanM δ α) (y : PlanM δ α') : Prop :=
  ∀ c d a c' d', (x.run (c, d)).result = .ok (.ok a, c', d') → c.Extends c' ∧
    ∀ c₁ d₁, c'.Extends c₁ → ∃ b n, R a b ∧ (y.run (c₁, d₁)).result = .ok (.ok b, c₁.found n, d₁)

theorem Replays.pure {a : α} {b : α'} (h : R a b) :
    Replays R (Pure.pure a : PlanM δ α) (Pure.pure b) := by
  intro c d a' c' d' hx
  cases hx
  exact ⟨.refl c, fun c₁ d₁ _ => ⟨b, 0, h, rfl⟩⟩

theorem Replays.bind {x : PlanM δ α} {y : PlanM δ α'} {k : α → PlanM δ β} {l : α' → PlanM δ β'}
    (hx : Replays R x y) (hk : ∀ a b, R a b → Replays S (k a) (l b)) :
    Replays S (x >>= k) (y >>= l) := by
  intro c d a c'' d'' h
  obtain ⟨a', ⟨c', d'⟩, ha', h⟩ := bind_ok_iff.1 h
  obtain ⟨hextends, hreplay⟩ := hx c d a' c' d' ha'
  -- every result of `x` has its counterpart, so what follows can be taken with any of them
  obtain ⟨b₀, -, hb₀, -⟩ := hreplay c' d' (.refl c')
  have hextends' := (hk a' b₀ hb₀ c' d' a c'' d'' h).1
  refine ⟨hextends.trans hextends', fun c₁ d₁ hc₁ => ?_⟩
  obtain ⟨b', m, hb', hy⟩ := hreplay c₁ d₁ (hextends'.trans hc₁)
  obtain ⟨b, n, hb, hl⟩ := (hk a' b' hb' c' d' a c'' d'' h).2 (c₁.found m) d₁ (hc₁.found m)
  refine ⟨b, m + n, hb, bind_ok_iff.2 ⟨b', _, hy, ?_⟩⟩
  rw [← ObjectCache.found_found]
  exact hl

theorem Replays.foldlM {γ : Type} {step : β → γ → PlanM δ β} {step' : β' → γ → PlanM δ β'}
    (hstep : ∀ b b' x, S b b' → Replays S (step b x) (step' b' x)) (l : List γ) {b : β} {b' : β'}
    (hb : S b b') : Replays S (l.foldlM step b) (l.foldlM step' b') := by
  induction l generalizing b b' with
  | nil => exact .pure hb
  | cons x l ih =>
    rw [List.foldlM_cons, List.foldlM_cons]
    exact (hstep b b' x hb).bind fun _ _ hb => ih hb

theorem traced_ok_iff {x : Traced α} {s s' : ObjectCache × δ} {a : α} :
    ((PlanM.traced x : PlanM δ α).run s).result = .ok (.ok a, s') ↔ x.result = .ok a ∧ s' = s := by
  show (x >>= fun a => Pure.pure (Except.ok a, s)).result = Except.ok (Except.ok a, s') ↔ _
  rw [Traced.result_bind, Except.bind_eq_ok_iff]
  constructor
  · rintro ⟨a', ha', h⟩
    cases h
    exact ⟨ha', rfl⟩
  · rintro ⟨ha, rfl⟩
    exact ⟨a, ha, rfl⟩

/-- What needs no object is done again as it was. -/
theorem Replays.traced (x : Traced α) : Replays (δ := δ) Eq (PlanM.traced x) (PlanM.traced x) := by
  intro c d a c' d' h
  obtain ⟨ha, hs⟩ := traced_ok_iff.1 h
  cases hs
  exact ⟨.refl c, fun c₁ d₁ _ => ⟨a, 0, rfl, traced_ok_iff.2 ⟨ha, rfl⟩⟩⟩

/-- The object of a description is made only once. -/
theorem Replays.object [Device δ] (desc : ObjectDesc) :
    Replays (δ := δ) Eq (PlanM.object desc) (PlanM.object desc) := by
  intro c d h c' d' hx
  obtain ⟨hextends, hfind⟩ := ObjectCache.getOrCreate_ok (Except.ok.inj hx)
  refine ⟨hextends, fun c₁ d₁ hc₁ => ⟨h, 1, rfl, ?_⟩⟩
  have hget := ObjectCache.getOrCreate_of_find (hc₁ desc h hfind) d₁
  exact congrArg Except.ok hget

end PlanM

end FrameGraph
