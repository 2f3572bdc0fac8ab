import FrameGraph.Trace
import Mathlib.Data.List.Forall2

/-!
# Computations that do not stop

What is known of the members of a sequence, a fold or a traversal that gives a result:
`Except.bind_eq_ok_iff`, `foldlM_inv`, `mapM_eq_ok_iff`. `Traced.result_foldlM` and
`Traced.result_mapM` carry this over to computations that report.
-/

set_option autoImplicit false

namespace FrameGraph

variable {ε α β : Type}

theorem Except.bind_eq_ok_iff {x : Except ε α} {f : α → Except ε β} {b : β} :
    x >>= f = .ok b ↔ ∃ a, x = .ok a ∧ f a = .ok b := by
  cases x with
  | error e => simp [bind, Except.bind]
  | ok a => simp [bind, Except.bind]

theorem Except.map_eq_ok_iff {x : Except ε α} {f : α → β} {b : β} :
    f <$> x = .ok b ↔ ∃ a, x = .ok a ∧ f a = b := by
  cases x with
  | error e => simp [Functor.map, Except.map]
  | ok a => simp [Functor.map, Except.map]

theorem Except.eq_ok_of_toOption {x : Except ε α} {a : α} (h : x.toOption = some a) :
    x = .ok a := by
  cases x with
  | error e => cases h
  | ok b => rw [Option.some.inj h]

/-- What every step of a fold keeps, the fold keeps. -/
theorem foldlM_inv {P : β → Prop} {f : β → α → Except ε β} {l : List α} {b b' : β}
    (hf : ∀ b a b', P b → f b a = .ok b' → P b') (h : l.foldlM f b = .ok b') (hb : P b) :
    P b' := by
  induction l generalizing b with
  | nil =>
    rw [List.foldlM_nil] at h
    obtain rfl := Except.ok.inj h
    exact hb
  | cons a l ih =>
    rw [List.foldlM_cons, Except.bind_eq_ok_iff] at h
    obtain ⟨c, hc, h⟩ := h
    exact ih h (hf b a c hb hc)

/-- A fold whose steps are those of another, seen through `φ`, ends as that fold does. -/
theorem foldlM_ok_map {γ : Type} {f : β → α → Except ε β} {g : γ → α → Except ε γ} {φ : β → γ}
    {l : List α} {b b' : β} (hfg : ∀ b a b', f b a = .ok b' → g (φ b) a = .ok (φ b'))
    (h : l.foldlM f b = .ok b') : l.foldlM g (φ b) = .ok (φ b') := by
  induction l generalizing b with
  | nil =>
    obtain rfl := Except.ok.inj h
    rfl
  | cons a l ih =>
    rw [List.foldlM_cons, Except.bind_eq_ok_iff] at h ⊢
    obtain ⟨c, hc, h⟩ := h
    exact ⟨φ c, hfg b a c hc, ih h⟩

/-- A fold whose steps are those of another, seen through `φ`, is that fold seen through `φ`. -/
theorem foldlM_map {γ : Type} {f : β → α → Except ε β} {g : γ → α → Except ε γ} {φ : β → γ}
    (hfg : ∀ b a, g (φ b) a = (f b a).map φ) (l : List α) (b : β) :
    l.foldlM g (φ b) = (l.foldlM f b).map φ := by
  induction l generalizing b with
  | nil => rfl
  | cons a l ih =>
    rw [List.foldlM_cons, List.foldlM_cons, hfg]
    cases f b a with
    | error e => rfl
    | ok c => exact ih c

theorem mapM_eq_ok_iff {f : α → Except ε β} {l : List α} {bs : List β} :
    l.mapM f = .ok bs ↔ List.Forall₂ (fun a b => f a = .ok b) l bs := by
  induction l generalizing bs with
  | nil =>
    rw [List.mapM_nil, List.forall₂_nil_left_iff]
    exact ⟨fun h => (Except.ok.inj h).symm, fun h => by rw [h]; rfl⟩
  | cons a l ih =>
    simp only [List.mapM_cons, Except.bind_eq_ok_iff, List.forall₂_cons_left_iff, ih]
    constructor
    · rintro ⟨b, hb, bs', hbs', h⟩
      exact ⟨b, bs', hb, hbs', (Except.ok.inj h).symm⟩
    · rintro ⟨b, bs', hb, hbs', rfl⟩
      exact ⟨b, hb, bs', hbs', rfl⟩

theorem filterMapM_eq_ok {f : α → Except ε (Option β)} {g : α → Option β}
    (hf : ∀ a, f a = .ok (g a)) (l : List α) : l.filterMapM f = .ok (l.filterMap g) := by
  induction l with
  | nil => rfl
  | cons a l ih =>
    rw [List.filterMapM_cons, hf]
    cases hg : g a with
    | none =>
      rw [List.filterMap_cons_none hg]
      exact ih
    | some b =>
      rw [List.filterMap_cons_some hg]
      exact Except.bind_eq_ok_iff.2 ⟨some b, rfl, Except.bind_eq_ok_iff.2 ⟨_, ih, rfl⟩⟩

/-- Where a traversal pairs two lists, they have the same positions. -/
theorem forall₂_getElem? {R : α → β → Prop} {l : List α} {l' : List β} (h : List.Forall₂ R l l')
    {i : Nat} {a : α} (ha : l[i]? = some a) : ∃ b, l'[i]? = some b ∧ R a b := by
  induction h generalizing i with
  | nil => simp at ha
  | cons hab _ ih =>
    cases i with
    | zero =>
      obtain rfl := Option.some.inj ha
      exact ⟨_, rfl, hab⟩
    | succ i => exact ih ha

theorem exists_left_of_mem {R : α → β → Prop} {l : List α} {l' : List β} (h : List.Forall₂ R l l')
    {b : β} (hb : b ∈ l') : ∃ a ∈ l, R a b := by
  obtain ⟨i, hi⟩ := List.mem_iff_getElem?.1 hb
  obtain ⟨a, ha, hab⟩ := forall₂_getElem? h.flip hi
  exact ⟨a, List.mem_of_getElem? ha, hab⟩

theorem exists_right_of_mem {R : α → β → Prop} {l : List α} {l' : List β} (h : List.Forall₂ R l l')
    {a : α} (ha : a ∈ l) : ∃ b ∈ l', R a b := by
  obtain ⟨i, hi⟩ := List.mem_iff_getElem?.1 ha
  obtain ⟨b, hb, hab⟩ := forall₂_getElem? h hi
  exact ⟨b, List.mem_of_getElem? hb, hab⟩

/-- What stands in a list with one more member stood in the list, or is that member. -/
theorem getElem?_concat_cases {l : List α} {a b : α} {i : Nat} (h : (l ++ [a])[i]? = some b) :
    l[i]? = some b ∨ i = l.length ∧ b = a := by
  have hlt := (List.getElem?_eq_some_iff.1 h).1
  rw [List.length_append, List.length_singleton] at hlt
  rcases Nat.lt_succ_iff_lt_or_eq.1 hlt with hi | rfl
  · rw [List.getElem?_append_left hi] at h
    exact .inl h
  · rw [List.getElem?_concat_length] at h
    exact .inr ⟨rfl, (Option.some.inj h).symm⟩

/-- What looks only at parts that a change keeps does not see it. -/
theorem map_modify {f : α → α} {g : α → β} (hfg : ∀ a, g (f a) = g a) (l : List α) (i : Nat) :
    (l.modify i f).map g = l.map g := by
  refine List.ext_getElem? fun j => ?_
  rw [List.getElem?_map, List.getElem?_modify, List.getElem?_map]
  cases l[j]? with
  | none => rfl
  | some a =>
    by_cases hij : i = j
    · simp [hij, hfg]
    · simp [hij]

/-- What is paired with a joined list falls into two parts. -/
theorem forall₂_append_left {R : α → β → Prop} {xs ys : List α} {l : List β}
    (h : List.Forall₂ R (xs ++ ys) l) :
    ∃ us vs, l = us ++ vs ∧ List.Forall₂ R xs us ∧ List.Forall₂ R ys vs := by
  have hxs := List.forall₂_take xs.length h
  have hys := List.forall₂_drop xs.length h
  rw [List.take_left] at hxs
  rw [List.drop_left] at hys
  exact ⟨_, _, (List.take_append_drop _ _).symm, hxs, hys⟩

namespace Traced

instance : LawfulMonad Traced := by
  refine LawfulMonad.mk' Traced ?_ ?_ ?_
  · rintro α ⟨log, result⟩
    cases result <;> simp [Functor.map, Traced.bind, Traced.pure]
  · intro α β a f
    simp [bind, Traced.bind, pure, Traced.pure]
  · rintro α β γ ⟨log, result⟩ f g
    cases result with
    | error e => rfl
    | ok a => cases h : (f a).result <;> simp [bind, Traced.bind, h]

theorem result_map (f : α → β) (x : Traced α) : (f <$> x).result = f <$> x.result := by
  rw [← bind_pure_comp, result_bind]
  cases x.result <;> rfl

theorem result_foldlM (f : β → α → Traced β) (l : List α) (b : β) :
    (l.foldlM f b).result = l.foldlM (fun b a => (f b a).result) b := by
  induction l generalizing b with
  | nil => rfl
  | cons a l ih =>
    rw [List.foldlM_cons, List.foldlM_cons, result_bind]
    exact congrArg _ (funext fun c => ih c)

theorem result_mapM (f : α → Traced β) (l : List α) :
    (l.mapM f).result = l.mapM fun a => (f a).result := by
  induction l with
  | nil => rfl
  | cons a l ih => simp [result_map, ih]

end Traced

end FrameGraph
