import FrameGraph.Proofs.Outcomes
import FrameGraph.Shader.Binding

/-!
# What a declared binding is

Which words of a declaration count depends on its class of resource. `DeclaredBinding.Means` says to
what descriptor type and detail they come, `DeclaredBinding.Refuses` which of them is not known.
`ShaderBinding.resolve` finds the one or the other (`ShaderBinding.resolve_eq_ok_iff`,
`ShaderBinding.refuses_of_resolve`), and no declaration has both
(`DeclaredBinding.Means.not_refuses`).
-/

set_option autoImplicit false

namespace FrameGraph

/-! ## Computations that stop -/

section

variable {ε ε' α β : Type}

theorem Except.bind_eq_error_iff {x : Except ε α} {f : α → Except ε β} {e : ε} :
    x >>= f = .error e ↔ x = .error e ∨ ∃ a, x = .ok a ∧ f a = .error e := by
  cases x with
  | error e' => simp [bind, Except.bind]
  | ok a => simp [bind, Except.bind]

theorem Except.map_eq_error_iff {x : Except ε α} {f : α → β} {e : ε} :
    f <$> x = .error e ↔ x = .error e := by
  cases x with
  | error e' => simp [Functor.map, Except.map]
  | ok a => simp [Functor.map, Except.map]

theorem Except.mapError_eq_ok_iff {x : Except ε α} {f : ε → ε'} {a : α} :
    x.mapError f = .ok a ↔ x = .ok a := by
  cases x <;> simp [Except.mapError]

theorem Except.mapError_eq_error_iff {x : Except ε α} {f : ε → ε'} {e : ε'} :
    x.mapError f = .error e ↔ ∃ e', x = .error e' ∧ e = f e' := by
  cases x <;> simp [Except.mapError, eq_comm]

/-- A traversal stops at a member that stops it. -/
theorem exists_of_mapM_error {f : α → Except ε β} {l : List α} {e : ε}
    (h : l.mapM f = .error e) : ∃ a ∈ l, f a = .error e := by
  induction l with
  | nil => cases h
  | cons a l ih =>
    rw [List.mapM_cons, Except.bind_eq_error_iff] at h
    obtain ha | ⟨b, -, h⟩ := h
    · exact ⟨a, List.mem_cons_self, ha⟩
    · obtain hl | ⟨bs, -, h⟩ := Except.bind_eq_error_iff.1 h
      · obtain ⟨a', ha', h⟩ := ih hl
        exact ⟨a', List.mem_cons_of_mem a ha', h⟩
      · cases h

/-- Where a fold stops, the members in front of it went through. -/
theorem exists_of_foldlM_error {f : β → α → Except ε β} {l : List α} {b : β} {e : ε}
    (h : l.foldlM f b = .error e) :
    ∃ xs a ys c, l = xs ++ a :: ys ∧ xs.foldlM f b = .ok c ∧ f c a = .error e := by
  induction l generalizing b with
  | nil => cases h
  | cons a l ih =>
    rw [List.foldlM_cons, Except.bind_eq_error_iff] at h
    obtain ha | ⟨c, hc, h⟩ := h
    · exact ⟨[], a, l, b, rfl, rfl, ha⟩
    · obtain ⟨xs, a', ys, c', rfl, hxs, ha'⟩ := ih h
      exact ⟨a :: xs, a', ys, c', rfl, by rw [List.foldlM_cons, hc]; exact hxs, ha'⟩

end

open ShaderBinding (bufferUsages imageUsages dimensions formats)

namespace DeclaredBinding

variable {d : DeclaredBinding} {name : String}

/-- The words of `d` that its class of resource uses are known, and come to this descriptor type and
this detail. -/
inductive Means (d : DeclaredBinding) : DescriptorType → BindingDetail → Prop
  | buffer {type : DescriptorType} {elements : List BufferElement}
      (hclass : d.resource = .buffer)
      (helements : List.Forall₂ (fun e b => ElementType.parse? e.type = some b.type ∧
        b.count = e.count) d.elements elements)
      (husage : bufferUsages.lookup (d.usage.getD "uniform") = some type) :
      Means d type (.buffer elements)
  | image {type : DescriptorType} {viewType : ViewType} {format : Option Format}
      (hclass : d.resource = .image)
      (husage : imageUsages.lookup (d.usage.getD "sampled") = some type)
      (hdimension : dimensions.lookup (d.dimension.getD "2d") = some viewType)
      (hformat : d.format.map (List.lookup · formats) = format.map some) :
      Means d type (.image viewType format)
  | sampler (hclass : d.resource = .sampler) : Means d .sampler (.sampler d.immutable)
  | bindless {type : DescriptorType} (hclass : d.resource = .bindless)
      (husage : (imageUsages.lookup (d.usage.getD "combined")).or
        (bufferUsages.lookup (d.usage.getD "combined")) = some type) :
      Means d type .bindless

/-- A word of `d` that its class of resource uses is not known. `name` is the binding's. -/
inductive Refuses (d : DeclaredBinding) (name : String) : BindingError → Prop
  | elementType {e : DeclaredElement} (hclass : d.resource = .buffer) (he : e ∈ d.elements)
      (hword : ElementType.parse? e.type = none) : Refuses d name (.unknownElementType name e.type)
  | bufferUsage (hclass : d.resource = .buffer)
      (hword : bufferUsages.lookup (d.usage.getD "uniform") = none) :
      Refuses d name (.unknownBufferUsage (d.usage.getD "uniform"))
  | imageUsage (hclass : d.resource = .image)
      (hword : imageUsages.lookup (d.usage.getD "sampled") = none) :
      Refuses d name (.unknownImageUsage (d.usage.getD "sampled"))
  | dimension (hclass : d.resource = .image)
      (hword : dimensions.lookup (d.dimension.getD "2d") = none) :
      Refuses d name (.unknownDimension (d.dimension.getD "2d"))
  | format {word : String} (hclass : d.resource = .image) (hgiven : d.format = some word)
      (hword : formats.lookup word = none) : Refuses d name (.unknownFormat word)
  | bindlessUsage (hclass : d.resource = .bindless)
      (himage : imageUsages.lookup (d.usage.getD "combined") = none)
      (hbuffer : bufferUsages.lookup (d.usage.getD "combined") = none) :
      Refuses d name (.unknownBufferUsage (d.usage.getD "combined"))

theorem Means.not_refuses {type : DescriptorType} {detail : BindingDetail} {cause : BindingError}
    (h : d.Means type detail) : ¬ d.Refuses name cause := by
  intro hr
  cases h with
  | buffer hclass helements husage =>
    cases hr with
    | elementType _ he hword =>
      obtain ⟨b, -, hb, -⟩ := exists_right_of_mem helements he
      rw [hword] at hb
      cases hb
    | bufferUsage _ hword =>
      rw [hword] at husage
      cases husage
    | imageUsage h | dimension h | format h | bindlessUsage h => rw [hclass] at h; cases h
  | image hclass husage hdimension hformat =>
    cases hr with
    | imageUsage _ hword =>
      rw [hword] at husage
      cases husage
    | dimension _ hword =>
      rw [hword] at hdimension
      cases hdimension
    | @format word _ hgiven hword =>
      rw [hgiven, Option.map_some, hword] at hformat
      obtain ⟨f, -, hf⟩ := Option.map_eq_some_iff.1 hformat.symm
      cases hf
    | elementType h | bufferUsage h | bindlessUsage h => rw [hclass] at h; cases h
  | sampler hclass =>
    cases hr with
    | elementType h | bufferUsage h | imageUsage h | dimension h | format h | bindlessUsage h =>
      rw [hclass] at h
      cases h
  | bindless hclass husage =>
    cases hr with
    | bindlessUsage _ himage hbuffer =>
      rw [himage, hbuffer] at husage
      cases husage
    | elementType h | bufferUsage h | imageUsage h | dimension h | format h =>
      rw [hclass] at h
      cases h

end DeclaredBinding

namespace ShaderBinding

variable {d : DeclaredBinding} {name : String}

theorem lookUp_eq_ok_iff {α : Type} {table : List (String × α)} {error : String → BindingError}
    {word : String} {a : α} : lookUp table error word = .ok a ↔ table.lookup word = some a := by
  unfold lookUp
  cases table.lookup word <;> simp

theorem lookUp_eq_error_iff {α : Type} {table : List (String × α)} {error : String → BindingError}
    {word : String} {cause : BindingError} :
    lookUp table error word = .error cause ↔ table.lookup word = none ∧ cause = error word := by
  unfold lookUp
  cases table.lookup word <;> simp [eq_comm]

theorem elements_eq_ok_iff {declared : List DeclaredElement} {es : List BufferElement} :
    elements name declared = .ok es ↔ List.Forall₂ (fun e b =>
      ElementType.parse? e.type = some b.type ∧ b.count = e.count) declared es := by
  rw [elements, mapM_eq_ok_iff]
  refine iff_of_eq (congrArg (List.Forall₂ · declared es) (funext₂ fun e b => propext ?_))
  obtain ⟨type, count⟩ := b
  cases ElementType.parse? e.type <;> simp [eq_comm]

theorem exists_of_elements_error {declared : List DeclaredElement} {cause : BindingError}
    (h : elements name declared = .error cause) : ∃ e ∈ declared,
      ElementType.parse? e.type = none ∧ cause = .unknownElementType name e.type := by
  obtain ⟨e, he, h⟩ := exists_of_mapM_error h
  refine ⟨e, he, ?_⟩
  split at h
  · cases h
  · next hparse => exact ⟨hparse, (Except.error.inj h).symm⟩

/-- The format of an image may be left out. -/
theorem format_eq_ok_iff {given : Option String} {format : Option Format} :
    given.mapM (lookUp formats .unknownFormat) = .ok format ↔
      given.map (List.lookup · formats) = format.map some := by
  cases given with
  | none =>
    change Except.ok none = .ok format ↔ none = format.map some
    cases format <;> simp
  | some word =>
    change some <$> lookUp formats .unknownFormat word = .ok format ↔ _
    simp only [Except.map_eq_ok_iff, lookUp_eq_ok_iff, Option.map_some]
    cases format <;> simp

/-- **A declaration resolves to what it means**, under every name. -/
theorem resolve_eq_ok_iff {type : DescriptorType} {detail : BindingDetail} :
    resolve name d = .ok (type, detail) ↔ d.Means type detail := by
  constructor
  · intro h
    unfold resolve at h
    split at h
    · next hclass =>
      obtain ⟨es, hes, h⟩ := Except.bind_eq_ok_iff.1 h
      obtain ⟨t, ht, h⟩ := Except.bind_eq_ok_iff.1 h
      cases h
      exact .buffer hclass (elements_eq_ok_iff.1 hes) (lookUp_eq_ok_iff.1 ht)
    · next hclass =>
      obtain ⟨t, ht, h⟩ := Except.bind_eq_ok_iff.1 h
      obtain ⟨v, hv, h⟩ := Except.bind_eq_ok_iff.1 h
      obtain ⟨f, hf, h⟩ := Except.bind_eq_ok_iff.1 h
      cases h
      exact .image hclass (lookUp_eq_ok_iff.1 ht) (lookUp_eq_ok_iff.1 hv) (format_eq_ok_iff.1 hf)
    · next hclass =>
      cases h
      exact .sampler hclass
    · next hclass =>
      obtain ⟨t, ht, h⟩ := Except.bind_eq_ok_iff.1 h
      cases h
      exact .bindless hclass (List.lookup_append.symm.trans (lookUp_eq_ok_iff.1 ht))
  · intro h
    unfold resolve
    cases h with
    | buffer hclass helements husage =>
      rw [hclass]
      exact Except.bind_eq_ok_iff.2 ⟨_, elements_eq_ok_iff.2 helements,
        Except.bind_eq_ok_iff.2 ⟨_, lookUp_eq_ok_iff.2 husage, rfl⟩⟩
    | image hclass husage hdimension hformat =>
      rw [hclass]
      exact Except.bind_eq_ok_iff.2 ⟨_, lookUp_eq_ok_iff.2 husage,
        Except.bind_eq_ok_iff.2 ⟨_, lookUp_eq_ok_iff.2 hdimension,
          Except.bind_eq_ok_iff.2 ⟨_, format_eq_ok_iff.2 hformat, rfl⟩⟩⟩
    | sampler hclass => rw [hclass]; rfl
    | bindless hclass husage =>
      rw [hclass]
      exact Except.bind_eq_ok_iff.2
        ⟨_, lookUp_eq_ok_iff.2 (List.lookup_append.trans husage), rfl⟩

/-- **What does not resolve has a word that is not known**, and the error names it. -/
theorem refuses_of_resolve {cause : BindingError} (h : resolve name d = .error cause) :
    d.Refuses name cause := by
  unfold resolve at h
  split at h
  · next hclass =>
    obtain h | ⟨_, -, h⟩ := Except.bind_eq_error_iff.1 h
    · obtain ⟨e, he, hparse, rfl⟩ := exists_of_elements_error h
      exact .elementType hclass he hparse
    · obtain h | ⟨_, -, h⟩ := Except.bind_eq_error_iff.1 h
      · obtain ⟨hword, rfl⟩ := lookUp_eq_error_iff.1 h
        exact .bufferUsage hclass hword
      · cases h
  · next hclass =>
    obtain h | ⟨_, -, h⟩ := Except.bind_eq_error_iff.1 h
    · obtain ⟨hword, rfl⟩ := lookUp_eq_error_iff.1 h
      exact .imageUsage hclass hword
    · obtain h | ⟨_, -, h⟩ := Except.bind_eq_error_iff.1 h
      · obtain ⟨hword, rfl⟩ := lookUp_eq_error_iff.1 h
        exact .dimension hclass hword
      · obtain h | ⟨_, -, h⟩ := Except.bind_eq_error_iff.1 h
        · cases hgiven : d.format with
          | none =>
            rw [hgiven] at h
            cases h
          | some word =>
            rw [hgiven] at h
            obtain ⟨hword, rfl⟩ := lookUp_eq_error_iff.1 (Except.map_eq_error_iff.1 h)
            exact .format hclass hgiven hword
        · cases h
  · cases h
  · next hclass =>
    obtain h | ⟨_, -, h⟩ := Except.bind_eq_error_iff.1 h
    · obtain ⟨hword, rfl⟩ := lookUp_eq_error_iff.1 h
      obtain ⟨himage, hbuffer⟩ := Option.or_eq_none_iff.1 (List.lookup_append.symm.trans hword)
      exact .bindlessUsage hclass himage hbuffer
    · cases h

/-- A binding has what its declaration means, and the rest as declared. -/
theorem of_ofDeclared {visibility : ShaderStages} {b : ShaderBinding}
    (h : ofDeclared name d visibility = .ok b) : ∃ type detail, d.Means type detail ∧
      b = ⟨name, d.slot, visibility, d.rate, d.count, type, detail⟩ := by
  obtain ⟨⟨type, detail⟩, hresolve, h⟩ := Except.bind_eq_ok_iff.1 h
  exact ⟨type, detail, resolve_eq_ok_iff.1 hresolve, (Except.ok.inj h).symm⟩

theorem refuses_of_ofDeclared {visibility : ShaderStages} {cause : BindingError}
    (h : ofDeclared name d visibility = .error cause) : d.Refuses name cause := by
  obtain h | ⟨_, -, h⟩ := Except.bind_eq_error_iff.1 h
  · exact refuses_of_resolve h
  · cases h

end ShaderBinding

/-- A declaration means one thing. -/
theorem DeclaredBinding.Means.unique {d : DeclaredBinding} {type type' : DescriptorType}
    {detail detail' : BindingDetail} (h : d.Means type detail) (h' : d.Means type' detail') :
    type = type' ∧ detail = detail' := by
  have heq : ShaderBinding.resolve "" d = .ok (type, detail) := ShaderBinding.resolve_eq_ok_iff.2 h
  rw [ShaderBinding.resolve_eq_ok_iff.2 h'] at heq
  obtain ⟨rfl, rfl⟩ := Prod.mk.inj (Except.ok.inj heq)
  exact ⟨rfl, rfl⟩

end FrameGraph
