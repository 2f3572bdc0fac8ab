import FrameGraph.Proofs.AgreeingSlots
import FrameGraph.Proofs.JsonTrees
import FrameGraph.Proofs.ShaderCompiles

/-!
# Renderings of layout documents

A record is rendered as an object of its fields, in any order and with fields left out that hold
their defaults. Every JSON text of every rendering of a document is read as this document. One more
member in one of its objects, with a key that is not the name of a field or stands there already,
makes the text one of no document (`parse?_of_renders`).
-/

set_option autoImplicit false

namespace FrameGraph

open Json (Value Tree)

/-! ## Renderings -/

/-- A field of a record: its key, the values that write it, and whether it may be left out. -/
structure Field where
  key : String
  Writes : Value → Prop
  MayMiss : Prop

namespace Field

def required (key : String) (Writes : Value → Prop) : Field := ⟨key, Writes, False⟩

def defaulted {α : Type} (key : String) (default x : α) (Writes : α → Value → Prop) : Field :=
  ⟨key, Writes x, x = default⟩

/-- Whether the field may be found written like that, or missing. -/
def Allows (f : Field) : Option Value → Prop
  | none => f.MayMiss
  | some v => f.Writes v

end Field

/-- Whether the members of an object write the fields of a record. -/
structure WritesFields (fields : List Field) (members : List (String × Value)) : Prop where
  nodup : (members.map (·.1)).Nodup
  written : ∀ m ∈ members, ∃ f ∈ fields, f.key = m.1 ∧ f.Writes m.2
  missing : ∀ f ∈ fields, f.key ∉ members.map (·.1) → f.MayMiss

def IsRecord (fields : List Field) (v : Value) : Prop :=
  ∃ members, v = .object members ∧ WritesFields fields members

def IsNumber (n : Nat) (v : Value) : Prop := v = .number n

def IsBool (b : Bool) (v : Value) : Prop := v = .bool b

def IsString (s : String) (v : Value) : Prop := v = .string s

def IsList {α : Type} (Writes : α → Value → Prop) (xs : List α) (v : Value) : Prop :=
  ∃ items, v = .array items ∧ List.Forall₂ Writes xs items

def IsNullable {α : Type} (Writes : α → Value → Prop) : Option α → Value → Prop
  | none, v => v = .null
  | some x, v => Writes x v

/-- The word for a class of resources. -/
def ResourceClass.word : ResourceClass → String
  | buffer => "buffer"
  | image => "image"
  | sampler => "sampler"
  | bindless => "bindless"

/-- The word for an update rate. -/
def UpdateRate.word : UpdateRate → String
  | frame => "frame"
  | pass => "pass"
  | batch => "batch"
  | draw => "draw"

def IsElement (e : DeclaredElement) : Value → Prop :=
  IsRecord [.required "type" (IsString e.type), .defaulted "count" 1 e.count IsNumber]

def IsBinding (d : DeclaredBinding) : Value → Prop :=
  IsRecord [
    .required "slot" (IsNumber d.slot),
    .required "resource" (IsString d.resource.word),
    .defaulted "name" none d.name (IsNullable IsString),
    .defaulted "usage" none d.usage (IsNullable IsString),
    .defaulted "rate" .frame d.rate fun r => IsString r.word,
    .defaulted "count" 1 d.count IsNumber,
    .defaulted "elements" [] d.elements (IsList IsElement),
    .defaulted "type" none d.dimension (IsNullable IsString),
    .defaulted "format" none d.format (IsNullable IsString),
    .defaulted "immutable" false d.immutable IsBool]

def IsSection (ds : List DeclaredBinding) : Value → Prop :=
  IsRecord [.defaulted "bindings" [] ds (IsList IsBinding)]

namespace LayoutDocument

def IsDocument (doc : LayoutDocument) : Value → Prop :=
  IsRecord [
    .defaulted "bindings" [] doc.bindings (IsList IsBinding),
    .defaulted "vertex" none doc.vertex (IsNullable IsSection),
    .defaulted "fragment" none doc.fragment (IsNullable IsSection),
    .defaulted "compute" none doc.compute (IsNullable IsSection),
    .defaulted "task" none doc.task (IsNullable IsSection),
    .defaulted "mesh" none doc.mesh (IsNullable IsSection)]

/-- Whether the tree is a rendering of the document. -/
def Renders (doc : LayoutDocument) (tree : Tree) : Prop :=
  ∃ v, tree.value? = some v ∧ doc.IsDocument v

/-- Whether all numbers of the document fit 32 bits. -/
def Fits (doc : LayoutDocument) : Prop := ∀ d ∈ doc.declared,
  d.slot < Text.bound32 ∧ d.count < Text.bound32 ∧ ∀ e ∈ d.elements, e.count < Text.bound32

/-! ## Reading of renderings -/

section
variable {α : Type} (read : Value → Option α) {key : String} {slot : Option Value} {v : Value}

/-- **The fields of a record are found** in any order. -/
theorem fields?_of_writesFields {fields : List Field} {members : List (String × Value)}
    (names : List String) (hnames : fields.map Field.key = names) (hdistinct : names.Nodup)
    (h : WritesFields fields members) :
    ∃ slots, fields? names (.object members) = some slots ∧
      List.Forall₂ Field.Allows fields slots := by
  subst hnames
  have hknown : ∀ k ∈ members.map (·.1), k ∈ fields.map Field.key := by
    intro k hk
    obtain ⟨m, hm, rfl⟩ := List.mem_map.1 hk
    obtain ⟨f, hf, hkey, -⟩ := h.written m hm
    exact hkey ▸ List.mem_map_of_mem hf
  refine ⟨_, if_pos ⟨h.nodup, hknown⟩, ?_⟩
  rw [List.map_map, List.forall₂_map_right_iff, List.forall₂_same]
  intro f hf
  show f.Allows (members.lookup f.key)
  cases hlookup : members.lookup f.key with
  | none =>
    refine h.missing f hf fun hmem => ?_
    obtain ⟨m, hm, hkey⟩ := List.mem_map.1 hmem
    exact bne_iff_ne.1 (List.lookup_eq_none_iff.1 hlookup m hm) hkey.symm
  | some v =>
    obtain ⟨before, behind, rfl, -⟩ := List.lookup_eq_some_iff.1 hlookup
    obtain ⟨f', hf', hkey, hwrites⟩ := h.written (f.key, v) List.mem_append_cons_self
    rwa [List.inj_on_of_nodup_map hdistinct hf' hf hkey] at hwrites

theorem required?_of_allows {Writes : Value → Prop} {x : α}
    (h : (Field.required key Writes).Allows slot) (hread : ∀ v, Writes v → read v = some x) :
    required? read slot = some x := by
  cases slot with
  | none => exact h.elim
  | some v => exact hread v h

theorem defaulted?_of_allows {Writes : α → Value → Prop} {default x : α}
    (h : (Field.defaulted key default x Writes).Allows slot)
    (hread : ∀ v, Writes x v → read v = some x) : defaulted? default read slot = some x := by
  cases slot with
  | none =>
    obtain rfl : x = default := h
    rfl
  | some v => exact hread v h

theorem number?_of_isNumber {n : Nat} (hn : n < Text.bound32) (h : IsNumber n v) :
    number? v = some n := by
  rw [h, number?, if_pos hn]

theorem list?_of_isList {Writes : α → Value → Prop} {xs : List α}
    (hread : ∀ x ∈ xs, ∀ v, Writes x v → read v = some x) (h : IsList Writes xs v) :
    list? read v = some xs := by
  obtain ⟨items, rfl, hitems⟩ := h
  rw [list?]
  induction hitems with
  | nil => rfl
  | cons hx _ ih =>
    obtain ⟨hread, hmore⟩ := List.forall_mem_cons.1 hread
    rw [List.mapM_cons, hread _ hx, ih hmore]
    rfl

theorem nullable?_of_isNullable {Writes : α → Value → Prop} {x : Option α}
    (hread : ∀ y ∈ x, ∀ v, Writes y v → v ≠ .null ∧ read v = some y) (h : IsNullable Writes x v) :
    nullable? read v = some x := by
  cases x with
  | none =>
    obtain rfl : v = .null := h
    rfl
  | some y =>
    obtain ⟨hnull, hv⟩ := hread y rfl v h
    unfold nullable?
    split
    · exact absurd rfl hnull
    · rw [hv, Option.map_some]

/-- A string that may be null. -/
theorem nullableString?_of {x : Option String} (h : IsNullable IsString x v) :
    nullable? string? v = some x :=
  nullable?_of_isNullable string? (fun y _ v hv => by
    obtain rfl : v = .string y := hv
    exact ⟨Value.noConfusion, rfl⟩) h

end

theorem resourceClass?_word (c : ResourceClass) : resourceClass? (.string c.word) = some c := by
  cases c <;> decide

theorem updateRate?_word (r : UpdateRate) : updateRate? (.string r.word) = some r := by
  cases r <;> decide

/-- **A rendering of a member is read as the member.** -/
theorem element?_of_isElement {e : DeclaredElement} {v : Value} (hcount : e.count < Text.bound32)
    (h : IsElement e v) : element? v = some e := by
  obtain ⟨members, rfl, h⟩ := h
  obtain ⟨slots, hfields, hallows⟩ :=
    fields?_of_writesFields ["type", "count"] rfl (by decide) h
  simp only [List.forall₂_cons_left_iff, List.forall₂_nil_left_iff] at hallows
  obtain ⟨type, -, htype, ⟨count, -, hc, rfl, rfl⟩, rfl⟩ := hallows
  have htype := required?_of_allows string? htype (x := e.type) fun v hv => by
    rw [hv]
    rfl
  have hc := defaulted?_of_allows number? hc fun v hv => number?_of_isNumber hcount hv
  simp [element?, hfields, htype, hc]

/-- **A rendering of a binding is read as the binding.** -/
theorem binding?_of_isBinding {d : DeclaredBinding} {v : Value} (hslot : d.slot < Text.bound32)
    (hcount : d.count < Text.bound32) (helements : ∀ e ∈ d.elements, e.count < Text.bound32)
    (h : IsBinding d v) : binding? v = some d := by
  obtain ⟨members, rfl, h⟩ := h
  obtain ⟨slots, hfields, hallows⟩ := fields?_of_writesFields ["slot", "resource", "name", "usage",
    "rate", "count", "elements", "type", "format", "immutable"] rfl (by decide) h
  simp only [List.forall₂_cons_left_iff, List.forall₂_nil_left_iff] at hallows
  obtain ⟨slot, -, hs, ⟨resource, -, hr, ⟨name, -, hn, ⟨usage, -, hu, ⟨rate, -, ht, ⟨count, -, hc,
    ⟨elements, -, he, ⟨type, -, hd, ⟨format, -, hf, ⟨immutable, -, hi, rfl, rfl⟩, rfl⟩, rfl⟩, rfl⟩,
    rfl⟩, rfl⟩, rfl⟩, rfl⟩, rfl⟩, rfl⟩ := hallows
  have hs := required?_of_allows number? hs fun v hv => number?_of_isNumber hslot hv
  have hr := required?_of_allows resourceClass? hr (x := d.resource) fun v hv => by
    rw [hv]
    exact resourceClass?_word d.resource
  have hn := defaulted?_of_allows (nullable? string?) hn fun v hv => nullableString?_of hv
  have hu := defaulted?_of_allows (nullable? string?) hu fun v hv => nullableString?_of hv
  have ht := defaulted?_of_allows updateRate? ht fun v hv => by
    rw [hv]
    exact updateRate?_word d.rate
  have hc := defaulted?_of_allows number? hc fun v hv => number?_of_isNumber hcount hv
  have he := defaulted?_of_allows (list? element?) he fun v hv =>
    list?_of_isList element? (fun e hmem v hv => element?_of_isElement (helements e hmem) hv) hv
  have hd := defaulted?_of_allows (nullable? string?) hd fun v hv => nullableString?_of hv
  have hf := defaulted?_of_allows (nullable? string?) hf fun v hv => nullableString?_of hv
  have hi := defaulted?_of_allows bool? hi fun v hv => by
    rw [hv]
    rfl
  simp only [binding?, hfields, hs, hr, hn, hu, ht, hc, he, hd, hf, hi, Option.bind_eq_bind,
    Option.bind_some]

theorem sectionBindings?_of_isSection {ds : List DeclaredBinding} {v : Value}
    (hread : ∀ d ∈ ds, ∀ v, IsBinding d v → binding? v = some d) (h : IsSection ds v) :
    sectionBindings? v = some ds := by
  obtain ⟨members, rfl, h⟩ := h
  obtain ⟨slots, hfields, hallows⟩ :=
    fields?_of_writesFields ["bindings"] rfl (by decide) h
  simp only [List.forall₂_cons_left_iff, List.forall₂_nil_left_iff] at hallows
  obtain ⟨bindings, -, hb, rfl, rfl⟩ := hallows
  have hb := defaulted?_of_allows (list? binding?) hb fun v hv =>
    list?_of_isList binding? hread hv
  simp [sectionBindings?, hfields, hb]

/-- **A rendering of a document is read as the document.** -/
theorem ofValue?_of_isDocument {doc : LayoutDocument} {v : Value} (hfits : doc.Fits)
    (h : doc.IsDocument v) : ofValue? v = some doc := by
  have hread : ∀ d ∈ doc.declared, ∀ v, IsBinding d v → binding? v = some d := fun d hd v hv =>
    binding?_of_isBinding (hfits d hd).1 (hfits d hd).2.1 (hfits d hd).2.2 hv
  have hstage (stage : ShaderStage) {key : String} {slot : Option Value}
      (hslot : (Field.defaulted key none (doc.section? stage) (IsNullable IsSection)).Allows slot) :
      defaulted? none (nullable? sectionBindings?) slot = some (doc.section? stage) := by
    refine defaulted?_of_allows _ hslot fun v hv => nullable?_of_isNullable _ ?_ hv
    intro ds hds v hv
    refine ⟨?_, sectionBindings?_of_isSection (fun d hd => hread d ?_) hv⟩
    · obtain ⟨members, rfl, -⟩ := hv
      exact Value.noConfusion
    · exact mem_declared_iff.2 (.inr ⟨stage, ds, hds, hd⟩)
  obtain ⟨members, rfl, h⟩ := h
  obtain ⟨slots, hfields, hallows⟩ := fields?_of_writesFields
    ["bindings", "vertex", "fragment", "compute", "task", "mesh"] rfl (by decide) h
  simp only [List.forall₂_cons_left_iff, List.forall₂_nil_left_iff] at hallows
  obtain ⟨bindings, -, hb, ⟨vertex, -, hv, ⟨fragment, -, hf, ⟨compute, -, hc, ⟨task, -, ht,
    ⟨mesh, -, hm, rfl, rfl⟩, rfl⟩, rfl⟩, rfl⟩, rfl⟩, rfl⟩ := hallows
  have hb := defaulted?_of_allows (list? binding?) hb fun v hv =>
    list?_of_isList binding? (fun d hd => hread d (mem_declared_iff.2 (.inl hd))) hv
  have hv := hstage .vertex hv
  have hf := hstage .fragment hf
  have hc := hstage .compute hc
  have ht := hstage .task ht
  have hm := hstage .mesh hm
  simp [ofValue?, hfields, hb, hv, hf, hc, ht, hm, section?]

/-! ## One more member -/

/-- The kinds of objects in a document. -/
inductive Level
  | document | stageSection | binding | element

namespace Level

/-- The keys that an object may have. -/
def keys : Level → List String
  | document => ["bindings", "vertex", "fragment", "compute", "task", "mesh"]
  | stageSection => ["bindings"]
  | binding => ["slot", "resource", "name", "usage", "rate", "count", "elements", "type", "format",
      "immutable"]
  | element => ["type", "count"]

/-- The objects of which the list under that key is made. -/
def items? (level : Level) (key : String) : Option Level :=
  match level with
  | document | stageSection => if key = "bindings" then some binding else none
  | binding => if key = "elements" then some element else none
  | element => none

/-- Whether the value is refused as an object of this kind. -/
def Refuses : Level → Value → Prop
  | document, v => ofValue? v = none
  | stageSection, v => sectionBindings? v = none
  | binding, v => binding? v = none
  | element, v => element? v = none

end Level

/-- Whether the second tree is the first with one more member, in the object itself or in one inside
it. The key of the member is not the name of a field there, or another member has it already. -/
inductive AddsMember : Level → Tree → Tree → Prop
  | here {level : Level} {before behind : List (String × Tree)} {key : String} (t : Tree)
      (hkey : key ∉ level.keys ∨ key ∈ (before ++ behind).map (·.1)) :
      AddsMember level (.object (before ++ behind)) (.object (before ++ (key, t) :: behind))
  | inSection {before behind : List (String × Tree)} {key : String} {t t' : Tree}
      (hkey : key ∈ ["vertex", "fragment", "compute", "task", "mesh"])
      (h : AddsMember .stageSection t t') :
      AddsMember .document (.object (before ++ (key, t) :: behind))
        (.object (before ++ (key, t') :: behind))
  | inItem {level below : Level} {before behind : List (String × Tree)} {key : String}
      {ts ts' : List Tree} {t t' : Tree} (hkey : level.items? key = some below)
      (h : AddsMember below t t') :
      AddsMember level (.object (before ++ (key, .array (ts ++ t :: ts')) :: behind))
        (.object (before ++ (key, .array (ts ++ t' :: ts')) :: behind))

section
variable {names : List String} {members : List (String × Value)} {key : String} {v : Value}
  {level : Level}

theorem fields?_object_eq_some {slots : List (Option Value)}
    (h : fields? names (.object members) = some slots) :
    (members.map (·.1)).Nodup ∧ (∀ k ∈ members.map (·.1), k ∈ names) ∧
      slots = names.map fun n => members.lookup n := by
  unfold fields? at h
  dsimp only at h
  split at h
  · next hkeys => exact ⟨hkeys.1, hkeys.2, (Option.some.inj h).symm⟩
  · cases h

/-- Without its fields, an object is refused. -/
theorem Level.refuses_of_fields? (h : fields? level.keys v = none) : level.Refuses v := by
  cases level <;> rw [keys] at h
  · simp only [Refuses, ofValue?, h, Option.bind_eq_bind, Option.bind_none]
  · simp only [Refuses, sectionBindings?, h, Option.bind_eq_bind, Option.bind_none]
  · simp only [Refuses, binding?, h, Option.bind_eq_bind, Option.bind_none]
  · simp only [Refuses, element?, h, Option.bind_eq_bind, Option.bind_none]

theorem list?_eq_none {α : Type} {read : Value → Option α} {items : List Value} (hv : v ∈ items)
    (hread : read v = none) : list? read (.array items) = none := by
  rw [list?]
  induction items with
  | nil => cases hv
  | cons w items ih =>
    rw [List.mapM_cons]
    rcases List.mem_cons.1 hv with rfl | hv
    · rw [hread]
      rfl
    · rw [ih hv]
      cases read w <;> rfl

/-- **An object with an item that is refused is refused.** -/
theorem Level.refuses_of_item {below : Level} {items : List Value}
    (hkey : level.items? key = some below) (hmem : (key, .array items) ∈ members) (hv : v ∈ items)
    (h : below.Refuses v) : level.Refuses (.object members) := by
  cases hfields : fields? level.keys (.object members) with
  | none => exact refuses_of_fields? hfields
  | some slots =>
    obtain ⟨hnodup, -, rfl⟩ := fields?_object_eq_some hfields
    have hlookup := Registry.lookup_of_mem hnodup hmem
    cases level with
    | document =>
      simp only [items?, Option.ite_none_right_eq_some, Option.some.injEq] at hkey
      obtain ⟨rfl, rfl⟩ := hkey
      simp only [keys] at hfields
      simp [Refuses, ofValue?, hfields, hlookup, defaulted?, list?_eq_none hv h]
    | stageSection =>
      simp only [items?, Option.ite_none_right_eq_some, Option.some.injEq] at hkey
      obtain ⟨rfl, rfl⟩ := hkey
      simp only [keys] at hfields
      simp [Refuses, sectionBindings?, hfields, hlookup, defaulted?, list?_eq_none hv h]
    | binding =>
      simp only [items?, Option.ite_none_right_eq_some, Option.some.injEq] at hkey
      obtain ⟨rfl, rfl⟩ := hkey
      simp only [keys] at hfields
      simp only [Refuses, binding?, hfields, List.map_cons, List.map_nil, hlookup, defaulted?,
        list?_eq_none hv h, Option.bind_eq_bind, Option.bind_some, Option.bind_none,
        Option.bind_fun_none]
    | element => cases hkey

/-- **A document with a section that is refused is refused.** -/
theorem Level.refuses_of_section {ms : List (String × Value)}
    (hkey : key ∈ ["vertex", "fragment", "compute", "task", "mesh"])
    (hmem : (key, .object ms) ∈ members) (h : Level.stageSection.Refuses (.object ms)) :
    Level.document.Refuses (.object members) := by
  cases hfields : fields? document.keys (.object members) with
  | none => exact refuses_of_fields? hfields
  | some slots =>
    obtain ⟨hnodup, -, rfl⟩ := fields?_object_eq_some hfields
    have hlookup := Registry.lookup_of_mem hnodup hmem
    have hsection : sectionBindings? (.object ms) = none := h
    simp only [keys] at hfields
    simp only [List.mem_cons, List.not_mem_nil, or_false] at hkey
    rcases hkey with rfl | rfl | rfl | rfl | rfl <;>
      simp [Refuses, ofValue?, hfields, hlookup, defaulted?, nullable?, hsection]

/-- The value of an object has its keys, and the values of its members. -/
theorem exists_members {ms : List (String × Tree)} (hv : (Tree.object ms).value? = some v) :
    ∃ members, v = .object members ∧ members.map (·.1) = ms.map (·.1) ∧
      ∀ m ∈ ms, ∃ w, (m.1, w) ∈ members ∧ m.2.value? = some w := by
  obtain ⟨members, hmembers, rfl⟩ := Tree.value?_object_eq_some_iff.1 hv
  have hall := Tree.forall₂_of_memberValues? hmembers
  have hkeys : List.Forall₂ Eq (ms.map (·.1)) (members.map (·.1)) := by
    rw [List.forall₂_map_left_iff, List.forall₂_map_right_iff]
    exact hall.imp fun _ _ h => h.1
  rw [List.forall₂_eq_eq_eq] at hkeys
  refine ⟨members, rfl, hkeys.symm, fun m hm => ?_⟩
  obtain ⟨⟨k, w⟩, hw, hkey, hvalue⟩ := exists_right_of_mem hall hm
  obtain rfl : m.1 = k := hkey
  exact ⟨w, hw, hvalue⟩

/-- **One more member makes an object refused.** -/
theorem AddsMember.refuses {tree tree' : Tree} (h : AddsMember level tree tree')
    (hv : tree'.value? = some v) : (∃ members, v = .object members) ∧ level.Refuses v := by
  induction h generalizing v with
  | @here level before behind key t hkey =>
    obtain ⟨members, rfl, hkeys, -⟩ := exists_members hv
    refine ⟨⟨members, rfl⟩, Level.refuses_of_fields? ?_⟩
    cases hfields : fields? level.keys (.object members) with
    | none => rfl
    | some slots =>
      obtain ⟨hnodup, hknown, -⟩ := fields?_object_eq_some hfields
      rw [hkeys, List.map_append, List.map_cons] at hnodup
      rcases hkey with hkey | hkey
      · refine absurd (hknown key ?_) hkey
        simp [hkeys]
      · rw [List.map_append] at hkey
        exact absurd hkey (List.nodup_middle.1 hnodup).notMem
  | @inSection before behind key t t' hkey _ ih =>
    obtain ⟨members, rfl, -, hmembers⟩ := exists_members hv
    obtain ⟨w, hw, hvalue⟩ := hmembers (key, t') List.mem_append_cons_self
    obtain ⟨⟨ms, rfl⟩, hrefuses⟩ := ih hvalue
    exact ⟨⟨members, rfl⟩, Level.refuses_of_section hkey hw hrefuses⟩
  | @inItem level below before behind key ts ts' t t' hkey _ ih =>
    obtain ⟨members, rfl, -, hmembers⟩ := exists_members hv
    obtain ⟨w, hw, hvalue⟩ := hmembers (key, .array (ts ++ t' :: ts')) List.mem_append_cons_self
    obtain ⟨items, hitems, rfl⟩ := Tree.value?_array_eq_some_iff.1 hvalue
    obtain ⟨item, hitem, hitemValue⟩ :=
      exists_right_of_mem (Tree.forall₂_of_values? hitems) List.mem_append_cons_self
    exact ⟨⟨members, rfl⟩, Level.refuses_of_item hkey hw hitem (ih hitemValue).2⟩

end

/-- **Documents are read independently of their spelling.** Every text of every rendering is read as
the document, and none with one more member. -/
theorem parse?_of_renders {doc : LayoutDocument} {tree : Tree} (hfits : doc.Fits)
    (hdoc : doc.Renders tree) :
    (∀ text, tree.Text text.toList → parse? text = some doc) ∧
      ∀ tree' text, AddsMember .document tree tree' → tree'.Text text.toList →
        parse? text = none := by
  obtain ⟨v, hv, hdoc⟩ := hdoc
  constructor
  · intro text htext
    rw [parse?, Json.parse?_of_text htext, hv, Option.bind_some, ofValue?_of_isDocument hfits hdoc]
  · intro tree' text hadds htext
    rw [parse?, Json.parse?_of_text htext]
    cases hv' : tree'.value? with
    | none => rfl
    | some v' => exact (hadds.refuses hv').2

/-! ### A sampler with a quote in its name -/

namespace Lens

/-- A document with one binding, and numbers and lists left at their defaults. -/
def document : LayoutDocument where
  bindings := [{ slot := 7, resource := .sampler, name := some "fish\"eye" }]

/-- The members of the binding, with the slot last. -/
def members : List (String × Tree) :=
  [("resource", .string "sampler"), ("usage", .null), ("name", .string "fish\"eye"),
    ("slot", .number { whole := 7 })]

def tree : Tree := .object [("bindings", .array [.object members])]

/-- A second slot for the binding. -/
def again : String × Tree := ("slot", .number { negative := true, whole := 7 })

def crowded : Tree := .object [("bindings", .array [.object (again :: members)])]

def text : String :=
  "\x7b\"bindings\":[\x7b\"resource\":\"sampler\",\"usage\":null," ++
    "\"name\":\"fish\\\"eye\",\"slot\":7\x7d]\x7d"

theorem fits : document.Fits := by
  unfold LayoutDocument.Fits
  decide

/-- What the members of the binding are read as. -/
def values : List (String × Value) :=
  [("resource", .string "sampler"), ("usage", .null), ("name", .string "fish\"eye"),
    ("slot", .number 7)]

theorem isBinding :
    IsBinding { slot := 7, resource := .sampler, name := some "fish\"eye" } (.object values) := by
  refine ⟨values, rfl, by decide, ?_, ?_⟩
  · simp [values, Field.required, Field.defaulted, IsString, IsNumber, IsNullable,
      ResourceClass.word]
  · simp [values, Field.required, Field.defaulted]

theorem renders : document.Renders tree := by
  refine ⟨.object [("bindings", .array [.object values])], rfl, _, rfl, by decide, ?_, ?_⟩
  · have hlist : IsList IsBinding document.bindings (.array [.object values]) :=
      ⟨_, rfl, .cons isBinding .nil⟩
    simpa [Field.defaulted] using hlist
  · simp [Field.defaulted, document]

theorem adds : AddsMember .document tree crowded := by
  have hbinding : AddsMember .binding (.object members) (.object (again :: members)) :=
    @AddsMember.here .binding [] members "slot" again.2 (.inr (by decide))
  exact @AddsMember.inItem .document .binding [] [] "bindings" [] [] _ _ rfl hbinding

theorem toList_text : text.toList = tree.plain := by decide

end Lens

/-- The document is read from its text, and not with a second slot. -/
theorem parse?_of_renders_lens : Lens.document.Fits ∧ Lens.document.Renders Lens.tree ∧
    parse? Lens.text = some Lens.document ∧ parse? (.ofList Lens.crowded.plain) = none := by
  have hread := parse?_of_renders Lens.fits Lens.renders
  refine ⟨Lens.fits, Lens.renders, hread.1 Lens.text ?_, hread.2 _ _ Lens.adds ?_⟩
  · rw [Lens.toList_text]
    exact Lens.tree.text_plain
  · rw [String.toList_ofList]
    exact Lens.crowded.text_plain

end LayoutDocument

end FrameGraph
