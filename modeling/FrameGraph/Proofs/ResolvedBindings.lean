import FrameGraph.Proofs.MergedBindings
import FrameGraph.Proofs.ScannedNames

/-!
# The bindings of a shader

A shader's bindings come from two inputs, the declarations of its layout document and the names that
its sources give to slots. `Shader.Resolves` says what they are, `Shader.Flaw` what keeps a document
from having any. A load finds the bindings of a document without flaws, and else reports one of its
flaws (`Registry.load_resolves_or_flawed`).
-/

set_option autoImplicit false

namespace FrameGraph

/-! ## What a document asks for -/

namespace LayoutDocument

/-- The declarations of a document: those at its top level, then those of its sections. -/
def declared (doc : LayoutDocument) : List DeclaredBinding :=
  doc.bindings ++ doc.sections.flatMap (·.2)

/-- The first declaration of a slot. -/
def first? (doc : LayoutDocument) (slot : Nat) : Option DeclaredBinding :=
  doc.declared.find? (·.slot == slot)

theorem mem_sections_iff {doc : LayoutDocument} {stage : ShaderStage} {ds : List DeclaredBinding} :
    (stage, ds) ∈ doc.sections ↔ doc.section? stage = some ds := by
  simp only [sections, List.mem_filterMap, Option.map_eq_some_iff, Prod.mk.injEq]
  constructor
  · rintro ⟨stage', -, ds', hds, rfl, rfl⟩
    exact hds
  · intro hds
    exact ⟨stage, stage.mem_all, ds, hds, rfl, rfl⟩

end LayoutDocument

namespace Shader

/-- The name that a slot gets: what the sources call it, else the name in its first declaration. -/
def slotName? (doc : LayoutDocument) (sources : Sources) (slot : Nat) : Option String :=
  (doc.first? slot).bind (·.nameFrom? (scannedName? sources))

/-- Stage bit `i` is that of a stage with a source; without any source, it is that of any stage. -/
def Sourced (sources : Sources) (i : Nat) : Prop :=
  (sources = [] ∧ i ∈ ShaderStages.all) ∨ ∃ e ∈ sources, i ∈ e.1.flag

/-- Stage bit `i` sees a slot: through a declaration at top level where it is sourced, or through
one in the section of its stage. -/
def Sees (doc : LayoutDocument) (sources : Sources) (slot i : Nat) : Prop :=
  ((∃ d ∈ doc.bindings, d.slot = slot) ∧ Sourced sources i) ∨
    ∃ stage ds, doc.section? stage = some ds ∧ (∃ d ∈ ds, d.slot = slot) ∧ i ∈ stage.flag

/-- These are the bindings of a document: one for each slot that it declares, in the order of the
slots and under names that differ. -/
structure Resolves (doc : LayoutDocument) (sources : Sources) (bs : List ShaderBinding) : Prop where
  sorted : bs.Pairwise (·.slot < ·.slot)
  slots : ∀ slot, slot ∈ bs.map (·.slot) ↔ slot ∈ doc.declared.map (·.slot)
  nodup : (bs.map (·.name)).Nodup
  named : ∀ b ∈ bs, slotName? doc sources b.slot = some b.name
  seen : ∀ b ∈ bs, ∀ i, i ∈ b.visibility ↔ Sees doc sources b.slot i
  means : ∀ b ∈ bs, ∀ d ∈ doc.declared, d.slot = b.slot → d.Means b.descriptorType b.detail
  first : ∀ b ∈ bs, ∃ d, doc.first? b.slot = some d ∧ d.rate = b.rate ∧ d.count = b.count

/-- What keeps a document from having bindings, and the error that reports it. -/
inductive Flaw (shader : String) (doc : LayoutDocument) (sources : Sources) : ShaderError → Prop
  /-- A declaration gets a name neither from the sources nor from the document. -/
  | unnamed {d : DeclaredBinding} (hd : d ∈ doc.declared)
      (hscanned : scannedName? sources d.slot = none) (hname : d.name = none) :
      Flaw shader doc sources (.unnamedSlot shader d.slot)
  /-- A declaration has a word that is not known. The error calls it by its name, if it has one. -/
  | invalid {d : DeclaredBinding} {name : String} {cause : BindingError} (hd : d ∈ doc.declared)
      (hname : ∀ n, d.nameFrom? (scannedName? sources) = some n → name = n)
      (hcause : d.Refuses name cause) :
      Flaw shader doc sources (.invalidSlot shader d.slot cause)
  /-- Two declarations of a slot mean different things. -/
  | conflicting {d d' : DeclaredBinding} {type type' : DescriptorType}
      {detail detail' : BindingDetail}
      (hd : d ∈ doc.declared) (hd' : d' ∈ doc.declared) (hslot : d.slot = d'.slot)
      (hmeans : d.Means type detail) (hmeans' : d'.Means type' detail')
      (hdiffer : type ≠ type' ∨ detail ≠ detail') :
      Flaw shader doc sources (.conflictingSlot shader d.slot)
  /-- Two slots get one name. -/
  | repeated {d d' : DeclaredBinding} {name : String} (hd : d ∈ doc.declared)
      (hd' : d' ∈ doc.declared) (hslots : d.slot ≠ d'.slot)
      (hname : slotName? doc sources d.slot = some name)
      (hname' : slotName? doc sources d'.slot = some name) :
      Flaw shader doc sources (.repeatedName shader name)

variable {shader : String} {names : SlotTable String} {t : SlotTable ShaderBinding}
  {d : DeclaredBinding} {visibility : ShaderStages} {ds : List (DeclaredBinding × ShaderStages)}
  {error : ShaderError}

/-! ## Names that repeat -/

theorem checkNames_eq_ok_iff {seen : List String} {bs : List ShaderBinding} :
    checkNames shader seen bs = .ok () ↔
      (bs.map (·.name)).Nodup ∧ ∀ b ∈ bs, b.name ∉ seen := by
  induction bs generalizing seen with
  | nil => simp [checkNames]
  | cons b bs ih =>
    rw [checkNames]
    split
    · next hseen => simp [hseen]
    · next hseen =>
      rw [ih]
      simp only [List.mem_cons, not_or, forall_and, List.map_cons, List.nodup_cons,
        List.mem_map, not_exists, not_and, forall_eq_or_imp]
      tauto

/-- A binding is at fault if its name was seen, or is that of one in front of it. -/
theorem of_checkNames_error {seen : List String} {bs : List ShaderBinding}
    (h : checkNames shader seen bs = .error error) : ∃ xs b ys, bs = xs ++ b :: ys ∧
      (b.name ∈ seen ∨ ∃ b' ∈ xs, b'.name = b.name) ∧ error = .repeatedName shader b.name := by
  induction bs generalizing seen with
  | nil => cases h
  | cons b bs ih =>
    rw [checkNames] at h
    split at h
    · next hseen => exact ⟨[], b, bs, rfl, .inl hseen, (Except.error.inj h).symm⟩
    · obtain ⟨xs, b', ys, rfl, hb', herror⟩ := ih h
      refine ⟨b :: xs, b', ys, rfl, ?_, herror⟩
      rcases hb' with hb' | ⟨b'', hb'', hname⟩
      · rcases List.mem_cons.1 hb' with hname | hseen
        · exact .inr ⟨b, List.mem_cons_self, hname.symm⟩
        · exact .inl hseen
      · exact .inr ⟨b'', List.mem_cons_of_mem b hb'', hname⟩

/-! ## The bindings of a document -/

theorem mem_visibleStages {sources : Sources} {i : Nat} :
    i ∈ visibleStages sources ↔ Sourced sources i := by
  have hfold : ∀ (l : Sources) (m : ShaderStages),
      i ∈ l.foldl (fun m e => m ∪ e.1.flag) m ↔ i ∈ m ∨ ∃ e ∈ l, i ∈ e.1.flag := by
    intro l
    induction l with
    | nil => simp
    | cons e l ih =>
      intro m
      rw [List.foldl_cons, ih, Mask.mem_union, List.exists_mem_cons_iff, or_assoc]
  unfold visibleStages Sourced
  split
  · next h => simp [h]
  · next h => simp [h, hfold]

theorem of_find?_slot {l : List DeclaredBinding} {slot : Nat}
    (h : l.find? (·.slot == slot) = some d) : d ∈ l ∧ d.slot = slot := by
  have hslot := List.find?_some h
  exact ⟨List.mem_of_find?_eq_some h, beq_iff_eq.1 hslot⟩

theorem map_declarations (doc : LayoutDocument) (sources : Sources) :
    (declarations doc sources).map (·.1) = doc.declared := by
  simp [declarations, LayoutDocument.declared, List.map_flatMap, Function.comp_def]

theorem mem_declarations_iff {sources : Sources} {doc : LayoutDocument} :
    (d, visibility) ∈ declarations doc sources ↔
      (d ∈ doc.bindings ∧ visibility = visibleStages sources) ∨
        ∃ stage ds, doc.section? stage = some ds ∧ d ∈ ds ∧ visibility = stage.flag := by
  simp only [declarations, List.mem_append, List.mem_map, List.mem_flatMap, Prod.exists,
    LayoutDocument.mem_sections_iff, Prod.mk.injEq]
  refine or_congr ?_ (exists_congr fun stage => exists_congr fun ds => and_congr_right fun _ => ?_)
  · constructor
    · rintro ⟨d', hd', rfl, rfl⟩
      exact ⟨hd', rfl⟩
    · rintro ⟨hd, rfl⟩
      exact ⟨d, hd, rfl, rfl⟩
  · constructor
    · rintro ⟨d', hd', rfl, rfl⟩
      exact ⟨hd', rfl⟩
    · rintro ⟨hd, rfl⟩
      exact ⟨d, hd, rfl, rfl⟩

theorem exists_mem_declarations_iff {sources : Sources} {doc : LayoutDocument} {slot i : Nat} :
    (∃ e ∈ declarations doc sources, e.1.slot = slot ∧ i ∈ e.2) ↔ Sees doc sources slot i := by
  unfold Sees
  constructor
  · rintro ⟨⟨d, v⟩, he, hslot, hi⟩
    rcases mem_declarations_iff.1 he with ⟨hd, rfl⟩ | ⟨stage, ds, hds, hd, rfl⟩
    · exact .inl ⟨⟨d, hd, hslot⟩, mem_visibleStages.1 hi⟩
    · exact .inr ⟨stage, ds, hds, ⟨d, hd, hslot⟩, hi⟩
  · rintro (⟨⟨d, hd, hslot⟩, hi⟩ | ⟨stage, ds, hds, ⟨d, hd, hslot⟩, hi⟩)
    · exact ⟨(d, visibleStages sources), mem_declarations_iff.2 (.inl ⟨hd, rfl⟩), hslot,
        mem_visibleStages.2 hi⟩
    · exact ⟨(d, stage.flag), mem_declarations_iff.2 (.inr ⟨stage, ds, hds, hd, rfl⟩), hslot, hi⟩

/-! ### A table that is full -/

section

variable {doc : LayoutDocument} {sources : Sources} {b : ShaderBinding}

theorem Merged.mem_values_iff {called : Nat → Option String} (h : Merged called ds t) :
    b ∈ t.values ↔ t.find? b.slot = some b := by
  simp only [SlotTable.values, List.mem_map, Prod.exists, exists_eq_right, h.sorted.mem_entries_iff]
  constructor
  · rintro ⟨slot, hb⟩
    exact h.slot_eq slot b hb ▸ hb
  · intro hb
    exact ⟨b.slot, hb⟩

theorem Merged.pairwise_values {called : Nat → Option String} (h : Merged called ds t) :
    t.values.Pairwise (·.slot < ·.slot) := by
  have hslots : t.values.map (·.slot) = t.slots := by
    rw [SlotTable.values, List.map_map]
    exact List.map_congr_left fun e he => h.slot_eq e.1 e.2 (h.sorted.mem_entries_iff.1 he)
  have hsorted := h.sorted
  rw [SlotTable.Sorted, ← hslots, List.pairwise_map] at hsorted
  exact hsorted

variable (h : Merged (scannedName? sources) (declarations doc sources) t)
include h

theorem Merged.slotName?_eq (hb : b ∈ t.values) : slotName? doc sources b.slot = some b.name := by
  obtain ⟨d, hd, hname, -, -⟩ := (h.joins _ _ (h.mem_values_iff.1 hb)).first
  rw [map_declarations] at hd
  rw [slotName?, LayoutDocument.first?, hd, Option.bind_some, hname]

theorem Merged.exists_value (hd : d ∈ doc.declared) : ∃ b ∈ t.values, b.slot = d.slot := by
  rw [← map_declarations doc sources] at hd
  obtain ⟨e, he, rfl⟩ := List.mem_map.1 hd
  obtain ⟨b, hb⟩ := Option.isSome_iff_exists.1 (h.held e he)
  have hslot := h.slot_eq _ _ hb
  exact ⟨b, h.mem_values_iff.2 (hslot ▸ hb), hslot⟩

theorem Merged.exists_declared (hb : b ∈ t.values) : ∃ d ∈ doc.declared, d.slot = b.slot := by
  obtain ⟨d, hd, -⟩ := (h.joins _ _ (h.mem_values_iff.1 hb)).first
  rw [map_declarations] at hd
  exact ⟨d, of_find?_slot hd⟩

/-- **The table holds the bindings of the document**, where their names differ. -/
theorem Merged.resolves (hnames : (t.values.map (·.name)).Nodup) :
    Resolves doc sources t.values where
  sorted := h.pairwise_values
  slots := by
    intro slot
    constructor
    · intro hslot
      obtain ⟨b, hb, rfl⟩ := List.mem_map.1 hslot
      obtain ⟨d, hd, heq⟩ := h.exists_declared hb
      exact List.mem_map.2 ⟨d, hd, heq⟩
    · intro hslot
      obtain ⟨d, hd, rfl⟩ := List.mem_map.1 hslot
      obtain ⟨b, hb, heq⟩ := h.exists_value hd
      exact List.mem_map.2 ⟨b, hb, heq⟩
  nodup := hnames
  named := fun _ => h.slotName?_eq
  seen := by
    intro b hb i
    rw [(h.joins _ _ (h.mem_values_iff.1 hb)).seen, exists_mem_declarations_iff]
  means := by
    intro b hb d hd hslot
    rw [← map_declarations doc sources] at hd
    obtain ⟨e, he, rfl⟩ := List.mem_map.1 hd
    exact (h.joins _ _ (h.mem_values_iff.1 hb)).means e he hslot
  first := by
    intro b hb
    obtain ⟨d, hd, -, hrate, hcount⟩ := (h.joins _ _ (h.mem_values_iff.1 hb)).first
    rw [map_declarations] at hd
    exact ⟨d, hd, hrate, hcount⟩

theorem Merged.isSome_name (hd : d ∈ doc.declared) :
    (d.nameFrom? (scannedName? sources)).isSome = true := by
  rw [← map_declarations doc sources] at hd
  obtain ⟨e, he, rfl⟩ := List.mem_map.1 hd
  exact h.named e he

/-- Bindings with one name have different slots. -/
theorem Merged.flaw_of_checkNames (herror : checkNames shader [] t.values = .error error) :
    Flaw shader doc sources error := by
  obtain ⟨xs, b, ys, hsplit, hname, rfl⟩ := of_checkNames_error herror
  obtain hname | ⟨b', hb', hname⟩ := hname
  · cases hname
  · -- The bindings stand in the order of their slots.
    have hlt : b'.slot < b.slot := by
      have hsorted := h.pairwise_values
      rw [hsplit, List.pairwise_append] at hsorted
      exact hsorted.2.2 b' hb' b List.mem_cons_self
    have hmem : b ∈ t.values := hsplit ▸ List.mem_append_right _ List.mem_cons_self
    have hmem' : b' ∈ t.values := hsplit ▸ List.mem_append_left _ hb'
    obtain ⟨d, hd, hslot⟩ := h.exists_declared hmem
    obtain ⟨d', hd', hslot'⟩ := h.exists_declared hmem'
    refine .repeated hd' hd (by rw [hslot', hslot]; exact Nat.ne_of_lt hlt) ?_ ?_
    · rw [hslot', h.slotName?_eq hmem', hname]
    · rw [hslot, h.slotName?_eq hmem]

end

/-- **Bindings leave no flaw**, where all declarations have names. -/
theorem Resolves.flawless {doc : LayoutDocument} {sources : Sources} {bs : List ShaderBinding}
    (h : Resolves doc sources bs)
    (hnames : ∀ d ∈ doc.declared, (d.nameFrom? (scannedName? sources)).isSome = true) :
    ¬ Flaw shader doc sources error := by
  have hbinding : ∀ d ∈ doc.declared, ∃ b ∈ bs, b.slot = d.slot := fun d hd =>
    List.mem_map.1 ((h.slots d.slot).2 (List.mem_map_of_mem hd))
  intro hflaw
  cases hflaw with
  | @unnamed d hd hscanned hname =>
    have hsome := hnames d hd
    rw [DeclaredBinding.nameFrom?, hscanned, hname] at hsome
    cases hsome
  | @invalid d name cause hd _ hcause =>
    obtain ⟨b, hb, hslot⟩ := hbinding d hd
    exact (h.means b hb d hd hslot.symm).not_refuses hcause
  | @conflicting d d' type type' detail detail' hd hd' hslots hmeans hmeans' hdiffer =>
    obtain ⟨b, hb, hslot⟩ := hbinding d hd
    obtain ⟨rfl, rfl⟩ := hmeans.unique (h.means b hb d hd hslot.symm)
    obtain ⟨rfl, rfl⟩ := hmeans'.unique (h.means b hb d' hd' (hslots ▸ hslot.symm))
    simp at hdiffer
  | @repeated d d' name hd hd' hslots hname hname' =>
    obtain ⟨b, hb, hslot⟩ := hbinding d hd
    obtain ⟨b', hb', hslot'⟩ := hbinding d' hd'
    have heq : b.name = b'.name := by
      rw [← hslot, h.named b hb] at hname
      rw [← hslot', h.named b' hb'] at hname'
      exact Option.some.inj (hname.trans hname'.symm)
    have hsame : b = b' := List.inj_on_of_nodup_map h.nodup hb hb' heq
    exact hslots (hslot ▸ hslot' ▸ congrArg (·.slot) hsame)

/-- **A merge that stops has met a flaw.** -/
theorem flaw_of_mergeDeclared {doc : LayoutDocument} {sources : Sources}
    (hnames : names.find? = scannedName? sources)
    (h : mergeDeclared shader names doc sources = .error error) :
    Flaw shader doc sources error := by
  obtain ⟨xs, ⟨d, visibility⟩, ys, c, hsplit, hxs, herror⟩ := exists_of_foldlM_error h
  have hmerged := merged_of_foldlM hxs
  rw [hnames] at hmerged
  have hdeclared : doc.declared = xs.map (·.1) ++ d :: ys.map (·.1) := by
    rw [← map_declarations doc sources, hsplit, List.map_append, List.map_cons]
  have hd : d ∈ doc.declared := hdeclared ▸ List.mem_append_right _ List.mem_cons_self
  obtain ⟨hname, rfl⟩ | ⟨name, cause, hname, hcause, rfl⟩ |
    ⟨b, type, detail, hb, hmeans, hdiffer, rfl⟩ := of_addDeclared_error herror
  · rw [hnames] at hname
    obtain ⟨hscanned, hown⟩ := Option.or_eq_none_iff.1 hname
    exact .unnamed hd hscanned hown
  · rw [hnames] at hname
    exact .invalid hd (fun n hn => Option.some.inj (hname.symm.trans hn)) hcause
  · -- The binding in the way means what the first declaration of its slot means.
    have hslot := hmerged.slot_eq _ _ hb
    obtain ⟨d', hd', -⟩ := (hmerged.joins _ _ hb).first
    obtain ⟨hmem, hslot'⟩ := of_find?_slot hd'
    obtain ⟨e, he, rfl⟩ := List.mem_map.1 hmem
    exact .conflicting hd (hdeclared ▸ List.mem_append_left _ hmem) (hslot ▸ hslot'.symm) hmeans
      ((hmerged.joins _ _ hb).means e he hslot') (hdiffer.imp Ne.symm Ne.symm)

theorem result_resolveBindings {doc : LayoutDocument} {sources : Sources}
    (hscan : (scanSources shader sources).result = .ok names) :
    (resolveBindings shader doc sources).result = .ok (do
      let table ← mergeDeclared shader names doc sources
      checkNames shader [] table.values
      return table.values) := by
  rw [resolveBindings, Traced.result_bind]
  refine Except.bind_eq_ok_iff.2 ⟨names, hscan, ?_⟩
  cases mergeDeclared shader names doc sources with
  | error e => rfl
  | ok table =>
    dsimp only
    rw [Traced.result_bind]
    refine Except.bind_eq_ok_iff.2 ⟨(), Traced.result_reportAll _, ?_⟩
    show _ = Except.ok (checkNames shader [] table.values >>= fun _ => .ok table.values)
    cases checkNames shader [] table.values with
    | error e => rfl
    | ok u => rfl

/-- **The bindings of a document are found, or one of its flaws is.** -/
theorem resolveBindings_spec {sources : Sources} (shader : String) (doc : LayoutDocument)
    (hsources : (sources.map (·.1)).Sublist ShaderStage.all) :
    (∃ e, Flaw shader doc sources e ∧
        (resolveBindings shader doc sources).result = .ok (.error e)) ∨
      (∀ e, ¬ Flaw shader doc sources e) ∧ ∃ bs, Resolves doc sources bs ∧
        (resolveBindings shader doc sources).result = .ok (.ok bs) := by
  obtain ⟨names, hscan, hnames⟩ := scanSources_spec shader hsources
  rw [result_resolveBindings hscan]
  cases hmerge : mergeDeclared shader names doc sources with
  | error e => exact .inl ⟨e, flaw_of_mergeDeclared hnames hmerge, rfl⟩
  | ok t =>
    have hmerged := merged_of_foldlM hmerge
    rw [hnames] at hmerged
    cases hcheck : checkNames shader [] t.values with
    | error e =>
      refine .inl ⟨e, hmerged.flaw_of_checkNames hcheck, congrArg Except.ok ?_⟩
      exact Except.bind_eq_error_iff.2 (.inr ⟨t, rfl, Except.bind_eq_error_iff.2 (.inl hcheck)⟩)
    | ok u =>
      have hresolves := hmerged.resolves (checkNames_eq_ok_iff.1 hcheck).1
      refine .inr ⟨fun e => hresolves.flawless fun d => hmerged.isSome_name, t.values, hresolves,
        congrArg Except.ok ?_⟩
      exact Except.bind_eq_ok_iff.2 ⟨t, rfl, Except.bind_eq_ok_iff.2 ⟨u, hcheck, rfl⟩⟩

end Shader

/-! ## Loading -/

namespace Registry

/-- **A load finds the bindings of a document, or reports a flaw of it.** Where there is a flaw the
load fails and leaves the registry as it was; where there is none it does not fail. -/
theorem load_resolves_or_flawed {files : FileTree} {dir name : String} {doc : LayoutDocument}
    {sources : Shader.Sources} (hdoc : Shader.readLayout files dir name = .ok doc)
    (hsources : Shader.readSources files dir name = .ok sources) (r : Registry) :
    (∃ e, Shader.Flaw name doc sources e ∧ (r.load files dir name).result = .ok (.error e, r)) ∨
      (∀ e, ¬ Shader.Flaw name doc sources e) ∧ ∃ bs, Shader.Resolves doc sources bs ∧
        (r.load files dir name).result =
          .ok (.ok { name, bindings := bs, sources },
            r.insert { name, bindings := bs, sources }) := by
  have hread : ∀ resolved, (Shader.resolveBindings name doc sources).result = .ok resolved →
      (Shader.read files dir name).result =
        .ok (resolved.map fun bs => { name, bindings := bs, sources }) := by
    intro resolved hresolved
    rw [Shader.read, hdoc, hsources]
    refine (Traced.result_bind (Shader.resolveBindings name doc sources) _).trans
      (Except.bind_eq_ok_iff.2 ⟨resolved, hresolved, ?_⟩)
    cases resolved <;> rfl
  rcases Shader.resolveBindings_spec name doc (Shader.readSources_sublist hsources) with
    ⟨e, hflaw, hresult⟩ | ⟨hnone, bs, hbs, hresult⟩
  · exact .inl ⟨e, hflaw, load_ok_iff.2 ⟨hread _ hresult, rfl⟩⟩
  · exact .inr ⟨hnone, bs, hbs, load_ok_iff.2 ⟨hread _ hresult, rfl⟩⟩

/-! ### A shader with a slot that is declared twice

The sampler is declared at top level and for the vertex stage, under two names. Only the fragment
stage has a source, and it names the image. -/

namespace Kiln

/-- The bytes of a text of ASCII characters. -/
def bytes (text : String) : List UInt8 := text.toList.map fun c => c.toNat.toUInt8

def shards : String := "layout(binding = 0) uniform texture2D shard;"

def files : FileTree where
  entries := [
    (["glaze.json"], .file (bytes
      "[[[4, \"sampler\", \"wash\"], [0, \"image\"]], [[[4, \"sampler\", \"rinse\"]]]]")),
    (["glaze.frag"], .file (bytes shards))]

def document : LayoutDocument where
  bindings := [{ slot := 4, resource := .sampler, name := some "wash" },
    { slot := 0, resource := .image }]
  vertex := some [{ slot := 4, resource := .sampler, name := some "rinse" }]

def sources : Shader.Sources := [(.fragment, ⟨"/glaze.frag", shards⟩)]

def glaze : Shader where
  name := "glaze"
  bindings := [
    ⟨"shard", 0, .fragment, .frame, 1, .sampledImage, .image .twoD none⟩,
    ⟨"wash", 4, ShaderStages.vertex ∪ ShaderStages.fragment, .frame, 1, .sampler, .sampler false⟩]
  sources := sources

theorem readLayout_eq : (Shader.readLayout files "/" "glaze").toOption = some document := by
  decide +kernel

theorem readSources_eq : (Shader.readSources files "/" "glaze").toOption = some sources := by
  decide +kernel

theorem read_eq :
    (Shader.read files "/" "glaze").result.toOption.bind (·.toOption) = some glaze := by
  decide +kernel

end Kiln

open Kiln in
theorem load_resolves_glaze :
    Shader.readLayout files "/" "glaze" = .ok document ∧
      Shader.readSources files "/" "glaze" = .ok sources ∧
      Shader.Resolves document sources glaze.bindings ∧
      ∀ e, ¬ Shader.Flaw "glaze" document sources e := by
  have hdoc := Except.eq_ok_of_toOption readLayout_eq
  have hsources := Except.eq_ok_of_toOption readSources_eq
  have hload := load_of_read read_eq {}
  refine ⟨hdoc, hsources, ?_⟩
  rcases load_resolves_or_flawed hdoc hsources {} with
    ⟨e, -, herror⟩ | ⟨hnone, bs, hbs, hok⟩
  · rw [hload] at herror
    cases herror
  · rw [hload] at hok
    have hshader := Except.ok.inj (Prod.mk.inj (Except.ok.inj hok)).1
    obtain rfl : glaze.bindings = bs := congrArg (·.bindings) hshader
    exact ⟨hbs, hnone⟩

end Registry

end FrameGraph
