import FrameGraph.Proofs.AtomicLoads
import Mathlib.Data.List.Sort

/-!
# Declarations of one slot

A slot may be declared more than once, in one section of a document or in several. Declarations that
differ in descriptor type or detail are refused. Count and rate are not compared: the binding has
those of the first declaration. So the declarations of a loaded document agree with its bindings
exactly if all declarations of a slot have one count and one rate (`Registry.load_agrees_iff`),
which not every document that is loaded has (`Registry.not_forall_agrees`). Where they have, and a
slot is not called by several names, the order of the declarations does not matter.
-/

set_option autoImplicit false

namespace FrameGraph

/-- A binding is all that a declaration of its slot says. -/
structure DeclaredBinding.Agrees (d : DeclaredBinding) (b : ShaderBinding) : Prop where
  means : d.Means b.descriptorType b.detail
  count : d.count = b.count
  rate : d.rate = b.rate

namespace LayoutDocument

variable {doc doc' : LayoutDocument}

/-- All declarations of a slot have one count and one rate. -/
def Even (doc : LayoutDocument) : Prop :=
  ∀ d ∈ doc.declared, ∀ d' ∈ doc.declared, d.slot = d'.slot → d.count = d'.count ∧ d.rate = d'.rate

/-- All declarations of a slot name it alike, where it may be called something by the sources. -/
def NamesAlike (doc : LayoutDocument) (called : Nat → Option String) : Prop :=
  ∀ d ∈ doc.declared, ∀ d' ∈ doc.declared, d.slot = d'.slot →
    d.nameFrom? called = d'.nameFrom? called

/-- Two documents have the same sections and the same declarations in each, in any order. -/
structure Rearranges (doc doc' : LayoutDocument) : Prop where
  bindings : doc.bindings.Perm doc'.bindings
  sections : ∀ stage, Option.Rel List.Perm (doc.section? stage) (doc'.section? stage)

theorem mem_declared_iff {d : DeclaredBinding} : d ∈ doc.declared ↔
    d ∈ doc.bindings ∨ ∃ stage ds, doc.section? stage = some ds ∧ d ∈ ds := by
  simp only [declared, List.mem_append, List.mem_flatMap, Prod.exists, mem_sections_iff]

/-- What is declared somewhere in a section is declared in that section of the other document. -/
theorem Rearranges.exists_section_iff (h : doc.Rearranges doc') {stage : ShaderStage}
    {P : List DeclaredBinding → Prop} (hP : ∀ ds ds', ds.Perm ds' → (P ds ↔ P ds')) :
    (∃ ds, doc.section? stage = some ds ∧ P ds) ↔ ∃ ds, doc'.section? stage = some ds ∧ P ds := by
  have hsection := h.sections stage
  revert hsection
  cases doc.section? stage <;> cases doc'.section? stage <;> intro hsection <;> cases hsection
  · simp
  · next hperm => simp [hP _ _ hperm]

theorem Rearranges.mem_declared_iff (h : doc.Rearranges doc') {d : DeclaredBinding} :
    d ∈ doc.declared ↔ d ∈ doc'.declared := by
  rw [LayoutDocument.mem_declared_iff, LayoutDocument.mem_declared_iff, h.bindings.mem_iff]
  exact or_congr_right (exists_congr fun stage => h.exists_section_iff fun _ _ hp => hp.mem_iff)

theorem exists_first {d : DeclaredBinding} (h : d ∈ doc.declared) :
    ∃ d', doc.first? d.slot = some d' ∧ d' ∈ doc.declared ∧ d'.slot = d.slot := by
  cases hfirst : doc.first? d.slot with
  | none =>
    have hne := List.find?_eq_none.1 hfirst d h
    simp at hne
  | some d' => exact ⟨d', rfl, Shader.of_find?_slot hfirst⟩

end LayoutDocument

namespace Shader

variable {shader : String} {doc doc' : LayoutDocument} {sources : Sources}
  {bs bs' : List ShaderBinding}

theorem Resolves.exists_binding (h : Resolves doc sources bs) {d : DeclaredBinding}
    (hd : d ∈ doc.declared) : ∃ b ∈ bs, b.slot = d.slot :=
  List.mem_map.1 ((h.slots d.slot).2 (List.mem_map_of_mem hd))

theorem Resolves.exists_declared (h : Resolves doc sources bs) {b : ShaderBinding} (hb : b ∈ bs) :
    ∃ d ∈ doc.declared, d.slot = b.slot :=
  List.mem_map.1 ((h.slots b.slot).1 (List.mem_map_of_mem hb))

/-- **A document has one list of bindings.** -/
theorem Resolves.unique (h : Resolves doc sources bs) (h' : Resolves doc sources bs') :
    bs = bs' := by
  have hsub {bs bs' : List ShaderBinding} (h : Resolves doc sources bs)
      (h' : Resolves doc sources bs') {b : ShaderBinding} (hb : b ∈ bs) : b ∈ bs' := by
    obtain ⟨d, hd, hslot⟩ := h.exists_declared hb
    obtain ⟨b', hb', hslot'⟩ := h'.exists_binding hd
    obtain ⟨f, hf, hrate, hcount⟩ := h.first b hb
    obtain ⟨f', hf', hrate', hcount'⟩ := h'.first b' hb'
    have hname := h.named b hb
    have hname' := h'.named b' hb'
    have hseen := h.seen b hb
    have hseen' := h'.seen b' hb'
    obtain ⟨htype, hdetail⟩ :=
      (h.means b hb d hd hslot).unique (h'.means b' hb' d hd hslot'.symm)
    have heq := hslot'.trans hslot
    rw [heq] at hf' hname' hseen'
    obtain rfl := Option.some.inj (hf.symm.trans hf')
    have hvisibility : b.visibility = b'.visibility :=
      Mask.ext fun i => (hseen i).trans (hseen' i).symm
    have hsame : b = b' := by
      obtain ⟨name, slot, visibility, rate, count, type, detail⟩ := b
      obtain ⟨name', slot', visibility', rate', count', type', detail'⟩ := b'
      obtain rfl : name = name' := Option.some.inj (hname.symm.trans hname')
      obtain rfl : slot' = slot := heq
      obtain rfl : visibility = visibility' := hvisibility
      obtain rfl : type = type' := htype
      obtain rfl : detail = detail' := hdetail
      obtain rfl := hrate.symm.trans hrate'
      obtain rfl := hcount.symm.trans hcount'
      rfl
    exact hsame ▸ hb'
  have : Std.Irrefl fun b b' : ShaderBinding => b.slot < b'.slot := ⟨fun b => Nat.lt_irrefl b.slot⟩
  have : Std.Antisymm fun b b' : ShaderBinding => b.slot < b'.slot :=
    ⟨fun b b' hlt hgt => absurd hlt (Nat.lt_asymm hgt)⟩
  exact h.sorted.eq_of_mem_iff h'.sorted fun b => ⟨hsub h h', hsub h' h⟩

/-- Agreement is a matter of counts and rates. -/
theorem Resolves.agrees_iff (h : Resolves doc sources bs) :
    (∀ b ∈ bs, ∀ d ∈ doc.declared, d.slot = b.slot → d.Agrees b) ↔ doc.Even := by
  constructor
  · intro hagrees d hd d' hd' hslots
    obtain ⟨b, hb, hslot⟩ := h.exists_binding hd
    have hd := hagrees b hb d hd hslot.symm
    have hd' := hagrees b hb d' hd' (hslots ▸ hslot.symm)
    exact ⟨hd.count.trans hd'.count.symm, hd.rate.trans hd'.rate.symm⟩
  · intro heven b hb d hd hslot
    obtain ⟨f, hf, hrate, hcount⟩ := h.first b hb
    obtain ⟨hmem, hfirst⟩ := of_find?_slot hf
    obtain ⟨hcounts, hrates⟩ := heven d hd f hmem (hslot.trans hfirst.symm)
    exact ⟨h.means b hb d hd hslot, hcounts.trans hcount, hrates.trans hrate⟩

/-- **The bindings stay where the declarations are rearranged**, if those of a slot are alike. -/
theorem Resolves.rearrange (h : Resolves doc sources bs) (hdoc : doc.Rearranges doc')
    (heven : doc.Even) (hnames : doc.NamesAlike (scannedName? sources)) :
    Resolves doc' sources bs where
  sorted := h.sorted
  slots slot := by
    rw [h.slots, List.mem_map, List.mem_map]
    exact exists_congr fun d => and_congr_left fun _ => hdoc.mem_declared_iff
  nodup := h.nodup
  named b hb := by
    obtain ⟨d, hd, hslot⟩ := h.exists_declared hb
    obtain ⟨f, hf, hmem, hfirst⟩ := LayoutDocument.exists_first hd
    obtain ⟨f', hf', hmem', hfirst'⟩ :=
      LayoutDocument.exists_first (hdoc.mem_declared_iff.1 hd)
    have hname := h.named b hb
    rw [slotName?, ← hslot, hf, Option.bind_some] at hname
    rw [slotName?, ← hslot, hf', Option.bind_some, ← hname]
    exact hnames f' (hdoc.mem_declared_iff.2 hmem') f hmem (hfirst'.trans hfirst.symm)
  seen b hb i := by
    rw [h.seen b hb, Sees, Sees]
    refine or_congr (and_congr_left fun _ => ?_) (exists_congr fun stage =>
      hdoc.exists_section_iff fun ds ds' hp => and_congr_left fun _ => ?_)
    · exact exists_congr fun d => and_congr_left fun _ => hdoc.bindings.mem_iff
    · exact exists_congr fun d => and_congr_left fun _ => hp.mem_iff
  means b hb d hd := h.means b hb d (hdoc.mem_declared_iff.2 hd)
  first b hb := by
    obtain ⟨f, hf, hrate, hcount⟩ := h.first b hb
    obtain ⟨hmem, hfirst⟩ := of_find?_slot hf
    obtain ⟨f', hf', hmem', hfirst'⟩ :=
      LayoutDocument.exists_first (hdoc.mem_declared_iff.1 hmem)
    obtain ⟨hcounts, hrates⟩ :=
      heven f' (hdoc.mem_declared_iff.2 hmem') f hmem hfirst'
    rw [hfirst] at hf'
    exact ⟨f', hf', hrates.trans hrate, hcounts.trans hcount⟩

theorem nameFrom?_isSome_of_flawless (h : ∀ e, ¬ Flaw shader doc sources e) {d : DeclaredBinding}
    (hd : d ∈ doc.declared) : (d.nameFrom? (scannedName? sources)).isSome = true := by
  by_contra hnone
  obtain ⟨hscanned, hname⟩ :=
    Option.or_eq_none_iff.1 (Option.not_isSome_iff_eq_none.1 hnone)
  exact h _ (.unnamed hd hscanned hname)

/-- A load goes through where the bindings are known and all declarations have names. -/
theorem resolveBindings_of_resolves (shader : String)
    (hsources : (sources.map (·.1)).Sublist ShaderStage.all) (h : Resolves doc sources bs)
    (hnames : ∀ d ∈ doc.declared, (d.nameFrom? (scannedName? sources)).isSome = true) :
    (resolveBindings shader doc sources).result = .ok (.ok bs) := by
  rcases resolveBindings_spec shader doc hsources with ⟨e, hflaw, -⟩ | ⟨-, bs', hbs', hresult⟩
  · exact absurd hflaw (h.flawless hnames)
  · rw [h.unique hbs']
    exact hresult

end Shader

namespace Registry

section

variable {files : FileTree} {dir name : String} {doc : LayoutDocument}
  {sources : Shader.Sources} {r r' : Registry} {s : Shader}

/-- A shader that was loaded has the bindings of its document, which has no flaw. -/
theorem resolves_of_load (hdoc : Shader.readLayout files dir name = .ok doc)
    (hsources : Shader.readSources files dir name = .ok sources)
    (hload : (r.load files dir name).result = .ok (.ok s, r')) :
    (∀ e, ¬ Shader.Flaw name doc sources e) ∧ Shader.Resolves doc sources s.bindings ∧
      s = { name, bindings := s.bindings, sources } := by
  obtain ⟨hread, -⟩ := load_ok_iff.1 hload
  rcases Shader.resolveBindings_spec name doc (Shader.readSources_sublist hsources) with
    ⟨e, -, hresult⟩ | ⟨hnone, bs, hbs, hresult⟩
  · rw [Shader.result_read_of_resolved hdoc hsources hresult] at hread
    cases hread
  · rw [Shader.result_read_of_resolved hdoc hsources hresult] at hread
    obtain rfl := Except.ok.inj (Except.ok.inj hread)
    exact ⟨hnone, hbs, rfl⟩

/-- **Declarations of one slot agree in what is compared.** A binding has the descriptor type and
the detail of every declaration of its slot. It has their counts and rates exactly if each slot has
one count and one rate; if also each slot has one name, every arrangement of the declarations is
loaded with the same outcome. -/
theorem load_agrees_iff (hdoc : Shader.readLayout files dir name = .ok doc)
    (hsources : Shader.readSources files dir name = .ok sources)
    (hload : (r.load files dir name).result = .ok (.ok s, r')) :
    (∀ b ∈ s.bindings, ∀ d ∈ doc.declared, d.slot = b.slot →
        d.Means b.descriptorType b.detail) ∧
      ((∀ b ∈ s.bindings, ∀ d ∈ doc.declared, d.slot = b.slot → d.Agrees b) ↔ doc.Even) ∧
      (doc.Even → doc.NamesAlike (Shader.scannedName? sources) →
        ∀ files' dir' doc', doc.Rearranges doc' →
          Shader.readLayout files' dir' name = .ok doc' →
          Shader.readSources files' dir' name = .ok sources →
          ∀ r₀ : Registry, ∃ r₁, (r₀.load files' dir' name).result = .ok (.ok s, r₁)) := by
  obtain ⟨hflawless, hresolves, hshader⟩ := resolves_of_load hdoc hsources hload
  refine ⟨fun b hb d hd hslot => hresolves.means b hb d hd hslot, hresolves.agrees_iff, ?_⟩
  intro heven hnames files' dir' doc' harrange hdoc' hsources' r₀
  have hresult := Shader.resolveBindings_of_resolves name (Shader.readSources_sublist hsources)
    (hresolves.rearrange harrange heven hnames) fun d hd =>
      Shader.nameFrom?_isSome_of_flawless hflawless (harrange.mem_declared_iff.2 hd)
  refine ⟨r₀.insert s, load_ok_iff.2 ⟨?_, rfl⟩⟩
  rw [Shader.result_read_of_resolved hdoc' hsources' hresult, hshader]
  rfl

end

/-! ### A sampler that is declared twice

In `even` both declarations of the sampler say the same, in `swapped` they stand the other way round
with another slot between them, and in `uneven` they differ in their counts. There are no
sources. -/

namespace Prism

def evenText : String :=
  "[[[0,\"sampler\",\"lens\"],[0,\"sampler\",\"lens\"],[1,\"image\",\"glass\"]]]"

def swappedText : String :=
  "[[[0,\"sampler\",\"lens\"],[1,\"image\",\"glass\"],[0,\"sampler\",\"lens\"]]]"

def unevenText : String :=
  "\x7b\"bindings\":[\x7b\"slot\":0,\"resource\":\"sampler\",\"name\":\"lens\"\x7d," ++
    "\x7b\"slot\":0,\"resource\":\"sampler\",\"name\":\"lens\",\"count\":4\x7d]\x7d"

def files : FileTree where
  entries := [
    (["even.json"], .file (Kiln.bytes evenText)),
    (["swapped"], .directory),
    (["swapped", "even.json"], .file (Kiln.bytes swappedText)),
    (["uneven.json"], .file (Kiln.bytes unevenText))]

def lens : DeclaredBinding := { slot := 0, resource := .sampler, name := some "lens" }

def glass : DeclaredBinding := { slot := 1, resource := .image, name := some "glass" }

def even : LayoutDocument := { bindings := [lens, lens, glass] }

def swapped : LayoutDocument := { bindings := [lens, glass, lens] }

def uneven : LayoutDocument := { bindings := [lens, { lens with count := 4 }] }

/-- The binding that each of the two declarations makes. -/
def lensBinding : ShaderBinding := ⟨"lens", 0, .all, .frame, 1, .sampler, .sampler false⟩

def glassBinding : ShaderBinding :=
  ⟨"glass", 1, .all, .frame, 1, .sampledImage, .image .twoD none⟩

def evenShader : Shader :=
  { name := "even", bindings := [lensBinding, glassBinding], sources := [] }

def unevenShader : Shader := { name := "uneven", bindings := [lensBinding], sources := [] }

theorem readLayout_even : (Shader.readLayout files "/" "even").toOption = some even := by
  decide +kernel

theorem readLayout_swapped :
    (Shader.readLayout files "/swapped" "even").toOption = some swapped := by
  decide +kernel

theorem readLayout_uneven : (Shader.readLayout files "/" "uneven").toOption = some uneven := by
  decide +kernel

theorem readSources_eq : (Shader.readSources files "/" "even").toOption = some [] ∧
    (Shader.readSources files "/swapped" "even").toOption = some [] ∧
    (Shader.readSources files "/" "uneven").toOption = some [] := by
  decide +kernel

/-- Without sources a document is resolved under its own names. -/
theorem load_of_readLayout {dir name : String} {doc : LayoutDocument}
    (hdoc : (Shader.readLayout files dir name).toOption = some doc)
    (hsources : (Shader.readSources files dir name).toOption = some [])
    {bs : List ShaderBinding}
    (hbs : (Shader.resolveBindings name doc []).result.toOption.bind (·.toOption) = some bs) :
    (Registry.load {} files dir name).result =
      .ok (.ok { name, bindings := bs, sources := [] },
        Registry.insert {} { name, bindings := bs, sources := [] }) := by
  obtain ⟨resolved, hresolved, hbs⟩ := Option.bind_eq_some_iff.1 hbs
  obtain rfl := Except.eq_ok_of_toOption hbs
  refine load_ok_iff.2 ⟨?_, rfl⟩
  exact Shader.result_read_of_resolved (Except.eq_ok_of_toOption hdoc)
    (Except.eq_ok_of_toOption hsources) (Except.eq_ok_of_toOption hresolved)

theorem load_even : (Registry.load {} files "/" "even").result =
    .ok (.ok evenShader, Registry.insert {} evenShader) :=
  load_of_readLayout readLayout_even readSources_eq.1 (by decide +kernel)

theorem load_uneven : (Registry.load {} files "/" "uneven").result =
    .ok (.ok unevenShader, Registry.insert {} unevenShader) :=
  load_of_readLayout readLayout_uneven readSources_eq.2.2 (by decide +kernel)

theorem even_even : even.Even := by
  unfold LayoutDocument.Even
  decide

theorem namesAlike_even : even.NamesAlike (Shader.scannedName? []) := by
  unfold LayoutDocument.NamesAlike
  decide

theorem rearranges_even : even.Rearranges swapped where
  bindings := by decide
  sections stage := by cases stage <;> exact .none

end Prism

open Prism in
theorem load_agrees_even :
    Shader.readLayout files "/" "even" = .ok even ∧ Shader.readSources files "/" "even" = .ok [] ∧
      (Registry.load {} files "/" "even").result =
        .ok (.ok evenShader, Registry.insert {} evenShader) ∧
      even.Even ∧ even.NamesAlike (Shader.scannedName? []) ∧ even.Rearranges swapped ∧
      (∀ b ∈ evenShader.bindings, ∀ d ∈ even.declared, d.slot = b.slot → d.Agrees b) ∧
      ∃ r, (Registry.load {} files "/swapped" "even").result = .ok (.ok evenShader, r) := by
  have hdoc := Except.eq_ok_of_toOption readLayout_even
  have hsources := Except.eq_ok_of_toOption readSources_eq.1
  obtain ⟨-, hagrees, hswapped⟩ := load_agrees_iff hdoc hsources load_even
  exact ⟨hdoc, hsources, load_even, even_even, namesAlike_even, rearranges_even,
    hagrees.2 even_even,
    hswapped even_even namesAlike_even files "/swapped" swapped rearranges_even
      (Except.eq_ok_of_toOption readLayout_swapped)
      (Except.eq_ok_of_toOption readSources_eq.2.1) {}⟩

open Prism in
/-- **Not every declaration of a document that is loaded agrees with its binding.** A slot that is
declared once with a count of 1 and once with a count of 4 gets the first of them. -/
theorem not_forall_agrees : ¬∀ (files : FileTree) (dir name : String) (doc : LayoutDocument)
    (sources : Shader.Sources) (r r' : Registry) (s : Shader),
    Shader.readLayout files dir name = .ok doc → Shader.readSources files dir name = .ok sources →
      (r.load files dir name).result = .ok (.ok s, r') →
        ∀ b ∈ s.bindings, ∀ d ∈ doc.declared, d.slot = b.slot → d.Agrees b := by
  intro h
  have hagrees := h files "/" "uneven" uneven [] {} _ unevenShader
    (Except.eq_ok_of_toOption readLayout_uneven) (Except.eq_ok_of_toOption readSources_eq.2.2)
    load_uneven lensBinding List.mem_cons_self { lens with count := 4 } (by decide) rfl
  exact absurd hagrees.count (by decide)

end Registry

end FrameGraph
