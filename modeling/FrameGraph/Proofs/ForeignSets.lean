import FrameGraph.Proofs.ScannedSlots
import Mathlib.Data.List.Induction

/-!
# Declarations of other sets

A declaration is left out of the table if its last set is a number other than 0. If that set is no
number of 32 bits at all, such as `0x1` or a named constant, the declaration is read as if no set
were written. So a source keeps other sets out exactly if none of its bindings has a last set like
that (`keepsForeignOut_iff`), which not every source does (`not_forall_keepsForeignOut`).
-/

set_option autoImplicit false

namespace FrameGraph.SourceScan

open FrameGraph.Text

/-! ## The values of a qualifier list -/

/-- Key and value of a qualifier, without the blanks around them. -/
def pair? (item : List Char) : Option (List Char × List Char) :=
  (splitOnce? '=' item).map fun (key, value) => (trim key, trim value)

/-- The value that was given last to that key. -/
def lastOf? (key : List Char) (pairs : List (List Char × List Char)) : Option (List Char) :=
  (pairs.filter (·.1 == key)).getLast?.map (·.2)

/-- The value that a qualifier list gives last to that key. -/
def lastValue? (key text : List Char) : Option (List Char) :=
  lastOf? key ((split (· == ',') text).filterMap pair?)

/-- What a value makes of the numbers so far. -/
def Qualifiers.give (q : Qualifiers) (pair : List Char × List Char) : Qualifiers :=
  if pair.1 = bindingKey then { q with binding := numeral? bound32 pair.2 }
  else if pair.1 = setKey then { q with set := numeral? bound32 pair.2 }
  else q

theorem Qualifiers.ofText_eq_foldl (text : List Char) :
    Qualifiers.ofText text = ((split (· == ',') text).filterMap pair?).foldl give {} := by
  rw [List.foldl_filterMap, ofText]
  refine congrArg (List.foldl · _ _) (funext fun q => funext fun item => ?_)
  unfold read pair?
  cases splitOnce? '=' item <;> rfl

theorem lastOf?_concat (key : List Char) (pairs : List (List Char × List Char))
    (pair : List Char × List Char) :
    lastOf? key (pairs ++ [pair]) = if pair.1 = key then some pair.2 else lastOf? key pairs := by
  by_cases h : pair.1 = key
  · simp [lastOf?, List.filter_append, h]
  · simp [lastOf?, List.filter_append, h]

/-- **The last value of a key counts**, whether it can be read or not. -/
theorem Qualifiers.ofText_eq (text : List Char) : Qualifiers.ofText text =
    ⟨(lastValue? bindingKey text).bind (numeral? bound32),
      (lastValue? setKey text).bind (numeral? bound32)⟩ := by
  have hkeys : bindingKey ≠ setKey := by decide
  rw [ofText_eq_foldl, lastValue?, lastValue?]
  induction (split (· == ',') text).filterMap pair? using List.reverseRecOn with
  | nil => rfl
  | append_singleton pairs pair ih =>
    rw [List.foldl_concat, ih, lastOf?_concat, lastOf?_concat, give]
    by_cases hbinding : pair.1 = bindingKey
    · rw [if_pos hbinding, if_pos hbinding, if_neg (hbinding ▸ hkeys)]
      rfl
    · by_cases hset : pair.1 = setKey
      · rw [if_neg hbinding, if_pos hset, if_neg hbinding, if_pos hset]
        rfl
      · rw [if_neg hbinding, if_neg hset, if_neg hbinding, if_neg hset]

/-! ## Zeros -/

/-- Whether a literal denotes 0: zeros, with a sign, a base and a suffix or without. -/
def DenotesZero (cs : List Char) : Prop := ∃ sign base zeros suffix,
  cs = sign ++ base ++ zeros ++ suffix ∧ sign ∈ [[], ['+']] ∧
    base ∈ [[], ['0', 'x'], ['0', 'X']] ∧ zeros ≠ [] ∧ (∀ c ∈ zeros, c = '0') ∧
    suffix ∈ [[], ['u'], ['U']]

theorem DenotesZero.mem {cs : List Char} (h : DenotesZero cs) :
    ∀ c ∈ cs, c ∈ ['+', '0', 'x', 'X', 'u', 'U'] := by
  obtain ⟨sign, base, zeros, suffix, rfl, hsign, hbase, -, hzeros, hsuffix⟩ := h
  intro c hc
  simp only [List.mem_append] at hc
  rcases hc with ((hc | hc) | hc) | hc
  · simp only [List.mem_cons, List.not_mem_nil, or_false] at hsign
    rcases hsign with rfl | rfl <;> simp_all
  · simp only [List.mem_cons, List.not_mem_nil, or_false] at hbase
    rcases hbase with rfl | rfl | rfl <;> simp_all <;> tauto
  · simp [hzeros c hc]
  · simp only [List.mem_cons, List.not_mem_nil, or_false] at hsuffix
    rcases hsuffix with rfl | rfl | rfl <;> simp_all

theorem digitValue?_eq_zero {c : Char} (h : digitValue? c = some 0) : c = '0' := by
  unfold digitValue? at h
  split at h
  · next hc =>
    have hval : c.toNat - '0'.toNat = 0 := Option.some.inj h
    have hle : '0'.toNat ≤ c.toNat := hc.1
    refine Char.toNat_inj.1 ?_
    omega
  · cases h

/-- Digits that add up to 0 are zeros. -/
theorem eq_zero_of_digitsFrom? {acc : Nat} {cs : List Char} (h : digitsFrom? acc cs = some 0) :
    acc = 0 ∧ ∀ c ∈ cs, c = '0' := by
  induction cs generalizing acc with
  | nil => exact ⟨Option.some.inj h, by simp⟩
  | cons c cs ih =>
    rw [digitsFrom?, Option.bind_eq_some_iff] at h
    obtain ⟨d, hd, h⟩ := h
    obtain ⟨hacc, hcs⟩ := ih h
    refine ⟨by omega, List.forall_mem_cons.2 ⟨digitValue?_eq_zero (hd.trans ?_), hcs⟩⟩
    congr
    omega

/-- **What reads as 0 denotes 0.** -/
theorem denotesZero_of_numeral? {bound : Nat} {cs : List Char} (h : numeral? bound cs = some 0) :
    DenotesZero cs := by
  have hdigits {ds : List Char} (hds : (digits? ds).filter (· < bound) = some 0) :
      ds ≠ [] ∧ ∀ c ∈ ds, c = '0' := by
    obtain ⟨hds, -⟩ := Option.filter_eq_some_iff.1 hds
    unfold digits? at hds
    split at hds
    · cases hds
    · next hne => exact ⟨hne, (eq_zero_of_digitsFrom? hds).2⟩
  unfold numeral? at h
  dsimp only at h
  split at h
  · next rest =>
    obtain ⟨hne, hzeros⟩ := hdigits h
    exact ⟨['+'], [], rest, [], by simp, by simp, by simp, hne, hzeros, by simp⟩
  · obtain ⟨hne, hzeros⟩ := hdigits h
    exact ⟨[], [], cs, [], by simp, by simp, by simp, hne, hzeros, by simp⟩

/-! ## Which sets are kept out -/

/-- Whether a declaration writes no set, or a zero as the last one. -/
def Declaration.InSetZero (d : Declaration) : Prop :=
  ∀ value, lastValue? setKey d.qualifiers = some value → DenotesZero value

/-- Whether the last set that a declaration writes can be read, if it is no zero. -/
def Declaration.HasReadableSet (d : Declaration) : Prop :=
  ∀ value, lastValue? setKey d.qualifiers = some value → numeral? bound32 value = none →
    DenotesZero value

/-- The first declaration that has a name for the slot. -/
def firstFor? (slot : Nat) (ds : List Declaration) : Option Declaration :=
  ds.find? fun d => d.request?.any (·.1 == slot)

/-- Whether no declaration of another set is reported or treated as one of set 0. -/
structure KeepsForeignOut (source : String) : Prop where
  reported : ∀ table slot name, (scan source).result = .ok table → table.find? slot = some name →
    ∃ d, firstFor? slot (found source) = some d ∧ d.request? = some (slot, name) ∧ d.InSetZero
  treated : ∀ d ∈ found source, ¬d.InSetZero → d.slot? = none

section
variable {source : String} {slot : Nat} {name : String} {d : Declaration}

/-- **A set that cannot be read does not count.** -/
theorem Declaration.slot?_eq_some_iff : d.slot? = some slot ↔
    (lastValue? bindingKey d.qualifiers).bind (numeral? bound32) = some slot ∧
      ∀ value, lastValue? setKey d.qualifiers = some value →
        numeral? bound32 value = none ∨ numeral? bound32 value = some 0 := by
  simp only [slot?, Qualifiers.ofText_eq]
  cases lastValue? setKey d.qualifiers with
  | none => simp
  | some value =>
    cases hn : numeral? bound32 value with
    | none => simp [hn]
    | some n => cases n <;> simp [hn]

theorem Declaration.inSetZero_of_slot? (h : d.slot? = some slot) (hset : d.HasReadableSet) :
    d.InSetZero := by
  intro value hvalue
  rcases (slot?_eq_some_iff.1 h).2 value hvalue with hn | hn
  · exact hset value hvalue hn
  · exact denotesZero_of_numeral? hn

/-- A declaration with a set that cannot be read is treated as one of set 0. -/
theorem Declaration.slot?_of_unreadable {value : List Char}
    (hbinding : (lastValue? bindingKey d.qualifiers).bind (numeral? bound32) = some slot)
    (hset : lastValue? setKey d.qualifiers = some value) (hn : numeral? bound32 value = none) :
    d.slot? = some slot := by
  refine slot?_eq_some_iff.2 ⟨hbinding, fun v hv => ?_⟩
  obtain rfl := Option.some.inj (hset.symm.trans hv)
  exact .inl hn

/-- What is reported is what the first declaration asks for. -/
theorem exists_firstFor {ds : List Declaration}
    (h : (ds.filterMap Declaration.request?).lookup slot = some name) :
    ∃ d ∈ ds, firstFor? slot ds = some d ∧ d.request? = some (slot, name) := by
  unfold firstFor?
  induction ds with
  | nil => cases h
  | cons d ds ih =>
    rw [List.find?_cons]
    cases he : d.request? with
    | none =>
      rw [List.filterMap_cons_none he] at h
      obtain ⟨e, hmem, hfirst, hentry⟩ := ih h
      exact ⟨e, List.mem_cons_of_mem _ hmem, hfirst, hentry⟩
    | some e =>
      obtain ⟨k, n⟩ := e
      rw [List.filterMap_cons_some he, List.lookup_cons] at h
      by_cases hk : slot = k
      · subst hk
        obtain rfl : n = name := by simpa using h
        exact ⟨d, List.mem_cons_self, by simp, he⟩
      · rw [beq_eq_false_iff_ne.2 hk] at h
        obtain ⟨e, hmem, hfirst, hentry⟩ := ih h
        refine ⟨e, List.mem_cons_of_mem _ hmem, ?_, hentry⟩
        rw [Option.any_some, beq_eq_false_iff_ne.2 (Ne.symm hk)]
        exact hfirst

/-- **Other sets are kept out exactly if they can be read**: if of each declaration with a slot the
last set is a number of 32 bits, or denotes 0 anyway. -/
theorem keepsForeignOut_iff (source : String) : KeepsForeignOut source ↔ ∀ d ∈ found source,
    ∀ slot, (lastValue? bindingKey d.qualifiers).bind (numeral? bound32) = some slot →
      d.HasReadableSet := by
  constructor
  · intro h d hd slot hbinding value hset hn
    by_contra hzero
    have hslot := Declaration.slot?_of_unreadable hbinding hset hn
    rw [h.treated d hd fun hin => hzero (hin value hset)] at hslot
    cases hslot
  · intro h
    have hin (d : Declaration) (hd : d ∈ found source) (slot : Nat) (hslot : d.slot? = some slot) :
        d.InSetZero :=
      Declaration.inSetZero_of_slot? hslot
        (h d hd slot (Declaration.slot?_eq_some_iff.1 hslot).1)
    refine ⟨fun table slot name hscan hname => ?_, fun d hd hforeign => ?_⟩
    · obtain ⟨table', hscan', -, hfind⟩ := scan_spec source
      obtain rfl := Except.ok.inj (hscan.symm.trans hscan')
      rw [hfind] at hname
      obtain ⟨d, hd, hfirst, hentry⟩ := exists_firstFor hname
      exact ⟨d, hfirst, hentry, hin d hd slot (Declaration.request?_eq_some_iff.1 hentry).1⟩
    · by_contra hslot
      obtain ⟨slot, hslot⟩ := Option.ne_none_iff_exists'.1 hslot
      exact hforeign (hin d hd slot hslot)

end

/-! ### A set in hexadecimal -/

def hexSource : String := "layout(set = 0x1, binding = 2) uniform sampler2D foreign;"

/-- The only declaration of that source. -/
def hexDeclaration : Declaration where
  qualifiers := "set = 0x1, binding = 2".toList
  declared := " uniform sampler2D foreign".toList

theorem found_hexSource : found hexSource = [hexDeclaration] := by
  have hparts : (found hexSource).map (fun d => (d.qualifiers, d.declared)) =
      [(hexDeclaration.qualifiers, hexDeclaration.declared)] := by decide +kernel
  obtain ⟨d, hfound, hd⟩ := List.map_eq_singleton_iff.1 hparts
  obtain ⟨qualifiers, declared⟩ := d
  obtain ⟨rfl, rfl⟩ := Prod.mk.inj hd
  exact hfound

theorem request?_hexDeclaration : hexDeclaration.request? = some (2, "foreign") := by
  decide +kernel

theorem not_inSetZero_hexDeclaration : ¬hexDeclaration.InSetZero := fun h =>
  absurd ((h ['0', 'x', '1'] (by decide +kernel)).mem '1' (by decide)) (by decide)

/-- **Not every source keeps other sets out**: set 1 is reported as set 0. -/
theorem not_forall_keepsForeignOut : ¬∀ source, KeepsForeignOut source := by
  intro h
  obtain ⟨table, hscan, -, hfind⟩ := scan_spec hexSource
  have hname : table.find? 2 = some "foreign" := by
    rw [hfind, entries, found_hexSource, List.filterMap_cons_some request?_hexDeclaration]
    rfl
  obtain ⟨d, hfirst, -, hzero⟩ := (h hexSource).reported table 2 _ hscan hname
  rw [found_hexSource] at hfirst
  obtain rfl : hexDeclaration = d := Option.some.inj hfirst
  exact not_inSetZero_hexDeclaration hzero

end FrameGraph.SourceScan
