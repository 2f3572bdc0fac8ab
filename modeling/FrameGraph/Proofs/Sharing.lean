import FrameGraph.Proofs.Caching
import FrameGraph.Proofs.Compiling
import Mathlib.Algebra.GroupWithZero.Nat
import Mathlib.Data.List.Dedup

/-!
# Who shares an object

Any number of calls for objects, on one headless device and through a cache that is empty at first;
in between the device may serve others (`CallLog.Step`). Two calls that succeed get the same object
exactly when they describe it alike, in every field; a call that fails leaves no trace, and the next
one with its description asks the device again. So the cache holds as many objects as different
descriptions succeeded, which is as many as it had the device make, and its statistics tell how many
calls succeeded (`callLog_lawful`).
-/

set_option autoImplicit false

namespace FrameGraph

open Relation (ReflTransGen)

/-- A call for an object, with the cache and the device that it meets. -/
structure ObjectCall where
  desc : ObjectDesc
  cache : ObjectCache
  device : Headless

namespace ObjectCall

/-- What the call gives, and the cache and the device after it. -/
def outcome (x : ObjectCall) : Except DeviceError (Handle x.desc.kind) × ObjectCache × Headless :=
  x.cache.getOrCreate x.desc x.device

/-- The number of the handle that the call gives. -/
def handle? (x : ObjectCall) : Option Nat := x.outcome.1.toOption.map (·.id)

def succeeds (x : ObjectCall) : Bool := x.handle?.isSome

/-- How many objects of a kind the device makes in the call. -/
def made (x : ObjectCall) (k : ObjectKind) : Nat :=
  x.outcome.2.2.created.cached k - x.device.created.cached k

end ObjectCall

/-- Calls that were made, in order, and what they left behind. -/
structure CallLog where
  calls : List ObjectCall := []
  cache : ObjectCache := {}
  device : Headless

namespace CallLog

/-- One more call. -/
def call (s : CallLog) (desc : ObjectDesc) : CallLog where
  calls := s.calls ++ [⟨desc, s.cache, s.device⟩]
  cache := (s.cache.getOrCreate desc s.device).2.1
  device := (s.cache.getOrCreate desc s.device).2.2

inductive Step : CallLog → CallLog → Prop
  | call (s : CallLog) (desc : ObjectDesc) : Step s (s.call desc)
  /-- What else the device gives out, it gives out under new handles. -/
  | aside (s : CallLog) {d : Headless} (h : s.device.lastHandle ≤ d.lastHandle) :
      Step s ⟨s.calls, s.cache, d⟩

/-- The descriptions of the calls that succeeded. -/
def succeeded (s : CallLog) : List ObjectDesc :=
  (s.calls.filter (·.succeeds)).map (·.desc)

end CallLog

/-- What holds of any number of calls. -/
structure CallLog.Lawful (s : CallLog) : Prop where
  shared : ∀ x ∈ s.calls, ∀ y ∈ s.calls, ∀ m n, x.handle? = some m → y.handle? = some n →
    (m = n ↔ x.desc = y.desc)
  /-- A call finds its object if one with its description succeeded before, and only then. -/
  found : ∀ before x after, s.calls = before ++ x :: after →
    ((x.cache.find? x.desc).isSome ↔ ∃ y ∈ before, y.desc = x.desc ∧ y.succeeds)
  failed : ∀ x ∈ s.calls, x.succeeds = false → x.outcome.2.1 = x.cache
  retried : ∀ before x between y after, s.calls = before ++ x :: between ++ y :: after →
    x.succeeds = false → y.desc = x.desc →
      y.cache.find? y.desc = none ∧ (y.outcome.1, y.outcome.2.2) = y.desc.create y.device
  counted : ∀ k, s.cache.count k = (s.succeeded.filter (·.kind == k)).dedup.length
  made : ∀ k, (s.calls.map (·.made k)).sum = s.cache.count k
  calls : s.cache.hits + s.cache.misses = s.calls.countP (·.succeeds)
  misses : s.cache.misses = s.cache.count .renderPass + s.cache.count .framebuffer +
    s.cache.count .pipeline + s.cache.count .setLayout + s.cache.count .pipelineLayout

/-! ## One call -/

namespace ObjectCache

variable {c : ObjectCache} {desc : ObjectDesc} {d : Headless} {k : ObjectKind}

/-- An object is found under each description that there is an entry for. -/
theorem isSome_find?_iff : (c.find? desc).isSome ↔ desc ∈ c.entries.map Prod.fst := by
  rw [find?, Option.isSome_map]
  induction c.entries with
  | nil => simp
  | cons e entries ih =>
    rw [List.lookup_cons, List.map_cons, List.mem_cons]
    by_cases he : desc = e.1
    · simp [he]
    · rw [beq_eq_false_iff_ne.2 he, or_iff_right he]
      exact ih

theorem find?_eq_none_iff : c.find? desc = none ↔ desc ∉ c.entries.map Prod.fst := by
  rw [← isSome_find?_iff, Option.not_isSome_iff_eq_none]

theorem count_add (h : Handle desc.kind) :
    (c.add desc h).count k = c.count k + if desc.kind = k then 1 else 0 := by
  simp [count, add, List.countP_append, List.countP_singleton]

/-- **A call finds its object, is refused, or has it made.** -/
theorem getOrCreate_cases (c : ObjectCache) (desc : ObjectDesc) (d : Headless) :
    (∃ h, c.find? desc = some h ∧ c.getOrCreate desc d = (.ok h, c.found 1, d)) ∨
    (c.find? desc = none ∧ desc.Refused ∧
      c.getOrCreate desc d = (.error .initializationFailed, c, d)) ∨
    c.find? desc = none ∧ ¬ desc.Refused ∧ ∃ d',
      c.getOrCreate desc d = (.ok ⟨d.lastHandle + 1⟩, c.add desc ⟨d.lastHandle + 1⟩, d') ∧
      d'.lastHandle = d.lastHandle + 1 ∧
      ∀ k, d'.created.cached k = d.created.cached k + if desc.kind = k then 1 else 0 := by
  cases hfind : c.find? desc with
  | some h => exact .inl ⟨h, rfl, getOrCreate_of_find hfind d⟩
  | none =>
    refine .inr ?_
    by_cases hrefused : desc.Refused
    · refine .inl ⟨rfl, hrefused, ?_⟩
      rw [getOrCreate, hfind, ObjectDesc.create_of_refused hrefused]
    · obtain ⟨d', hcreate, hlast, hcreated⟩ := ObjectDesc.exists_create hrefused d
      refine .inr ⟨rfl, hrefused, d', ?_, hlast, hcreated⟩
      rw [getOrCreate, hfind, hcreate]

/-- Every object is of one of the five kinds. -/
theorem length_entries (c : ObjectCache) : c.entries.length = c.count .renderPass +
    c.count .framebuffer + c.count .pipeline + c.count .setLayout + c.count .pipelineLayout := by
  unfold count
  induction c.entries with
  | nil => rfl
  | cons e entries ih =>
    obtain ⟨desc, id⟩ := e
    simp only [List.length_cons, List.countP_cons, ih]
    cases desc <;> simp [ObjectDesc.kind] <;> omega

end ObjectCache

/-! ## Any number of calls -/

namespace CallLog

variable {d : Headless} {s : CallLog} {x y : ObjectCall}

/-- The calls before a call were made without it, and left what it meets. -/
theorem exists_before {before after : List ObjectCall} (h : ReflTransGen Step { device := d } s)
    (hcalls : s.calls = before ++ x :: after) :
    ReflTransGen Step { device := d } ⟨before, x.cache, x.device⟩ := by
  induction h generalizing after with
  | refl => simp at hcalls
  | @tail t _ ht hstep ih =>
    cases hstep with
    | aside h => exact ih hcalls
    | call desc =>
      rcases List.eq_nil_or_concat after with rfl | ⟨after', z, rfl⟩
      · obtain ⟨rfl, hx⟩ := List.append_inj' hcalls rfl
        obtain rfl := (List.cons.inj hx).1
        exact ht
      · rw [List.concat_eq_append, ← List.cons_append, ← List.append_assoc] at hcalls
        exact ih (List.append_inj' hcalls rfl).1

/-- What every call keeps: each entry of the cache is the object of a call that succeeded, under a
number of its own. -/
structure Sound (s : CallLog) : Prop where
  keys : (s.cache.entries.map Prod.fst).Nodup
  ids : (s.cache.entries.map Prod.snd).Nodup
  known : ∀ e ∈ s.cache.entries, e.2 ≤ s.device.lastHandle
  mem_iff : ∀ desc id, (desc, id) ∈ s.cache.entries ↔
    ∃ x ∈ s.calls, x.desc = desc ∧ x.handle? = some id
  accepted : ∀ e ∈ s.cache.entries, ¬ e.1.Refused
  made : ∀ k, (s.calls.map (·.made k)).sum = s.cache.count k
  calls : s.cache.hits + s.cache.misses = s.calls.countP (·.succeeds)
  misses : s.cache.misses = s.cache.entries.length

theorem Sound.start (d : Headless) : Sound { device := d } where
  keys := List.nodup_nil
  ids := List.nodup_nil
  known := List.forall_mem_nil _
  mem_iff := by simp
  accepted := List.forall_mem_nil _
  made _ := rfl
  calls := rfl
  misses := rfl

theorem exists_concat_iff {P : ObjectCall → Prop} :
    (∃ y ∈ s.calls ++ [x], P y) ↔ (∃ y ∈ s.calls, P y) ∨ P x := by
  simp [or_and_right, exists_or]

theorem sum_made_concat (h : s.Sound) (hmade : ∀ k, x.made k = 0) (k : ObjectKind) :
    ((s.calls ++ [x]).map (·.made k)).sum = s.cache.count k := by
  rw [List.map_append, List.sum_append, h.made]
  simp [hmade]

/-- A call that finds its object. -/
theorem Sound.hit {desc : ObjectDesc} {made : Handle desc.kind} (h : s.Sound)
    (hfind : s.cache.find? desc = some made) (hdesc : x.desc = desc)
    (hx : x.handle? = some made.id) (hmade : ∀ k, x.made k = 0) :
    Sound ⟨s.calls ++ [x], s.cache.found 1, s.device⟩ where
  keys := h.keys
  ids := h.ids
  known := h.known
  accepted := h.accepted
  made := sum_made_concat h hmade
  misses := h.misses
  mem_iff desc' id := by
    show (desc', id) ∈ s.cache.entries ↔ _
    rw [exists_concat_iff, ← h.mem_iff, or_iff_left_of_imp]
    rintro ⟨rfl, hid⟩
    subst hdesc
    rw [hx] at hid
    obtain rfl := Option.some.inj hid
    exact ObjectCache.mem_of_find? hfind
  calls := by
    have hsucceeds : x.succeeds = true := by rw [ObjectCall.succeeds, hx, Option.isSome_some]
    have hcalls := h.calls
    show s.cache.hits + 1 + s.cache.misses = _
    rw [List.countP_append, List.countP_singleton, hsucceeds, if_pos rfl]
    omega

/-- A call that is refused. -/
theorem Sound.refuse (h : s.Sound) (hx : x.handle? = none) (hmade : ∀ k, x.made k = 0) :
    Sound ⟨s.calls ++ [x], s.cache, s.device⟩ where
  keys := h.keys
  ids := h.ids
  known := h.known
  accepted := h.accepted
  made := sum_made_concat h hmade
  misses := h.misses
  mem_iff desc' id := by
    rw [exists_concat_iff, ← h.mem_iff, or_iff_left_of_imp]
    rintro ⟨-, hid⟩
    rw [hx] at hid
    cases hid
  calls := by
    have hfails : x.succeeds = false := by rw [ObjectCall.succeeds, hx, Option.isSome_none]
    rw [List.countP_append, List.countP_singleton, hfails, if_neg Bool.false_ne_true]
    exact h.calls

/-- A call that has its object made. -/
theorem Sound.make {desc : ObjectDesc} {d' : Headless} (h : s.Sound)
    (hfind : s.cache.find? desc = none) (hrefused : ¬ desc.Refused) (hdesc : x.desc = desc)
    (hx : x.handle? = some (s.device.lastHandle + 1))
    (hmade : ∀ k, x.made k = if desc.kind = k then 1 else 0)
    (hlast : d'.lastHandle = s.device.lastHandle + 1) :
    Sound ⟨s.calls ++ [x], s.cache.add desc ⟨s.device.lastHandle + 1⟩, d'⟩ where
  keys := by
    show ((s.cache.entries ++ [(desc, s.device.lastHandle + 1)]).map Prod.fst).Nodup
    rw [List.map_append, List.nodup_append]
    refine ⟨h.keys, List.nodup_singleton _, fun a ha b hb hab => ?_⟩
    obtain rfl := List.mem_singleton.1 hb
    exact ObjectCache.find?_eq_none_iff.1 hfind (hab ▸ ha)
  ids := by
    show ((s.cache.entries ++ [(desc, s.device.lastHandle + 1)]).map Prod.snd).Nodup
    rw [List.map_append, List.nodup_append]
    refine ⟨h.ids, List.nodup_singleton _, fun a ha b hb hab => ?_⟩
    obtain rfl := List.mem_singleton.1 hb
    obtain ⟨e, he, rfl⟩ := List.mem_map.1 ha
    have hknown := h.known e he
    omega
  known e he := by
    rw [hlast]
    rcases List.mem_append.1 he with he | he
    · exact Nat.le_succ_of_le (h.known e he)
    · obtain rfl := List.mem_singleton.1 he
      exact Nat.le_refl _
  accepted e he := by
    rcases List.mem_append.1 he with he | he
    · exact h.accepted e he
    · obtain rfl := List.mem_singleton.1 he
      exact hrefused
  made k := by
    rw [List.map_append, List.sum_append, h.made, ObjectCache.count_add, ← hmade]
    simp
  misses := by
    show s.cache.misses + 1 = (s.cache.entries ++ [_]).length
    rw [List.length_append, List.length_singleton, h.misses]
  mem_iff desc' id := by
    show (desc', id) ∈ s.cache.entries ++ [(desc, s.device.lastHandle + 1)] ↔ _
    rw [List.mem_append, exists_concat_iff, ← h.mem_iff, hdesc, hx, List.mem_singleton,
      Prod.mk.injEq, Option.some.injEq, eq_comm, eq_comm (a := id)]
  calls := by
    have hsucceeds : x.succeeds = true := by rw [ObjectCall.succeeds, hx, Option.isSome_some]
    have hcalls := h.calls
    show s.cache.hits + (s.cache.misses + 1) = _
    rw [List.countP_append, List.countP_singleton, hsucceeds, if_pos rfl]
    omega

theorem Sound.call (h : s.Sound) (desc : ObjectDesc) : (s.call desc).Sound := by
  unfold CallLog.call
  rcases s.cache.getOrCreate_cases desc s.device with
    ⟨made, hfind, hget⟩ | ⟨-, -, hget⟩ | ⟨hfind, hrefused, d', hget, hlast, hcreated⟩
  · rw [hget]
    refine h.hit hfind rfl ?_ fun k => ?_
    · rw [ObjectCall.handle?, ObjectCall.outcome, hget]
      rfl
    · rw [ObjectCall.made, ObjectCall.outcome, hget]
      exact Nat.sub_self _
  · rw [hget]
    refine h.refuse ?_ fun k => ?_
    · rw [ObjectCall.handle?, ObjectCall.outcome, hget]
      rfl
    · rw [ObjectCall.made, ObjectCall.outcome, hget]
      exact Nat.sub_self _
  · rw [hget]
    refine h.make hfind hrefused rfl ?_ (fun k => ?_) hlast
    · rw [ObjectCall.handle?, ObjectCall.outcome, hget]
      rfl
    · rw [ObjectCall.made, ObjectCall.outcome, hget]
      exact Nat.sub_eq_of_eq_add' (hcreated k)

/-- **What the cache holds, the calls tell.** -/
theorem Sound.run (h : ReflTransGen Step { device := d } s) : s.Sound := by
  refine kept_by_all (fun s s' hstep hs => ?_) h (.start d)
  cases hstep with
  | call desc => exact hs.call desc
  | aside hlast =>
    exact ⟨hs.keys, hs.ids, fun e he => Nat.le_trans (hs.known e he) hlast, hs.mem_iff, hs.accepted,
      hs.made, hs.calls, hs.misses⟩

/-! ## The laws -/

/-- A call fails exactly if its object cannot be made. -/
theorem Sound.succeeds_iff {x : ObjectCall} {before : List ObjectCall}
    (h : Sound ⟨before, x.cache, x.device⟩) : x.succeeds = true ↔ ¬ x.desc.Refused := by
  unfold ObjectCall.succeeds ObjectCall.handle? ObjectCall.outcome
  rcases x.cache.getOrCreate_cases x.desc x.device with
    ⟨made, hfind, hget⟩ | ⟨-, hrefused, hget⟩ | ⟨-, hrefused, d', hget, -, -⟩
  · rw [hget]
    exact iff_of_true rfl (h.accepted _ (ObjectCache.mem_of_find? hfind))
  · rw [hget]
    exact iff_of_false Bool.false_ne_true (not_not_intro hrefused)
  · rw [hget]
    exact iff_of_true rfl hrefused

theorem Sound.refused {x : ObjectCall} {before : List ObjectCall}
    (h : Sound ⟨before, x.cache, x.device⟩) (hfails : x.succeeds = false) : x.desc.Refused := by
  by_contra hrefused
  have hsucceeds := h.succeeds_iff.2 hrefused
  exact Bool.noConfusion (hsucceeds.symm.trans hfails)

/-- A call that fails has asked the device, and left the cache as it was. -/
theorem Sound.of_fails {x : ObjectCall} {before : List ObjectCall}
    (h : Sound ⟨before, x.cache, x.device⟩) (hx : x.desc.Refused) :
    x.cache.find? x.desc = none ∧ x.outcome.2.1 = x.cache ∧
      (x.outcome.1, x.outcome.2.2) = x.desc.create x.device := by
  unfold ObjectCall.outcome
  rcases x.cache.getOrCreate_cases x.desc x.device with
    ⟨made, hfind, hget⟩ | ⟨hnone, -, hget⟩ | ⟨-, hrefused, -⟩
  · exact absurd hx (h.accepted _ (ObjectCache.mem_of_find? hfind))
  · rw [hget, ObjectDesc.create_of_refused hx]
    exact ⟨hnone, rfl, rfl⟩
  · exact absurd hx hrefused

theorem Sound.shared (h : s.Sound) {m n : Nat} (hx : x ∈ s.calls) (hy : y ∈ s.calls)
    (hm : x.handle? = some m) (hn : y.handle? = some n) : m = n ↔ x.desc = y.desc := by
  have hxm : (x.desc, m) ∈ s.cache.entries := (h.mem_iff _ _).2 ⟨x, hx, rfl, hm⟩
  have hyn : (y.desc, n) ∈ s.cache.entries := (h.mem_iff _ _).2 ⟨y, hy, rfl, hn⟩
  constructor
  · rintro rfl
    exact congrArg Prod.fst (List.inj_on_of_nodup_map h.ids hxm hyn rfl)
  · intro hdesc
    exact congrArg Prod.snd (List.inj_on_of_nodup_map h.keys hxm hyn hdesc)

/-- There is an object for each description that succeeded. -/
theorem Sound.mem_keys_iff (h : s.Sound) {desc : ObjectDesc} :
    desc ∈ s.cache.entries.map Prod.fst ↔ ∃ x ∈ s.calls, x.desc = desc ∧ x.succeeds = true := by
  rw [List.mem_map]
  constructor
  · rintro ⟨⟨desc, id⟩, he, rfl⟩
    obtain ⟨x, hx, hdesc, hid⟩ := (h.mem_iff _ _).1 he
    exact ⟨x, hx, hdesc, by rw [ObjectCall.succeeds, hid, Option.isSome_some]⟩
  · rintro ⟨x, hx, hdesc, hsucceeds⟩
    obtain ⟨id, hid⟩ := Option.isSome_iff_exists.1 hsucceeds
    exact ⟨(desc, id), (h.mem_iff _ _).2 ⟨x, hx, hdesc, hid⟩, rfl⟩

theorem Sound.counted (h : s.Sound) (k : ObjectKind) :
    s.cache.count k = (s.succeeded.filter (·.kind == k)).dedup.length := by
  have hcount : s.cache.count k =
      ((s.cache.entries.map Prod.fst).filter (·.kind == k)).length := by
    rw [← List.countP_eq_length_filter, List.countP_map]
    rfl
  rw [hcount]
  refine List.Perm.length_eq ((List.perm_ext_iff_of_nodup (h.keys.filter _)
    (List.nodup_dedup _)).2 fun desc => ?_)
  rw [List.mem_filter, List.mem_dedup, List.mem_filter, h.mem_keys_iff]
  simp [succeeded, and_comm, and_left_comm]

end CallLog

/-- **Calls for objects share what they describe alike, and nothing else is kept or counted.** -/
theorem callLog_lawful {d : Headless} {s : CallLog}
    (h : ReflTransGen CallLog.Step { device := d } s) : s.Lawful := by
  have hs := CallLog.Sound.run h
  have hbefore {before after : List ObjectCall} {x : ObjectCall}
      (hcalls : s.calls = before ++ x :: after) : CallLog.Sound ⟨before, x.cache, x.device⟩ :=
    CallLog.Sound.run (CallLog.exists_before h hcalls)
  refine ⟨fun x hx y hy m n hm hn => hs.shared hx hy hm hn, fun before x after hcalls => ?_,
    fun x hx hfails => ?_, fun before x between y after hcalls hfails hdesc => ?_, hs.counted,
    hs.made, hs.calls, ?_⟩
  · rw [ObjectCache.isSome_find?_iff]
    exact (hbefore hcalls).mem_keys_iff
  · obtain ⟨before, after, hcalls⟩ := List.append_of_mem hx
    have hx := hbefore hcalls
    exact (hx.of_fails (hx.refused hfails)).2.1
  · have hx : CallLog.Sound ⟨before, x.cache, x.device⟩ :=
      hbefore (hcalls.trans (List.append_assoc _ _ _))
    have hrefused := hx.refused hfails
    obtain ⟨hnone, -, hcreate⟩ := (hbefore hcalls).of_fails (hdesc ▸ hrefused)
    exact ⟨hnone, hcreate⟩
  · rw [hs.misses, ObjectCache.length_entries]

/-! ### Framebuffers on one render pass and on none -/

namespace Drafts

def pass : ObjectDesc := .renderPass ⟨[], [{}], []⟩

/-- A framebuffer on the render pass, or on the null one. -/
def framebuffer (renderPass : Nat) (views : List (Handle .imageView)) : ObjectDesc :=
  .framebuffer ⟨⟨renderPass⟩, 4, 4, 1, views⟩

/-- Up to here there are a render pass and a framebuffer that was refused. -/
def begun : CallLog := (CallLog.call { device := {} } pass).call (framebuffer 0 [])

/-- Two views were made aside. -/
def device : Headless :=
  { begun.device with
    lastHandle := 3
    imageViews := [(⟨2⟩, ⟨1⟩), (⟨3⟩, ⟨1⟩)] }

def log : CallLog :=
  (((CallLog.call ⟨begun.calls, begun.cache, device⟩ pass).call (framebuffer 0 [])).call
    (framebuffer 1 [⟨2⟩])).call (framebuffer 1 [⟨3⟩])

theorem steps : ReflTransGen CallLog.Step { device := {} } log := by
  have hbegun : ReflTransGen CallLog.Step { device := {} } begun :=
    .tail (.single (.call _ pass)) (.call _ (framebuffer 0 []))
  have haside : CallLog.Step begun ⟨begun.calls, begun.cache, device⟩ := .aside begun (by decide)
  exact ((((hbegun.tail haside).tail (.call _ pass)).tail (.call _ (framebuffer 0 []))).tail
    (.call _ (framebuffer 1 [⟨2⟩]))).tail (.call _ (framebuffer 1 [⟨3⟩]))

end Drafts

theorem callLog_lawful_drafts :
    ReflTransGen CallLog.Step { device := {} } Drafts.log ∧ Drafts.log.Lawful ∧
    Drafts.log.calls.map (·.handle?) = [some 1, none, some 1, none, some 4, some 5] :=
  ⟨Drafts.steps, callLog_lawful Drafts.steps, rfl⟩

end FrameGraph
