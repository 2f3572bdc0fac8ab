import FrameGraph.Proofs.Aliases
import FrameGraph.Proofs.PushedAccesses
import FrameGraph.Proofs.Sessions

/-!
# What timelines record

The timelines of an accepted frame lose nothing and record nothing twice. A buffer or an image has
an entry at each pass that declares it, under whatever name, and the entry joins all that the pass
declares of it (`Analysis.Complete`). Views, swapchains and nodes that no pass declares have no
timeline. It holds for every frame that is accepted in any session (`timelines_complete`).
-/

set_option autoImplicit false

namespace FrameGraph

/-! ## What a pass declares of a node -/

namespace Pass

variable (pass : Pass) (f : Forest) (shaders : Registry) (i : Nat) (n : Node)

/-- Whether a pass declares the node at a position, under any of its names. -/
def Touches : Prop := ∃ use ∈ pass.uses, f.StandsFor i use.resource

/-- Whether a usage is what one of the declarations of the node comes to. -/
def Asks (u : Usage) : Prop :=
  ∃ use ∈ pass.uses, f.StandsFor i use.resource ∧
    (Usage.classify shaders pass use n).result = .ok u

/-- Whether a state joins all that a pass declares of the node. -/
structure Joins (s : AccessState) : Prop where
  classified : ∀ use ∈ pass.uses, f.StandsFor i use.resource →
    ∃ u, (Usage.classify shaders pass use n).result = .ok u
  stage : ∀ bit, bit ∈ s.stage ↔ ∃ u, pass.Asks f shaders i n u ∧ bit ∈ u.stage
  access : ∀ bit, bit ∈ s.access ↔ ∃ u, pass.Asks f shaders i n u ∧ bit ∈ u.access
  image : ∀ desc, n.imageDesc? = some desc → s.layout = Usage.imageLayout s.access desc.format
  buffer : n.kind = .buffer → s.layout = .undefined
  isWrite_iff : s.isWrite = true ↔
    ∃ use ∈ pass.uses, f.StandsFor i use.resource ∧ use.mode.writes = true

end Pass

/-- Whether entries record what the passes of a frame declare of a node: one entry for each pass
that declares it, in pass order. -/
structure Forest.Records (f : Forest) (shaders : Registry) (passes : List Pass) (i : Nat) (n : Node)
    (es : List TimelineEntry) : Prop where
  increasing : es.Pairwise fun x y => x.pass < y.pass
  entry_iff : ∀ k, (∃ e ∈ es, e.pass = k) ↔ ∃ pass, passes[k]? = some pass ∧ pass.Touches f i
  joins : ∀ e ∈ es, ∀ pass, passes[e.pass]? = some pass → pass.Joins f shaders i n e.state

/-- Whether the timelines of a frame are those of the nodes that its passes declare, and whole. -/
structure Analysis.Complete (a : Analysis) (f : Forest) (shaders : Registry) (passes : List Pass) :
    Prop where
  recorded : ∀ (i : Nat) n, f.nodes[i]? = some n → (∃ pass ∈ passes, pass.Touches f i) →
    ∃ es, a.timeline? n.name = some es ∧ f.Records shaders passes i n es
  undeclared : ∀ (i : Nat) n, f.nodes[i]? = some n → (∀ pass ∈ passes, ¬ pass.Touches f i) →
    a.timeline? n.name = none
  /-- Views and swapchains have no timelines. -/
  untracked : ∀ (i : Nat) n, f.nodes[i]? = some n → ¬ n.IsTracked → a.timeline? n.name = none
  registered : ∀ t ∈ a.timelines, t.node.name ∈ f.names
  once : (a.timelines.map (·.node.name)).Nodup

section
variable {f : Forest} {shaders : Registry} {pass : Pass} {passes : List Pass} {i : Nat} {n : Node}
  {us : List NodeUse} {frame : List (List NodeUse)}

section
variable (hf : f.WellFormed) (hs : f.Seated) (h : PassDeclares f shaders pass us)
  (hn : f.nodes[i]? = some n)
include hf hs h hn

/-- What a declaration of a node comes to is among the uses of the pass. -/
theorem PassDeclares.exists_usage {use : Use} (huse : use ∈ pass.uses)
    (hstands : f.StandsFor i use.resource) :
    ∃ u, (Usage.classify shaders pass use n).result = .ok u ∧ ⟨i, u⟩ ∈ us := by
  obtain ⟨⟨j, u⟩, hu, p, hp, -, hclassify, hindex⟩ := exists_right_of_mem h.forall₂ huse
  rw [hstands.tracked hf hs hn] at hp
  obtain rfl := Except.ok.inj hp
  obtain rfl : j = i := hindex
  exact ⟨u, hclassify, hu⟩

/-- **The uses of a node in a pass are what its declarations come to.** -/
theorem PassDeclares.mem_iff {u : Usage} : ⟨i, u⟩ ∈ us ↔ pass.Asks f shaders i n u := by
  constructor
  · intro hu
    obtain ⟨use, huse, ⟨j, m⟩, hp, -, hclassify, hindex⟩ := exists_left_of_mem h.forall₂ hu
    obtain rfl : i = j := hindex
    obtain ⟨hm, hstands⟩ := (Forest.tracked_eq_ok_iff hf hs).1 hp
    rw [hn] at hm
    obtain rfl := Option.some.inj hm
    exact ⟨use, huse, hstands, hclassify⟩
  · rintro ⟨use, huse, hstands, hclassify⟩
    obtain ⟨v, hv, hmem⟩ := h.exists_usage hf hs hn huse hstands
    rw [hclassify] at hv
    obtain rfl := Except.ok.inj hv
    exact hmem

theorem PassDeclares.isSome_usageIn_iff :
    (Timeline.usageIn i us).isSome = true ↔ pass.Touches f i := by
  rw [Timeline.isSome_usageIn_iff]
  constructor
  · rintro ⟨u, hu⟩
    obtain ⟨use, huse, hstands, -⟩ := (h.mem_iff hf hs hn).1 hu
    exact ⟨use, huse, hstands⟩
  · rintro ⟨use, huse, hstands⟩
    obtain ⟨u, -, hu⟩ := h.exists_usage hf hs hn huse hstands
    exact ⟨u, hu⟩

/-- All uses of a node in a pass together. -/
theorem PassDeclares.joins {u : Usage} (hu : Timeline.usageIn i us = some u) :
    pass.Joins f shaders i n (u.stateOf n) where
  classified use huse hstands := by
    obtain ⟨v, hv, -⟩ := h.exists_usage hf hs hn huse hstands
    exact ⟨v, hv⟩
  stage bit := by
    simp only [← h.mem_iff hf hs hn]
    exact Timeline.mem_stage_usageIn_iff hu
  access bit := by
    simp only [← h.mem_iff hf hs hn]
    exact Timeline.mem_access_usageIn_iff hu
  image desc hdesc := by
    simp only [Usage.stateOf, hdesc]
  buffer hkind := by
    simp only [Usage.stateOf, n.imageDesc?_of_buffer hkind]
  isWrite_iff := by
    rw [AccessState.isWrite_iff]
    simp only [Usage.stateOf, Timeline.mem_access_usageIn_iff hu]
    constructor
    · rintro ⟨bit, ⟨v, hv, hbit⟩, hwrites⟩
      obtain ⟨use, huse, hstands, hclassify⟩ := (h.mem_iff hf hs hn).1 hv
      refine ⟨use, huse, hstands, ?_⟩
      rw [← (Usage.answers_classify hclassify).writes]
      exact Mask.meets_iff.2 ⟨bit, hbit, hwrites⟩
    · rintro ⟨use, huse, hstands, hmode⟩
      obtain ⟨v, hclassify, hv⟩ := h.exists_usage hf hs hn huse hstands
      rw [← (Usage.answers_classify hclassify).writes] at hmode
      obtain ⟨bit, hbit, hwrites⟩ := Mask.meets_iff.1 hmode
      exact ⟨bit, ⟨v, hv, hbit⟩, hwrites⟩

end

/-! ## What the passes of a frame declare of a node -/

section
variable (hf : f.WellFormed) (hs : f.Seated)
  (hframe : List.Forall₂ (PassDeclares f shaders) passes frame) (hn : f.nodes[i]? = some n)
include hf hs hframe hn

theorem records_ofNode : f.Records shaders passes i n (Timeline.ofNode i n frame).entries where
  increasing := Timeline.pairwise_entriesFrom ..
  entry_iff k := by
    constructor
    · rintro ⟨e, he, rfl⟩
      obtain ⟨j, us, u, hus, hu, rfl⟩ := Timeline.mem_entriesFrom_iff.1 he
      obtain ⟨pass, hpass, h⟩ : ∃ pass, passes[j]? = some pass ∧ PassDeclares f shaders pass us :=
        forall₂_getElem? hframe.flip hus
      refine ⟨pass, by simpa using hpass, (h.isSome_usageIn_iff hf hs hn).1 ?_⟩
      rw [hu]
      rfl
    · rintro ⟨pass, hpass, htouches⟩
      obtain ⟨us, hus, h⟩ := forall₂_getElem? hframe hpass
      obtain ⟨u, hu⟩ := Option.isSome_iff_exists.1 ((h.isSome_usageIn_iff hf hs hn).2 htouches)
      exact ⟨_, Timeline.mem_entriesFrom_iff.2 ⟨k, us, u, hus, hu, rfl⟩, Nat.zero_add k⟩
  joins e he pass hpass := by
    obtain ⟨j, us, u, hus, hu, rfl⟩ := Timeline.mem_entriesFrom_iff.1 he
    obtain ⟨us', hus', h⟩ := forall₂_getElem? hframe hpass
    rw [Nat.zero_add, hus] at hus'
    obtain rfl := Option.some.inj hus'
    exact h.joins hf hs hn hu

theorem entries_ne_nil_iff :
    (Timeline.ofNode i n frame).entries ≠ [] ↔ ∃ pass ∈ passes, pass.Touches f i := by
  have hentry := (records_ofNode hf hs hframe hn).entry_iff
  constructor
  · intro hne
    obtain ⟨e, he⟩ := List.exists_mem_of_ne_nil _ hne
    obtain ⟨pass, hpass, htouches⟩ := (hentry e.pass).1 ⟨e, he, rfl⟩
    exact ⟨pass, List.mem_of_getElem? hpass, htouches⟩
  · rintro ⟨pass, hpass, htouches⟩
    obtain ⟨k, hk⟩ := List.mem_iff_getElem?.1 hpass
    obtain ⟨e, he, -⟩ := (hentry k).2 ⟨pass, hk, htouches⟩
    exact List.ne_nil_of_mem he

end

/-! ## The timelines of a frame -/

theorem nodup_names_ofFrame (hf : f.WellFormed) :
    ((Timeline.ofFrame f.nodes frame).map (·.node.name)).Nodup := by
  refine Timeline.nodup_ofFrame.map_on fun t ht t' ht' hname => ?_
  obtain ⟨-, hn, -⟩ := Timeline.mem_ofFrame_iff.1 ht'
  exact (Timeline.eq_ofNode_of_name hf hn ht hname).trans
    (Timeline.eq_ofNode_of_name hf hn ht' rfl).symm

/-- A timeline records what the passes declare of its node. -/
theorem records_of_mem_timelines (hf : f.WellFormed) (hs : f.Seated) {a : Analysis} {f' : Forest}
    (h : (analyze passes f shaders).result = .ok (a, f')) {t : Timeline} (ht : t ∈ a.timelines) :
    f.Records shaders passes t.index t.node t.entries := by
  obtain ⟨frame, hframe, ha, -⟩ := analyze_frame h
  rw [ha] at ht
  obtain ⟨-, hn, hentries⟩ := Timeline.mem_ofFrame_iff.1 ht
  have hrecords := records_ofNode hf hs hframe hn
  rwa [Timeline.ofNode, ← hentries] at hrecords

theorem complete_of_analyze {a : Analysis} {f' : Forest} (hf : f.WellFormed) (hs : f.Seated)
    (h : (analyze passes f shaders).result = .ok (a, f')) : a.Complete f shaders passes := by
  obtain ⟨frame, hframe, ha, -⟩ := analyze_frame h
  have hnone (i : Nat) (n : Node) (hn : f.nodes[i]? = some n)
      (huntouched : ∀ pass ∈ passes, ¬ pass.Touches f i) : a.timeline? n.name = none := by
    rw [timeline?_eq ha hf hn, if_pos]
    by_contra hne
    obtain ⟨pass, hpass, htouches⟩ := (entries_ne_nil_iff hf hs hframe hn).1 hne
    exact huntouched pass hpass htouches
  refine ⟨fun i n hn htouched => ?_, hnone, fun i n hn huntracked => ?_, fun t ht => ?_, ?_⟩
  · refine ⟨_, ?_, records_ofNode hf hs hframe hn⟩
    rw [timeline?_eq ha hf hn, if_neg ((entries_ne_nil_iff hf hs hframe hn).2 htouched)]
  · refine hnone i n hn fun pass _ ⟨use, _, hstands⟩ => huntracked ?_
    obtain ⟨m, hm, htracked⟩ := hstands.exists_node hs
    rw [hn] at hm
    obtain rfl := Option.some.inj hm
    exact htracked
  · have hnode := (node_of_mem_timelines h ht).1
    exact List.mem_map.2 ⟨t.node, List.mem_of_getElem? hnode, rfl⟩
  · rw [ha]
    exact nodup_names_ofFrame hf

end

open Relation (ReflTransGen)

/-- **The timelines of a frame lose nothing and record nothing twice.** They are those that grow
while the declarations are gone through one after the other. -/
theorem timelines_complete {δ : Type} [Device δ] {Aside : ObjectCache × δ → ObjectCache × δ → Prop}
    {d : δ} {s : Session δ} {passes : List Pass} {shaders : Registry} {a : Analysis} {f' : Forest}
    (hrun : ReflTransGen (Session.Step Aside) { device := d } s)
    (h : (analyze passes s.forest shaders).result = .ok (a, f')) :
    (pushFrame s.forest shaders passes).result = .ok a.timelines ∧
      a.Complete s.forest shaders passes :=
  ⟨pushFrame_of_analyze h,
    complete_of_analyze (Session.wellFormed_kept hrun .empty) (Session.seated_kept hrun .empty) h⟩

/-! ### A canvas and a window, under several names -/

namespace Gallery

def window : SwapchainImport := ⟨[⟨1⟩], .b8g8r8a8Unorm, ⟨4, 4⟩⟩

def session : Session Headless where
  forest := {
    nodes := [
      { name := "window", residency := .swapchain, payload := .swapchain window 0, life := 1 },
      { name := "window/0"
        residency := .swapchain
        payload := .image window.imageDesc (some ⟨1⟩) true
        parent := some 0
        life := 1 },
      { name := "window/0/window/0"
        residency := .swapchain
        payload := .imageView window.imageDesc.defaultView "window/0" (some ⟨2⟩)
        parent := some 1
        life := 1 },
      { name := "canvas", residency := .transient, payload := .image {} (some ⟨3⟩) false, life := 2 },
      { name := "canvas/canvas"
        residency := .transient
        payload := .imageView (ImageDesc.defaultView {}) "canvas" (some ⟨4⟩)
        parent := some 3
        life := 2 }]
    life := 2 }
  device := {
    lastHandle := 4
    created := { images := 1, imageViews := 2 }
    images := [(⟨3⟩, "canvas")]
    imageViews := [(⟨2⟩, ⟨1⟩), (⟨4⟩, ⟨3⟩)] }

theorem steps : ReflTransGen (Session.Step (δ := Headless) fun _ _ => False)
    { device := { lastHandle := 1 } } session :=
  .tail (.tail (.tail (.tail .refl
    (.operate (o := .addSwapchain "window" window) rfl))
    (.operate (o := .mount "window") rfl))
    (.operate (o := .addImage "canvas" {} .transient) rfl))
    (.operate (o := .mount "canvas") rfl)

/-- Each image is declared twice in the first pass, under two names. -/
def passes : List Pass :=
  [⟨"sketch", .copy, Use.copy "canvas/canvas" "window" ++ Use.copy "window/0" "canvas"⟩,
   ⟨"show", .copy, Use.copy "canvas" "window/0/window/0"⟩]

end Gallery

theorem timelines_complete_gallery :
    ReflTransGen (Session.Step (δ := Headless) fun _ _ => False)
      { device := { lastHandle := 1 } } Gallery.session ∧
    ∃ a f', (analyze Gallery.passes Gallery.session.forest {}).result = .ok (a, f') ∧
      (pushFrame Gallery.session.forest {} Gallery.passes).result = .ok a.timelines ∧
      a.Complete Gallery.session.forest {} Gallery.passes :=
  ⟨Gallery.steps, _, _, rfl, timelines_complete Gallery.steps rfl⟩

/-- Two images have timelines, and each has one entry for the first pass, which reads and writes. -/
example : (analyze Gallery.passes Gallery.session.forest {}).result.toOption.map
    (fun r => r.1.timelines.map fun t => (t.node.name, t.entries)) =
    some [
      ("canvas", [⟨0, .transfer, AccessMask.transferRead ∪ AccessMask.transferWrite, .transferDst⟩,
        ⟨1, .transfer, .transferRead, .transferSrc⟩]),
      ("window/0", [⟨0, .transfer, AccessMask.transferRead ∪ AccessMask.transferWrite, .transferDst⟩,
        ⟨1, .transfer, .transferWrite, .transferDst⟩])] := by rfl

end FrameGraph
