import FrameGraph.Proofs.Aliases
import FrameGraph.Proofs.Histories
import FrameGraph.Proofs.Recompiling
import FrameGraph.Proofs.Unfolding

/-!
# What becomes of swapchains

A swapchain is unfolded as a whole or not at all, and what it brings in stays as it is, whatever is
mounted and released afterwards (`Forest.KeepsSwapchains`). So a history tells which of its images a
swapchain stands for, and that it has all of them once it was mounted (`Forest.Presents`,
`Forest.Reached.follows`).
-/

set_option autoImplicit false

namespace FrameGraph

open Relation (ReflTransGen)

/-! ## What a history asks of a swapchain -/

/-- The number that an operation acquires from the swapchain of that name. -/
def Operation.acquired? (name : String) : Operation → Option Nat
  | .acquire n index => if n = name then some index else none
  | _ => none

/-- The number last acquired from the swapchain of that name, or `0`. -/
def lastAcquired (name : String) (os : List Operation) : Nat :=
  (os.filterMap (·.acquired? name)).getLast?.getD 0

/-- The name that must be registered before an image is acquired or a tree is mounted. -/
def Operation.asksFor? : Operation → Option String
  | .acquire name _ => some name
  | .mount name => some name
  | _ => none

section
variable {name : String} {os : List Operation} {o : Operation}

theorem acquired?_of_not_asksFor (h : o.asksFor? ≠ some name) : o.acquired? name = none := by
  cases o with
  | acquire n index =>
    have hne : n ≠ name := fun heq => h (congrArg some heq)
    simp [Operation.acquired?, hne]
  | _ => rfl

theorem lastAcquired_concat :
    lastAcquired name (os ++ [o]) = (o.acquired? name).getD (lastAcquired name os) := by
  cases ho : o.acquired? name with
  | none => simp [lastAcquired, ho]
  | some index => simp [lastAcquired, ho]

/-- From a swapchain that was never asked for, nothing was acquired. -/
theorem lastAcquired_of_forall (h : ∀ o ∈ os, o.asksFor? ≠ some name) :
    lastAcquired name os = 0 := by
  have hnone : os.filterMap (·.acquired? name) = [] :=
    List.filterMap_eq_nil_iff.2 fun o ho => acquired?_of_not_asksFor (h o ho)
  simp [lastAcquired, hnone]

end

/-! ## Images that stay -/

namespace Forest

/-- Whether a swapchain has all of its images as children, in their order. -/
structure Unfolded (f : Forest) (i : Nat) (name : String) (source : SwapchainImport) : Prop where
  length : (f.children i).length = source.images.length
  child : ∀ (k j : Nat) image, (f.children i)[k]? = some j → source.images[k]? = some image →
    ∃ n, f.nodes[j]? = some n ∧ n.name = shownName name k ∧
      n.payload = .image source.imageDesc (some image) true

/-- Whether what is there and not owned stays as it is, and swapchains unfold as a whole or not at
all. -/
structure KeepsSwapchains (f f' : Forest) : Prop where
  kept : ∀ (i : Nat) n, f.nodes[i]? = some n → ∃ n', f'.nodes[i]? = some n' ∧ n.Keeps n' ∧
    (n.isBacked = true → n.payload.isOwned = false → n'.payload = n.payload)
  new : ∀ (i : Nat) n', f'.nodes[i]? = some n' → f.nodes[i]? = none → n'.kind ≠ .swapchain
  children : ∀ (i : Nat) n source acquired, f.nodes[i]? = some n →
    n.payload = .swapchain source acquired →
      f'.children i = f.children i ∨ f.children i = [] ∧ f'.Unfolded i n.name source

variable {f f' f'' g : Forest} {n : Node} {i j : Nat} {name : String} {source : SwapchainImport}
  {acquired : Nat}

theorem Unfolded.mono (hf : f.Unfolded i name source) (hsame : f'.children i = f.children i)
    (hkept : ∀ (j : Nat) m desc image, f.nodes[j]? = some m →
      m.payload = .image desc (some image) true →
      ∃ m', f'.nodes[j]? = some m' ∧ m'.name = m.name ∧ m'.payload = m.payload) :
    f'.Unfolded i name source where
  length := by rw [hsame, hf.length]
  child k j image hj himage := by
    rw [hsame] at hj
    obtain ⟨m, hm, hname, hp⟩ := hf.child k j image hj himage
    obtain ⟨m', hm', hname', hp'⟩ := hkept j m _ image hm hp
    exact ⟨m', hm', hname'.trans hname, hp'.trans hp⟩

namespace KeepsSwapchains

/-- A swapchain that is kept is the same swapchain. -/
theorem swapchain (h : f.KeepsSwapchains f') (hn : f.nodes[i]? = some n)
    (hp : n.payload = .swapchain source acquired) :
    ∃ n', f'.nodes[i]? = some n' ∧ n'.name = n.name ∧ n'.payload = .swapchain source acquired := by
  obtain ⟨n', hn', hk, hpayload⟩ := h.kept i n hn
  have hbacked : n.isBacked = true := by
    rw [Node.isBacked, hp]
    rfl
  have hunowned : n.payload.isOwned = false := by
    rw [hp]
    rfl
  exact ⟨n', hn', hk.name, (hpayload hbacked hunowned).trans hp⟩

/-- No swapchain comes to be. -/
theorem exists_swapchain (h : f.KeepsSwapchains f') {n' : Node} (hn' : f'.nodes[i]? = some n')
    (hp' : n'.payload = .swapchain source acquired) :
    ∃ n, f.nodes[i]? = some n ∧ n.name = n'.name ∧ n.payload = .swapchain source acquired := by
  have hkind : n'.kind = .swapchain := by
    rw [Node.kind, hp']
    rfl
  cases hn : f.nodes[i]? with
  | none => exact absurd hkind (h.new i n' hn' hn)
  | some n =>
    obtain ⟨m, hm, hk, -⟩ := h.kept i n hn
    obtain rfl := Option.some.inj (hn'.symm.trans hm)
    cases hp : n.payload with
    | swapchain source' acquired' =>
      obtain ⟨m, hm, hname, hpayload⟩ := h.swapchain hn hp
      obtain rfl := Option.some.inj (hn'.symm.trans hm)
      refine ⟨n, rfl, hname.symm, ?_⟩
      rw [hp, ← hpayload, hp']
    | _ =>
      have hother := hk.kind.symm.trans hkind
      rw [Node.kind, hp] at hother
      cases hother

theorem unfolded (h : f.KeepsSwapchains f') (hn : f.nodes[i]? = some n)
    (hp : n.payload = .swapchain source acquired) (hf : f.Unfolded i n.name source) :
    f'.Unfolded i n.name source := by
  rcases h.children i n source acquired hn hp with hsame | ⟨-, hunfolded⟩
  · refine hf.mono hsame fun j m desc image hm himage => ?_
    obtain ⟨m', hm', hk, hpayload⟩ := h.kept j m hm
    refine ⟨m', hm', hk.name, hpayload ?_ ?_⟩
    · rw [Node.isBacked, himage]
      rfl
    · rw [himage]
      rfl
  · exact hunfolded

theorem trans (h : f.KeepsSwapchains f') (h' : f'.KeepsSwapchains f'') : f.KeepsSwapchains f'' where
  kept i n hn := by
    obtain ⟨n', hn', hk, hp⟩ := h.kept i n hn
    obtain ⟨n'', hn'', hk', hp'⟩ := h'.kept i n' hn'
    refine ⟨n'', hn'', hk.trans hk', fun hb ho => ?_⟩
    have hsame := hp hb ho
    have hlater := hp' (by rw [Node.isBacked, hsame]; exact hb) (by rw [hsame]; exact ho)
    exact hlater.trans hsame
  new i n'' hn'' hnone := by
    cases hn' : f'.nodes[i]? with
    | none => exact h'.new i n'' hn'' hn'
    | some n' =>
      obtain ⟨m, hm, hk, -⟩ := h'.kept i n' hn'
      obtain rfl := Option.some.inj (hn''.symm.trans hm)
      rw [hk.kind]
      exact h.new i n' hn' hnone
  children i n source acquired hn hp := by
    obtain ⟨n', hn', hname, hp'⟩ := h.swapchain hn hp
    have hlater := h'.children i n' source acquired hn' hp'
    rcases h.children i n source acquired hn hp with hsame | ⟨hbare, hunfolded⟩
    · rw [hsame, hname] at hlater
      exact hlater
    · rw [← hname] at hunfolded
      have hstays := h'.unfolded hn' hp' hunfolded
      rw [hname] at hstays
      exact .inr ⟨hbare, hstays⟩

end KeepsSwapchains

/-- What keeps all objects and adds no nodes keeps the swapchains. -/
theorem Retains.keepsSwapchains (h : f.Retains f') (hsame : f'.hierarchy = f.hierarchy) :
    f.KeepsSwapchains f' where
  kept i n hn := by
    obtain ⟨n', hn', hr⟩ := h i n hn
    exact ⟨n', hn', hr.toKeeps, fun hb _ => hr.payload hb⟩
  new i n' hn' hnone := by
    obtain ⟨n, hn⟩ := exists_node_of_hierarchy hsame hn'
    rw [hnone] at hn
    cases hn
  children i n source acquired hn hp := by
    rw [Forest.children, Forest.children, hsame]
    exact .inl rfl

theorem keepsSwapchains_push (h : f.Registers n) : f.KeepsSwapchains (f.push n) where
  kept i m hm := ⟨m, nodes_push_of_some hm, .refl m, fun _ _ => rfl⟩
  new i m hm hnone := by
    rcases nodes_push_cases hm with hm | ⟨-, rfl⟩
    · rw [hnone] at hm
      cases hm
    · intro hkind
      have hunbacked := h.isBacked
      unfold Node.kind at hkind
      cases hp : m.payload with
      | swapchain source acquired =>
        rw [Node.isBacked, hp] at hunbacked
        cases hunbacked
      | _ =>
        rw [hp] at hkind
        cases hkind
  children i m source acquired hm hp := by
    have hother : n.parent ≠ some i := by
      intro hparent
      obtain ⟨s, hs, hkind⟩ := h.parent i hparent
      obtain rfl := Option.some.inj (hm.symm.trans hs)
      rw [Node.kind, hp] at hkind
      exact hkind rfl
    rw [children_push, if_neg hother, List.append_nil]
    exact .inl rfl

/-- What a swapchain unfolds into are its images. -/
theorem unfolded_extend (hi : i < f.size) (n : Node) (source : SwapchainImport)
    (hchildren : f.children i = []) :
    (f.extend (swapchainNodes ⟨i, n⟩ source f.size)).Unfolded i n.name source := by
  have himages := children_extend_swapchainNodes ⟨i, n⟩ source hi
  rw [hchildren, if_pos rfl, List.nil_append] at himages
  refine ⟨by simp [himages], fun k j image hj himage => ?_⟩
  obtain ⟨hk, -⟩ := List.getElem?_eq_some_iff.1 himage
  rw [himages, List.getElem?_map, List.getElem?_range hk] at hj
  obtain rfl := Option.some.inj hj
  refine ⟨shownImage ⟨i, n⟩ source image k, ?_, rfl, rfl⟩
  refine (List.getElem?_append_right (Nat.le_add_right _ _)).trans ?_
  rw [size, Nat.add_sub_cancel_left]
  exact swapchainNodes_image himage

/-- **A swapchain unfolds as a whole**, and all others stay as they are. -/
theorem keepsSwapchains_extend (hn : f.nodes[i]? = some n)
    (hp : n.payload = .swapchain source acquired) (hchildren : f.children i = []) :
    f.KeepsSwapchains (f.extend (swapchainNodes ⟨i, n⟩ source f.size)) where
  kept j m hm := by
    obtain ⟨hj, -⟩ := List.getElem?_eq_some_iff.1 hm
    exact ⟨m, (List.getElem?_append_left hj).trans hm, .refl m, fun _ _ => rfl⟩
  new j m hm hnone := by
    have hj : f.nodes.length ≤ j := List.getElem?_eq_none_iff.1 hnone
    have hnew := (List.getElem?_append_right hj).symm.trans hm
    exact kind_of_mem_swapchainNodes (List.mem_of_getElem? hnew)
  children j m source' acquired' hm hp' := by
    obtain ⟨hj, -⟩ := List.getElem?_eq_some_iff.1 hm
    by_cases hij : i = j
    · subst hij
      obtain rfl := Option.some.inj (hn.symm.trans hm)
      obtain ⟨rfl, -⟩ := Payload.swapchain.inj (hp.symm.trans hp')
      exact .inr ⟨hchildren, unfolded_extend hj n source hchildren⟩
    · left
      rw [children_extend_swapchainNodes ⟨i, n⟩ source hj, if_neg hij, List.append_nil]

theorem expandSwapchain_keepsSwapchains (h : (f.expandSwapchain i).result = .ok g) :
    f.KeepsSwapchains g ∧ ∀ n source acquired, f.nodes[i]? = some n →
      n.payload = .swapchain source acquired → f.children i = [] → g.Unfolded i n.name source := by
  by_cases hbare : ∃ n source acquired, f.nodes[i]? = some n ∧
      n.payload = .swapchain source acquired ∧ f.children i = []
  · obtain ⟨n, source, acquired, hn, hp, hchildren⟩ := hbare
    rw [expandSwapchain_eq h hn hp hchildren]
    refine ⟨keepsSwapchains_extend hn hp hchildren, fun m source' acquired' hm hp' _ => ?_⟩
    obtain rfl := Option.some.inj (hn.symm.trans hm)
    obtain ⟨rfl, -⟩ := Payload.swapchain.inj (hp.symm.trans hp')
    obtain ⟨hi, -⟩ := List.getElem?_eq_some_iff.1 hn
    exact unfolded_extend hi n source hchildren
  · rcases expandSwapchain_ok h with rfl | ⟨n, source, acquired, hn, hp, hchildren, -⟩
    · refine ⟨(Retains.refl g).keepsSwapchains rfl, fun n source acquired hn hp hchildren => ?_⟩
      exact absurd ⟨n, source, acquired, hn, hp, hchildren⟩ hbare
    · exact absurd ⟨n, source, acquired, hn, hp, hchildren⟩ hbare

end Forest

/-! ## Operations and frames -/

section
variable {δ : Type} [Device δ] {f f' : Forest} {d d' : δ} {o : Operation} {name : String}
  {r : Except DeviceError Unit}

theorem mountNodes_keepsSwapchains {is : List Nat} (h : f.mountNodes d is = .ok (r, f', d')) :
    f.KeepsSwapchains f' :=
  (Forest.mountNodes_retains h).keepsSwapchains (mountNodes_hierarchy h)

theorem mount_keepsSwapchains (h : (f.mount name d).result = .ok (r, f', d')) :
    f.KeepsSwapchains f' := by
  obtain ⟨p, g, -, hg, h⟩ := mount_ok h
  have hsame : f.Retains { f with life := f.life + 1 } := .refl f
  have hclock := hsame.keepsSwapchains rfl
  have hexpands := (Forest.expandSwapchain_keepsSwapchains hg).1
  exact (hclock.trans hexpands).trans (mountNodes_keepsSwapchains h)

/-- **A swapchain that is mounted has its images**, also when the device ends the mount early. -/
theorem unfolded_of_mount {i : Nat} {n : Node} {source : SwapchainImport} {acquired : Nat}
    (hf : f.WellFormed) (hrelated : f.Related) (h : (f.mount n.name d).result = .ok (r, f', d'))
    (hn : f.nodes[i]? = some n) (hp : n.payload = .swapchain source acquired)
    (himages : f.Unfolded i n.name source ∨ f.children i = []) : f'.Unfolded i n.name source := by
  have hkeeps := mount_keepsSwapchains h
  rcases himages with hunfolded | hbare
  · exact hkeeps.unfolded hn hp hunfolded
  · obtain ⟨p, g, hfind, hg, h⟩ := mount_ok h
    obtain rfl := Except.ok.inj ((Forest.find_of_nodes hf hn).symm.trans hfind)
    have htop : n.parent = none := by
      refine hrelated.isRoot hn ?_ ?_
      · rw [Node.kind, hp]
        rfl
      · rw [hp]
        rfl
    simp only [Forest.root_of_top hn htop] at hg h
    obtain ⟨hexpands, hunfolds⟩ := Forest.expandSwapchain_keepsSwapchains hg
    obtain ⟨m, hm, hname, hpayload⟩ := hexpands.swapchain hn hp
    have hunfolded := hunfolds n source acquired hn hp hbare
    rw [← hname] at hunfolded ⊢
    exact (mountNodes_keepsSwapchains h).unfolded hm hpayload hunfolded

theorem Releases.keepsSwapchains {s s' : Forest × δ} (h : Releases s s') :
    s.1.KeepsSwapchains s'.1 := by
  have hsame := h.hierarchy
  refine ⟨fun i n hn => ?_, fun i n' hn' hnone => ?_, fun i n source acquired hn hp => .inl ?_⟩
  · obtain ⟨h⟩ := h
    rcases releaseNode_ok h with ⟨rfl, -⟩ | ⟨m, payload, hm, hrelease, rfl⟩
    · exact ⟨n, hn, .refl n, fun _ _ => rfl⟩
    · obtain ⟨n', hn', rfl | ⟨rfl, rfl⟩⟩ := Forest.exists_node_put _ hm hn
      · exact ⟨n', hn', .refl n', fun _ _ => rfl⟩
      · have hkind := kind_of_bare (bare_of_release hrelease)
        refine ⟨_, hn', ⟨rfl, rfl, rfl, hkind⟩, fun _ hunowned => ?_⟩
        rw [Payload.release_of_unowned hunowned] at hrelease
        exact (Prod.mk.inj (Except.ok.inj hrelease)).1.symm
  · obtain ⟨n, hn⟩ := Forest.exists_node_of_hierarchy hsame hn'
    rw [hnone] at hn
    cases hn
  · rw [Forest.children, Forest.children, hsame]

theorem keepsSwapchains_of_releasesAll {s s' : Forest × δ} (h : ReflTransGen Releases s s') :
    s.1.KeepsSwapchains s'.1 :=
  kept_by_all (P := fun s' : Forest × δ => s.1.KeepsSwapchains s'.1)
    (fun _ _ hstep hs => hs.trans hstep.keepsSwapchains) h
    ((Forest.Retains.refl s.1).keepsSwapchains rfl)

/-- **All operations keep the swapchains** but the two that are about them. -/
theorem Operation.run_swapchains (h : o.run f d = .ok (f', d')) :
    (f.KeepsSwapchains f' ∧ ∀ name, o.acquired? name = none) ∨
    (∃ name source, o = .addSwapchain name source ∧ source.images ≠ [] ∧ name ∉ f.names ∧
      f' = f.push (.ofSwapchain name source)) ∨
    ∃ (i : Nat) (n : Node) (source : SwapchainImport) (acquired index : Nat),
      o = .acquire n.name index ∧ f.nodes[i]? = some n ∧
      n.payload = .swapchain source acquired ∧ index < source.images.length ∧
      f' = f.put i { n with payload := .swapchain source index } := by
  cases o with
  | addBuffer name desc residency =>
    obtain ⟨g, hg, h⟩ := Except.bind_eq_ok_iff.1 h
    cases h
    obtain ⟨n, rfl, hn, -⟩ := addBuffer_ok hg
    exact .inl ⟨Forest.keepsSwapchains_push hn, fun _ => rfl⟩
  | addBufferView name origin desc =>
    obtain ⟨g, hg, h⟩ := Except.bind_eq_ok_iff.1 h
    cases h
    obtain ⟨n, rfl, hn, -⟩ := addBufferView_ok hg
    exact .inl ⟨Forest.keepsSwapchains_push hn, fun _ => rfl⟩
  | addImage name desc residency =>
    obtain ⟨g, hg, h⟩ := Except.bind_eq_ok_iff.1 h
    cases h
    obtain ⟨n, v, rfl, hn, hv, -⟩ := addImage_ok hg
    exact .inl ⟨(Forest.keepsSwapchains_push hn).trans (Forest.keepsSwapchains_push hv),
      fun _ => rfl⟩
  | addImageView name origin desc =>
    obtain ⟨g, hg, h⟩ := Except.bind_eq_ok_iff.1 h
    cases h
    obtain ⟨v, -, -, rfl, hv, -⟩ := addImageView_ok hg
    exact .inl ⟨Forest.keepsSwapchains_push hv, fun _ => rfl⟩
  | addSwapchain name source =>
    obtain ⟨g, hg, h⟩ := Except.bind_eq_ok_iff.1 h
    cases h
    obtain ⟨rfl, hfresh, himages⟩ := addSwapchain_ok hg
    exact .inr (.inl ⟨name, source, rfl, himages, hfresh, rfl⟩)
  | acquire name index =>
    obtain ⟨g, hg, h⟩ := Except.bind_eq_ok_iff.1 h
    cases h
    obtain ⟨i, n, source, acquired, hn, rfl, hp, hindex, rfl⟩ := acquire_ok hg
    exact .inr (.inr ⟨i, n, source, acquired, index, rfl, hn, hp, hindex, rfl⟩)
  | mount name =>
    obtain ⟨⟨r, g, e⟩, hr, h⟩ := Except.bind_eq_ok_iff.1 h
    cases h
    exact .inl ⟨mount_keepsSwapchains hr, fun _ => rfl⟩
  | unmount name life =>
    obtain ⟨⟨r, g, e⟩, hr, h⟩ := Except.bind_eq_ok_iff.1 h
    cases h
    exact .inl ⟨keepsSwapchains_of_releasesAll (unmount_releases hr), fun _ => rfl⟩
  | unmountExpired life =>
    obtain ⟨⟨r, g, e⟩, hr, h⟩ := Except.bind_eq_ok_iff.1 h
    cases h
    exact .inl ⟨keepsSwapchains_of_releasesAll (unmountExpired_releases hr), fun _ => rfl⟩

/-- A frame keeps the swapchains. -/
theorem keepsSwapchains_of_frame {passes : List Pass} {shaders : Registry} {a : Analysis}
    (h : (analyze passes f shaders).result = .ok (a, f')) : f.KeepsSwapchains f' := by
  obtain ⟨-, -, -, rfl⟩ := analyze_ok_iff.1 h
  exact (f.retains_carry _).keepsSwapchains (f.hierarchy_carry _)

/-- What is asked for is registered. -/
theorem Operation.mem_names_of_asksFor (h : o.run f d = .ok (f', d'))
    (ho : o.asksFor? = some name) : name ∈ f.names := by
  cases o with
  | acquire n index =>
    obtain rfl := Option.some.inj ho
    obtain ⟨g, hg, -⟩ := Except.bind_eq_ok_iff.1 h
    obtain ⟨i, m, -, -, hm, rfl, -⟩ := acquire_ok hg
    exact List.mem_map.2 ⟨m, List.mem_of_getElem? hm, rfl⟩
  | mount n =>
    obtain rfl := Option.some.inj ho
    obtain ⟨⟨r, g, e⟩, hr, -⟩ := Except.bind_eq_ok_iff.1 h
    obtain ⟨p, -, hp, -⟩ := mount_ok hr
    obtain ⟨hn, rfl⟩ := Forest.nodes_of_find hp
    exact List.mem_map.2 ⟨p.node, List.mem_of_getElem? hn, rfl⟩
  | _ => cases ho

end

/-! ## Histories -/

/-- Whether a swapchain stands for the image that was acquired last, and has its images if it was
mounted. -/
structure Forest.Presents (f : Forest) (os : List Operation) (i : Nat) (name : String)
    (source : SwapchainImport) (acquired : Nat) : Prop where
  last : acquired = lastAcquired name os
  inside : acquired < source.images.length
  images : f.Unfolded i name source ∨ f.children i = [] ∧ .mount name ∉ os

/-- Whether the swapchains are as the history left them, and all that it asked for is there. -/
structure Forest.Follows (f : Forest) (os : List Operation) : Prop where
  asked : ∀ o ∈ os, ∀ name, o.asksFor? = some name → name ∈ f.names
  presents : ∀ (i : Nat) n source acquired, f.nodes[i]? = some n →
    n.payload = .swapchain source acquired → f.Presents os i n.name source acquired

namespace Forest

section
variable {f f' : Forest} {os : List Operation} {n m : Node} {i j index acquired acquired' : Nat}
  {name : String} {source source' : SwapchainImport}

theorem KeepsSwapchains.names (h : f.KeepsSwapchains f') : f.names ⊆ f'.names := by
  intro name hname
  obtain ⟨n, hmem, rfl⟩ := List.mem_map.1 hname
  obtain ⟨i, hn⟩ := List.getElem?_of_mem hmem
  obtain ⟨n', hn', hk, -⟩ := h.kept i n hn
  exact List.mem_map.2 ⟨n', List.mem_of_getElem? hn', hk.name⟩

/-- Whether the node at `i` is the child that the swapchain at `s` has for the image of number `k`. -/
structure ShowsAt (f : Forest) (s k i : Nat) (source : SwapchainImport) (image : Handle .image) :
    Prop where
  swapchain : ∃ m acquired, f.nodes[s]? = some m ∧ m.payload = .swapchain source acquired
  child : (f.children s)[k]? = some i
  image : source.images[k]? = some image

/-- **An image made elsewhere is one of a swapchain's**, and described as the swapchain tells. -/
theorem Follows.exists_showsAt (hf : f.Follows os) (hrelated : f.Related)
    (hn : f.nodes[i]? = some n) (hexternal : n.payload.isExternal = true) :
    ∃ s k source image, f.ShowsAt s k i source image ∧
      n.payload = .image (SwapchainImport.imageDesc source) (some image) true := by
  have hrelates := hrelated i n hn
  cases hrelates.seat with
  | root hroot => exact absurd hroot (hrelates.external hexternal)
  | @below s p hbelow hs hholds =>
    have hswapchain : p.kind = .swapchain := by
      have himage := Payload.kind_of_isExternal hexternal
      rcases ResourceKind.eq_of_holds hholds with ⟨-, hview⟩ | ⟨-, hview⟩ | ⟨hswapchain, -⟩
      · cases hview.symm.trans himage
      · cases hview.symm.trans himage
      · exact hswapchain
    cases hp : p.payload with
    | swapchain source acquired =>
      have hchild : i ∈ f.children s := mem_children_iff.2 ⟨n, hn, hbelow⟩
      rcases (hf.presents s p source acquired hs hp).images with hunfolded | ⟨hbare, -⟩
      · obtain ⟨k, hk⟩ := List.getElem?_of_mem hchild
        have hinside : k < source.images.length := by
          rw [← hunfolded.length]
          exact (List.getElem?_eq_some_iff.1 hk).1
        have himage := List.getElem?_eq_getElem hinside
        obtain ⟨m, hm, -, hpayload⟩ := hunfolded.child k i _ hk himage
        rw [hn] at hm
        obtain rfl := Option.some.inj hm
        exact ⟨s, k, source, _, ⟨⟨p, acquired, hs, hp⟩, hk, himage⟩, hpayload⟩
      · rw [hbare] at hchild
        cases hchild
    | _ =>
      rw [Node.kind, hp] at hswapchain
      cases hswapchain

/-- What keeps the swapchains lets them follow the same history. -/
theorem Follows.keeps (hf : f.Follows os) (h : f.KeepsSwapchains f') : f'.Follows os where
  asked o ho name hname := h.names (hf.asked o ho name hname)
  presents i n' source acquired hn' hp' := by
    obtain ⟨n, hn, hname, hp⟩ := h.exists_swapchain hn' hp'
    have hpresents := hf.presents i n source acquired hn hp
    rw [← hname]
    refine ⟨hpresents.last, hpresents.inside, ?_⟩
    rcases hpresents.images with hunfolded | ⟨hbare, hmount⟩
    · exact .inl (h.unfolded hn hp hunfolded)
    · rcases h.children i n source acquired hn hp with hsame | ⟨-, hunfolded⟩
      · exact .inr ⟨hsame.trans hbare, hmount⟩
      · exact .inl hunfolded

/-- The next node has nothing below it yet. -/
theorem WellFormed.children_size (hf : f.WellFormed) : f.children f.size = [] := by
  refine List.eq_nil_iff_forall_not_mem.2 fun j hj => ?_
  have habove : f.size < j := hf.ordered.lt_of_mem_children hj
  have hinside := Hierarchy.lt_length_of_mem_children hj
  rw [length_hierarchy] at hinside
  omega

/-- A new swapchain was never asked for, and the others stay as they are. -/
theorem Follows.addSwapchain (hf : f.Follows os) (hwf : f.WellFormed)
    (hfresh : name ∉ f.names) (himages : source.images ≠ [])
    (hm : (f.push (.ofSwapchain name source)).nodes[i]? = some m)
    (hp : m.payload = .swapchain source' acquired) :
    (f.push (.ofSwapchain name source)).Presents (os ++ [.addSwapchain name source]) i m.name
      source' acquired := by
  have hchildren (j : Nat) : (f.push (.ofSwapchain name source)).children j = f.children j := by
    rw [children_push, if_neg (by simp [Node.ofSwapchain]), List.append_nil]
  rcases nodes_push_cases hm with hm | ⟨rfl, rfl⟩
  · have hpresents := hf.presents i m source' acquired hm hp
    refine ⟨?_, hpresents.inside, hpresents.images.imp (fun hunfolded => ?_) fun hbare => ?_⟩
    · rw [lastAcquired_concat]
      exact hpresents.last
    · exact hunfolded.mono (hchildren i) fun j m _ _ hm _ => ⟨m, nodes_push_of_some hm, rfl, rfl⟩
    · rw [hchildren]
      simpa using hbare
  · obtain ⟨rfl, rfl⟩ := Payload.swapchain.inj hp
    have hnever : ∀ o ∈ os ++ [.addSwapchain name source], o.asksFor? ≠ some name := by
      intro o ho hname
      rcases List.mem_append.1 ho with ho | ho
      · exact hfresh (hf.asked o ho name hname)
      · obtain rfl := List.mem_singleton.1 ho
        cases hname
    refine ⟨(lastAcquired_of_forall hnever).symm, List.length_pos_iff.2 himages, .inr ⟨?_, ?_⟩⟩
    · rw [hchildren, hwf.children_size]
    · exact fun ho => hnever _ ho rfl

/-- The swapchain asked for stands for the image acquired now, and the others stay as they are. -/
theorem Follows.acquire (hf : f.Follows os) (hwf : f.WellFormed) (hn : f.nodes[i]? = some n)
    (hp : n.payload = .swapchain source acquired) (hindex : index < source.images.length)
    (hm : (f.put i { n with payload := .swapchain source index }).nodes[j]? = some m)
    (hp' : m.payload = .swapchain source' acquired') :
    (f.put i { n with payload := .swapchain source index }).Presents
      (os ++ [.acquire n.name index]) j m.name source' acquired' := by
  have himages {k : Nat} {name : String} {s : SwapchainImport}
      (h : f.Unfolded k name s ∨ f.children k = [] ∧ .mount name ∉ os) :
      (f.put i { n with payload := .swapchain source index }).Unfolded k name s ∨
        (f.put i { n with payload := .swapchain source index }).children k = [] ∧
          .mount name ∉ os ++ [.acquire n.name index] := by
    have hchildren := children_put (m := { n with payload := .swapchain source index }) hn rfl k
    refine h.imp (fun hunfolded => ?_) fun hbare => ?_
    · refine hunfolded.mono hchildren fun l s _ _ hs himage => ?_
      obtain ⟨s', hs', rfl | ⟨rfl, -⟩⟩ :=
        exists_node_put { n with payload := .swapchain source index } hn hs
      · exact ⟨s', hs', rfl, rfl⟩
      · cases hp.symm.trans himage
    · rw [hchildren]
      simpa using hbare
  by_cases hij : i = j
  · subst hij
    rw [nodes_put_self hn] at hm
    obtain rfl := Option.some.inj hm
    obtain ⟨rfl, rfl⟩ := Payload.swapchain.inj hp'
    refine ⟨?_, hindex, himages (hf.presents i n _ acquired hn hp).images⟩
    simp [lastAcquired_concat, Operation.acquired?]
  · rw [nodes_put_ne hij] at hm
    have hpresents := hf.presents j m source' acquired' hm hp'
    have hother : n.name ≠ m.name := fun heq => hij (hwf.index_unique hn hm heq)
    refine ⟨?_, hpresents.inside, himages hpresents.images⟩
    rw [lastAcquired_concat, Operation.acquired?, if_neg hother]
    exact hpresents.last

end

end Forest

section
variable {δ : Type} [Device δ] {f f' : Forest} {d d' : δ} {os : List Operation}

/-- What an operation makes of a swapchain that it keeps. -/
theorem Forest.Follows.operate_kept {o : Operation} {n : Node} {i : Nat} {source : SwapchainImport}
    {acquired : Nat} (hf : f.Follows os) (hwf : f.WellFormed) (hrelated : f.Related)
    (h : o.run f d = .ok (f', d')) (hkeeps : f.KeepsSwapchains f')
    (ho : o.acquired? n.name = none) (hn : f.nodes[i]? = some n)
    (hp : n.payload = .swapchain source acquired) :
    f'.Presents (os ++ [o]) i n.name source acquired := by
  have hpresents := hf.presents i n source acquired hn hp
  refine ⟨?_, hpresents.inside, ?_⟩
  · rw [lastAcquired_concat, ho]
    exact hpresents.last
  · by_cases hmount : o = .mount n.name
    · subst hmount
      obtain ⟨⟨r, g, e⟩, hr, h⟩ := Except.bind_eq_ok_iff.1 h
      cases h
      exact .inl (unfolded_of_mount hwf hrelated hr hn hp (hpresents.images.imp_right And.left))
    · rcases hpresents.images with hunfolded | ⟨hbare, hnever⟩
      · exact .inl (hkeeps.unfolded hn hp hunfolded)
      · rcases hkeeps.children i n source acquired hn hp with hsame | ⟨-, hunfolded⟩
        · -- a mount by any other name leaves it as it was
          refine .inr ⟨hsame.trans hbare, fun hmem => ?_⟩
          rcases List.mem_append.1 hmem with hmem | hmem
          · exact hnever hmem
          · exact hmount (List.mem_singleton.1 hmem).symm
        · exact .inl hunfolded

/-- **Every operation leaves the swapchains as its history tells.** -/
theorem Forest.Follows.operate {o : Operation} (hf : f.Follows os) (hwf : f.WellFormed)
    (hrelated : f.Related) (h : o.run f d = .ok (f', d')) : f'.Follows (os ++ [o]) where
  asked o' ho' name hname := by
    have hnames : name ∈ f.names := by
      rcases List.mem_append.1 ho' with ho' | ho'
      · exact hf.asked o' ho' name hname
      · obtain rfl := List.mem_singleton.1 ho'
        exact Operation.mem_names_of_asksFor h hname
    obtain ⟨n, hmem, rfl⟩ := List.mem_map.1 hnames
    obtain ⟨i, hn⟩ := List.getElem?_of_mem hmem
    obtain ⟨n', hn', hk, -⟩ := Operation.exists_node h hn
    exact List.mem_map.2 ⟨n', List.mem_of_getElem? hn', hk.name⟩
  presents i n' source acquired hn' hp' := by
    rcases Operation.run_swapchains h with ⟨hkeeps, ho⟩ |
      ⟨name, source', rfl, himages, hfresh, rfl⟩ |
      ⟨j, n, source', acquired', index, rfl, hn, hp, hindex, rfl⟩
    · obtain ⟨n, hn, hname, hp⟩ := hkeeps.exists_swapchain hn' hp'
      rw [← hname]
      exact hf.operate_kept hwf hrelated h hkeeps (ho n.name) hn hp
    · exact hf.addSwapchain hwf hfresh himages hn' hp'
    · exact hf.acquire hwf hn hp hindex hn' hp'

end

/-- **The swapchains of a forest are as its history tells.** -/
theorem Forest.Reached.follows {δ : Type} [Device δ] {os : List Operation} {f : Forest}
    (h : f.Reached δ os) : f.Follows os := by
  induction h with
  | start => exact ⟨by simp, by simp⟩
  | operate hreached ho ih => exact ih.operate hreached.wellFormed hreached.related ho
  | frame _ ha ih => exact ih.keeps (keepsSwapchains_of_frame ha)

end FrameGraph
