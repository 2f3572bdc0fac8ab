import FrameGraph.Proofs.WellFormed

/-!
# Unfolding a swapchain

The `k`-th image of a swapchain gets the name of the swapchain and its number, and its default view
a name after that (`shownName`, `shownNodes`). No two of these names are the same, so that a
swapchain unfolds into all of its images (`expandSwapchain_eq`) unless the forest holds one of the
names already (`expandSwapchain_of_fresh`).
-/

set_option autoImplicit false

namespace FrameGraph

/-! ## Numbered names -/

/-- The name of the image of that number. -/
def shownName (swapchain : String) (k : Nat) : String := s!"{swapchain}/{k}"

theorem toList_shownName (swapchain : String) (k : Nat) :
    (shownName swapchain k).toList = swapchain.toList ++ '/' :: Nat.toDigits 10 k := by
  simp [shownName, toString, String.toList_append]

theorem toList_defaultViewName (name : String) :
    (defaultViewName name).toList = name.toList ++ '/' :: name.toList := by
  simp [defaultViewName, String.toList_append]

theorem toDigits_injective {j k : Nat} (h : Nat.toDigits 10 j = Nat.toDigits 10 k) : j = k := by
  rw [← Nat.ofDigitChars_ten_toDigits (n := j), h, Nat.ofDigitChars_ten_toDigits]

theorem slash_not_mem_toDigits (k : Nat) : '/' ∉ Nat.toDigits 10 k := fun h =>
  absurd (Nat.isDigit_of_mem_toDigits (by decide) (by decide) h) (by decide)

section
variable {swapchain : String} {j k : Nat}

theorem shownName_injective (h : shownName swapchain j = shownName swapchain k) : j = k := by
  have hlist := congrArg String.toList h
  rw [toList_shownName, toList_shownName] at hlist
  exact toDigits_injective (List.cons.inj (List.append_cancel_left hlist)).2

theorem defaultViewName_ne_shownName : defaultViewName (shownName swapchain j) ≠
    shownName swapchain k := by
  intro h
  have hlist := congrArg String.toList h
  simp only [toList_defaultViewName, toList_shownName, List.append_assoc, List.cons_append] at hlist
  have hdigits := (List.cons.inj (List.append_cancel_left hlist)).2
  refine slash_not_mem_toDigits k ?_
  rw [← hdigits]
  simp

theorem defaultViewName_injective
    (h : defaultViewName (shownName swapchain j) = defaultViewName (shownName swapchain k)) :
    j = k := by
  have hlist := congrArg String.toList h
  simp only [toList_defaultViewName, toList_shownName, List.append_assoc, List.cons_append] at hlist
  have hdigits := (List.cons.inj (List.append_cancel_left hlist)).2
  -- both numbers stand in the name twice, so that they have as many digits
  have hlength := congrArg List.length hdigits
  simp only [List.length_append, List.length_cons] at hlength
  exact toDigits_injective (List.append_inj_left hdigits (by omega))

end

/-! ## Pairs in a row -/

/-- The members of pairs that follow each other stand at even and at odd positions. -/
theorem getElem?_flatMap_pair {α β : Type} (f g : α → β) (l : List α) (j : Nat) :
    (l.flatMap fun x => [f x, g x])[2 * j]? = (l[j]?).map f ∧
      (l.flatMap fun x => [f x, g x])[2 * j + 1]? = (l[j]?).map g := by
  induction l generalizing j with
  | nil => simp
  | cons x l ih =>
    cases j with
    | zero => exact ⟨rfl, rfl⟩
    | succ j => exact ih j

/-! ## Pairs below one position -/

/-- The parents of `count` pairs from `base` on: the first of each pair hangs below `top`, and the
second below the first. -/
def pairParents (top base count : Nat) : Hierarchy :=
  (List.range count).flatMap fun k => [some top, some (base + 2 * k)]

theorem length_pairParents (top base count : Nat) :
    (pairParents top base count).length = 2 * count := by
  simp [pairParents, List.length_flatMap, Nat.mul_comm]

/-- The first members of the pairs follow each other as children of `top`. -/
theorem children_pairParents {h : Hierarchy} {i : Nat} (top count : Nat) (hi : i < h.length) :
    Hierarchy.children (h ++ pairParents top h.length count) i =
      h.children i ++ if top = i then (List.range count).map (h.length + 2 * ·) else [] := by
  induction count with
  | zero => simp [pairParents]
  | succ count ih =>
    have hnext : h ++ pairParents top h.length (count + 1) =
        h ++ pairParents top h.length count ++ [some top] ++ [some (h.length + 2 * count)] := by
      simp [pairParents, List.range_succ]
    have hsize : (h ++ pairParents top h.length count).length = h.length + 2 * count := by
      rw [List.length_append, length_pairParents]
    have hsecond : some (h.length + 2 * count) ≠ some i := by
      simp only [ne_eq, Option.some.injEq]
      omega
    rw [hnext, Hierarchy.children_concat, Hierarchy.children_concat, ih, hsize, if_neg hsecond]
    by_cases htop : top = i
    · simp [htop, List.range_succ]
    · simp [htop]

/-! ## The nodes of an image -/

/-- The node of the image of number `k`. -/
def shownImage (swapchain : Place) (source : SwapchainImport) (image : Handle .image) (k : Nat) :
    Node where
  name := shownName swapchain.node.name k
  residency := .swapchain
  payload := .image source.imageDesc (some image) true
  parent := some swapchain.index

/-- The nodes that the image of number `k` becomes, the first of them at `position`. -/
def shownNodes (swapchain : Place) (source : SwapchainImport) (position : Nat)
    (image : Handle .image) (k : Nat) : List Node := [
  { name := shownName swapchain.node.name k
    residency := .swapchain
    payload := .image source.imageDesc (some image) true
    parent := some swapchain.index },
  { name := defaultViewName (shownName swapchain.node.name k)
    residency := .swapchain
    payload := .imageView source.imageDesc.defaultView (shownName swapchain.node.name k) none
    parent := some position }]

/-- The nodes that a swapchain becomes, from `base` on. -/
def swapchainNodes (swapchain : Place) (source : SwapchainImport) (base : Nat) : List Node :=
  source.images.zipIdx.flatMap fun (image, k) => shownNodes swapchain source (base + 2 * k) image k

section
variable {swapchain : Place} {source : SwapchainImport} {base k : Nat}

theorem map_parent_swapchainNodes (swapchain : Place) (source : SwapchainImport) (base : Nat) :
    (swapchainNodes swapchain source base).map (·.parent) =
      pairParents swapchain.index base source.images.length := by
  rw [swapchainNodes, List.map_flatMap, pairParents, List.range_eq_range',
    ← List.zipIdx_map_snd 0 source.images, List.flatMap_map]
  rfl

/-- The images stand two positions apart. -/
theorem swapchainNodes_image {image : Handle .image} (hk : source.images[k]? = some image) :
    (swapchainNodes swapchain source base)[2 * k]? = some (shownImage swapchain source image k) := by
  have hpair := (getElem?_flatMap_pair (fun x => shownImage swapchain source x.1 x.2)
    (fun x => {
      name := defaultViewName (shownName swapchain.node.name x.2)
      residency := .swapchain
      payload := .imageView source.imageDesc.defaultView (shownName swapchain.node.name x.2) none
      parent := some (base + 2 * x.2) }) source.images.zipIdx k).1
  rw [List.getElem?_zipIdx, hk, Option.map_some, Option.map_some, Nat.zero_add] at hpair
  exact hpair

/-- No swapchain unfolds into another. -/
theorem kind_of_mem_swapchainNodes {n : Node} (hn : n ∈ swapchainNodes swapchain source base) :
    n.kind ≠ .swapchain := by
  obtain ⟨⟨image, k⟩, -, hn⟩ := List.mem_flatMap.1 hn
  simp only [shownNodes, List.mem_cons, List.not_mem_nil, or_false] at hn
  rcases hn with rfl | rfl
  · simp [Node.kind, Payload.kind]
  · simp [Node.kind, Payload.kind]

end

namespace Forest

variable {f : Forest} {n : Node} {p : Place} {source : SwapchainImport} {k : Nat}

/-- Adds nodes at the end. -/
def extend (f : Forest) (ns : List Node) : Forest := { f with nodes := f.nodes ++ ns }

theorem insert_of_fresh (h : n.name ∉ f.names) : f.insert n = .ok (f.push n) := by
  have hnone : f.nodes.findIdx? (·.name == n.name) = none :=
    List.findIdx?_eq_none_iff.2 fun m hm =>
      beq_eq_false_iff_ne.2 fun heq => h (heq ▸ List.mem_map_of_mem hm)
  simp [insert, contains, find?, hnone, push]

/-- Whether no node has the name of an image of a number from `k` on and below `m`, or of its
view. -/
def FreshBetween (f : Forest) (swapchain : String) (k m : Nat) : Prop :=
  ∀ j, k ≤ j → j < m →
    shownName swapchain j ∉ f.names ∧ defaultViewName (shownName swapchain j) ∉ f.names

/-- Whether no node has the name of an image of number `k` or more, or of its view. -/
def FreshFrom (f : Forest) (swapchain : String) (k : Nat) : Prop :=
  ∀ j, k ≤ j → shownName swapchain j ∉ f.names ∧ defaultViewName (shownName swapchain j) ∉ f.names

theorem FreshFrom.between {swapchain : String} (h : f.FreshFrom swapchain k) (m : Nat) :
    f.FreshBetween swapchain k m := fun j hj _ => h j hj

theorem FreshBetween.next {m : Nat} (h : f.FreshBetween p.node.name k m) (position : Nat)
    (image : Handle .image) :
    (f.extend (shownNodes p source position image k)).FreshBetween p.node.name (k + 1) m := by
  intro j hj hm
  obtain ⟨himage, hview⟩ := h j (by omega) hm
  have hne : k ≠ j := by omega
  simp only [names, extend, shownNodes, List.map_append, List.map_cons, List.map_nil,
    List.mem_append, List.mem_cons, List.not_mem_nil, or_false, not_or]
  exact ⟨⟨himage, fun heq => hne (shownName_injective heq).symm, defaultViewName_ne_shownName.symm⟩,
    hview, defaultViewName_ne_shownName, fun heq => hne (defaultViewName_injective heq).symm⟩

/-- What is added for one image is known. -/
theorem addSwapchainImage_eq {f' : Forest} {image : Handle .image}
    (h : f.addSwapchainImage p source.imageDesc image k = .ok f') :
    f' = f.extend (shownNodes p source f.size image k) := by
  obtain ⟨g, hg, h⟩ := Except.bind_eq_ok_iff.1 h
  obtain ⟨rfl, -⟩ := insert_ok hg
  obtain ⟨rfl, -⟩ := insert_ok h
  simp only [push, extend, shownNodes, List.append_assoc, List.cons_append, List.nil_append]
  rfl

theorem exists_addSwapchainImage (source : SwapchainImport)
    (himage : shownName p.node.name k ∉ f.names)
    (hview : defaultViewName (shownName p.node.name k) ∉ f.names) (image : Handle .image) :
    ∃ f', f.addSwapchainImage p source.imageDesc image k = .ok f' := by
  refine ⟨_, Except.bind_eq_ok_iff.2 ⟨_, insert_of_fresh himage, insert_of_fresh ?_⟩⟩
  rw [names_push, List.mem_append, List.mem_singleton, not_or]
  exact ⟨hview, defaultViewName_ne_shownName⟩

/-- **What is added for the images of a swapchain is known**: two nodes for each, in their order. -/
theorem addSwapchainImages_eq {images : List (Handle .image)} {f f' : Forest} {k base : Nat}
    (h : (images.zipIdx k).foldlM
      (fun f (image, k) => f.addSwapchainImage p source.imageDesc image k) f = .ok f')
    (hsize : f.size = base + 2 * k) : f' = f.extend ((images.zipIdx k).flatMap fun (image, j) =>
      shownNodes p source (base + 2 * j) image j) := by
  induction images generalizing f k with
  | nil =>
    cases h
    simp [extend]
  | cons image images ih =>
    rw [List.zipIdx_cons, List.foldlM_cons] at h
    obtain ⟨g, hg, h⟩ := Except.bind_eq_ok_iff.1 h
    obtain rfl := addSwapchainImage_eq hg
    have hnext := ih h (by simp [size, extend, shownNodes] at hsize ⊢; omega)
    rw [hnext, hsize, List.zipIdx_cons, List.flatMap_cons]
    simp [extend]

theorem exists_addSwapchainImages (source : SwapchainImport) (images : List (Handle .image))
    (f : Forest) {k : Nat} (h : f.FreshBetween p.node.name k (k + images.length)) :
    ∃ f', (images.zipIdx k).foldlM
      (fun f (image, k) => f.addSwapchainImage p source.imageDesc image k) f = .ok f' := by
  induction images generalizing f k with
  | nil => exact ⟨f, rfl⟩
  | cons image images ih =>
    rw [List.length_cons] at h
    obtain ⟨himage, hview⟩ := h k (Nat.le_refl k) (by omega)
    obtain ⟨g, hg⟩ := exists_addSwapchainImage source himage hview image
    have hfresh : g.FreshBetween p.node.name (k + 1) (k + 1 + images.length) := by
      rw [addSwapchainImage_eq hg, show k + 1 + images.length = k + (images.length + 1) by omega]
      exact h.next f.size image
    obtain ⟨f', hf'⟩ := ih g hfresh
    rw [List.zipIdx_cons, List.foldlM_cons]
    exact ⟨f', Except.bind_eq_ok_iff.2 ⟨g, hg, hf'⟩⟩

/-- Whether the names are free that a swapchain at the position needs to be unfolded, if there is
one that has no images yet. -/
def Unfoldable (f : Forest) (i : Nat) : Prop :=
  ∀ n source acquired, f.nodes[i]? = some n → n.payload = .swapchain source acquired →
    f.children i = [] → f.FreshBetween n.name 0 source.images.length

theorem expandSwapchain_of_bare {i acquired : Nat} (hn : f.nodes[i]? = some n)
    (hp : n.payload = .swapchain source acquired) (hchildren : f.children i = []) :
    (f.expandSwapchain i).result = source.images.zipIdx.foldlM
      (fun f (image, k) => f.addSwapchainImage ⟨i, n⟩ source.imageDesc image k) f := by
  have hplace : f.place? i = some ⟨i, n⟩ := by rw [place?, hn, Option.map_some]
  unfold expandSwapchain
  simp only [hplace, hp, hchildren, Traced.result_bind, Traced.result_report]
  exact Traced.result_foldlM _ _ _

/-- **A swapchain unfolds into all of its images**, if it unfolds at all. -/
theorem expandSwapchain_eq {f' : Forest} {i acquired : Nat}
    (h : (f.expandSwapchain i).result = .ok f') (hn : f.nodes[i]? = some n)
    (hp : n.payload = .swapchain source acquired) (hchildren : f.children i = []) :
    f' = f.extend (swapchainNodes ⟨i, n⟩ source f.size) := by
  rw [expandSwapchain_of_bare hn hp hchildren] at h
  exact addSwapchainImages_eq h rfl

/-- **A swapchain unfolds** unless one of the names of its images is taken. -/
theorem expandSwapchain_of_fresh {i acquired : Nat} (hn : f.nodes[i]? = some n)
    (hp : n.payload = .swapchain source acquired) (hchildren : f.children i = [])
    (h : f.FreshBetween n.name 0 source.images.length) : (f.expandSwapchain i).result =
      .ok (f.extend (swapchainNodes ⟨i, n⟩ source f.size)) := by
  have hzero : f.FreshBetween n.name 0 (0 + source.images.length) := by
    rw [Nat.zero_add]
    exact h
  obtain ⟨f', hf'⟩ :=
    exists_addSwapchainImages (p := ⟨i, n⟩) source source.images f hzero
  rw [← expandSwapchain_of_bare hn hp hchildren] at hf'
  rw [hf', expandSwapchain_eq hf' hn hp hchildren]

/-- The images become children of the swapchain, in their order, and of nothing else. -/
theorem children_extend_swapchainNodes (p : Place) (source : SwapchainImport) {j : Nat}
    (hj : j < f.size) : (f.extend (swapchainNodes p source f.size)).children j = f.children j ++
      if p.index = j then (List.range source.images.length).map (f.size + 2 * ·) else [] := by
  have hhierarchy : hierarchy (f.extend (swapchainNodes p source f.size)) =
      f.hierarchy ++ pairParents p.index f.hierarchy.length source.images.length := by
    rw [length_hierarchy, ← map_parent_swapchainNodes]
    exact List.map_append
  rw [← length_hierarchy] at hj
  rw [children, hhierarchy, children_pairParents _ _ hj, length_hierarchy]
  rfl

/-- A root that is no swapchain, or has its images, stays as it is. -/
theorem expandSwapchain_of_unfolded {i : Nat} (h : ∀ n, f.nodes[i]? = some n →
    n.kind = .swapchain → f.children i ≠ []) : (f.expandSwapchain i).result = .ok f := by
  unfold expandSwapchain
  split
  · next p hp =>
    split
    · next source acquired hpayload hchildren =>
      refine absurd hchildren (h p.node (place?_eq_some_iff.1 hp).2 ?_)
      rw [Node.kind, hpayload]
      rfl
    · rfl
  · rfl

/-- **A tree can be unfolded** if the names are free that it takes. -/
theorem exists_expandSwapchain {i : Nat} (h : f.Unfoldable i) :
    ∃ g, (f.expandSwapchain i).result = .ok g := by
  by_cases hbare : ∃ n source acquired, f.nodes[i]? = some n ∧
      n.payload = .swapchain source acquired ∧ f.children i = []
  · obtain ⟨n, source, acquired, hn, hp, hchildren⟩ := hbare
    exact ⟨_, expandSwapchain_of_fresh hn hp hchildren (h n source acquired hn hp hchildren)⟩
  · refine ⟨f, expandSwapchain_of_unfolded fun n hn hkind hchildren => hbare ?_⟩
    cases hp : n.payload with
    | swapchain source acquired => exact ⟨n, source, acquired, hn, hp, hchildren⟩
    | _ =>
      rw [Node.kind, hp] at hkind
      cases hkind

end Forest

end FrameGraph
