import FrameGraph.Proofs.SampleMounts

/-!
# The resources of the sample frame

The nodes of the sample frame in order: three images with their views, five buffers, and the
swapchain, at position 11 (`Sample.plainNodes`). With the swapchain unfolded, its image of number
`j` follows at `2 * j + 12` and the view of it at `2 * j + 13` (`Sample.unfolded`).
-/

set_option autoImplicit false

namespace FrameGraph

/-! ## Nodes with objects -/

/-- The payload with the object of that number. -/
def Payload.back (id : Nat) : Payload → Payload
  | .buffer desc _ => .buffer desc (some ⟨id⟩)
  | .bufferView desc origin _ => .bufferView desc origin (some ⟨id⟩)
  | .image desc _ external => .image desc (some ⟨id⟩) external
  | .imageView desc origin _ => .imageView desc origin (some ⟨id⟩)
  | .swapchain source acquired => .swapchain source acquired

/-- The nodes with objects, the node at position `i` with that of number `ids i`. -/
def backed (ids : Nat → Nat) (ns : List Node) : List Node :=
  ns.zipIdx.map fun x => { x.1 with payload := x.1.payload.back (ids x.2) }

section
variable {ns ms : List Node} {n m : Node} {ids : Nat → Nat} {i : Nat}

theorem getElem?_backed (ids : Nat → Nat) (ns : List Node) (i : Nat) :
    (backed ids ns)[i]? = (ns[i]?).map fun n => { n with payload := n.payload.back (ids i) } := by
  rw [backed, List.getElem?_map, List.getElem?_zipIdx]
  cases ns[i]? with
  | none => rfl
  | some n => simp

theorem Payload.exists_back {p q : Payload} (h : p.bare = q.bare) (hb : p.isBacked = true) :
    ∃ id, p = q.back id := by
  cases p with
  | swapchain source acquired =>
    cases q <;> cases h
    exact ⟨0, rfl⟩
  | _ =>
    obtain ⟨⟨id⟩, rfl⟩ := Option.isSome_iff_exists.1 hb
    cases q <;> cases h
    exact ⟨id, rfl⟩

theorem Node.unused_eq_of_sketch (h : n.sketch = m.sketch) (hm : m.unused = m)
    (hb : n.isBacked = true) : ∃ id, n.unused = { m with payload := m.payload.back id } := by
  obtain ⟨id, hid⟩ := Payload.exists_back (congrArg Node.payload h) hb
  refine ⟨id, ?_⟩
  calc n.unused
      = { n.sketch with payload := n.payload } := rfl
    _ = { m.sketch with payload := m.payload.back id } := by rw [h, hid]
    _ = { m.unused with payload := m.payload.back id } := rfl
    _ = { m with payload := m.payload.back id } := by rw [hm]

/-- Nodes that have their objects are known from their sketches, up to the numbers of the
objects. -/
theorem exists_backed (h : ns.map Node.sketch = ms.map Node.sketch)
    (hms : ∀ m ∈ ms, m.unused = m) (hns : ∀ n ∈ ns, n.isBacked = true) :
    ∃ ids, ns.map Node.unused = backed ids ms := by
  have hone : ∀ i : Nat, ∃ id, ∀ m : Node, ms[i]? = some m →
      ∃ n : Node, ns[i]? = some n ∧ n.unused = { m with payload := m.payload.back id } := by
    intro i
    cases hm : ms[i]? with
    | none => exact ⟨0, fun m hm => by cases hm⟩
    | some m =>
      have hi := congrArg (·[i]?) h
      simp only [List.getElem?_map, hm, Option.map_some] at hi
      obtain ⟨n, hn, hsketch⟩ := Option.map_eq_some_iff.1 hi
      obtain ⟨id, hid⟩ := Node.unused_eq_of_sketch hsketch (hms m (List.mem_of_getElem? hm))
        (hns n (List.mem_of_getElem? hn))
      refine ⟨id, fun m' hm' => ?_⟩
      obtain rfl := Option.some.inj hm'
      exact ⟨n, hn, hid⟩
  choose ids hids using hone
  refine ⟨ids, List.ext_getElem? fun i => ?_⟩
  rw [getElem?_backed, List.getElem?_map]
  cases hm : ms[i]? with
  | none =>
    have hlength := congrArg List.length h
    rw [List.length_map, List.length_map] at hlength
    rw [List.getElem?_eq_none (by rw [hlength]; exact List.getElem?_eq_none_iff.1 hm)]
    rfl
  | some m =>
    obtain ⟨n, hn, hid⟩ := hids i m hm
    rw [hn, Option.map_some, Option.map_some, hid]

end

/-! ## Images from elsewhere -/

namespace Headless

theorem length_externalImages (n : Nat) (d : Headless) : (d.externalImages n).1.length = n := by
  induction n generalizing d with
  | zero => rfl
  | succ n ih => exact congrArg (· + 1) (ih _)

/-- Giving out numbers makes nothing. -/
theorem externalImages_eq (n : Nat) (d : Headless) :
    ∃ lastHandle, (d.externalImages n).2 = { d with lastHandle } := by
  induction n generalizing d with
  | zero => exact ⟨d.lastHandle, rfl⟩
  | succ n ih => exact ih d.externalImage.2

end Headless

theorem Ledger.externalImages {f : Forest} {d : Headless} {spare : List (Handle .image)}
    (hl : Ledger f d spare) (n : Nat) :
    Ledger f (d.externalImages n).2 (spare ++ (d.externalImages n).1) := by
  induction n generalizing d spare with
  | zero => rwa [show (d.externalImages 0).1 = [] from rfl, List.append_nil]
  | succ n ih =>
    have h := ih hl.mint
    rwa [List.append_assoc] at h

theorem Accounted.operations {os : List Operation} {f f' : Forest} {d d' : Headless}
    {spare : List (Handle .image)} (hos : ∀ o ∈ os, o.images ⊆ spare)
    (ho : os.foldlM (fun s o => o.run s.1 s.2) (f, d) = .ok (f', d')) (h : Accounted f d spare) :
    Accounted f' d' spare := by
  induction os generalizing f d with
  | nil =>
    cases ho
    exact h
  | cons o os ih =>
    obtain ⟨ho₁, hos⟩ := List.forall_mem_cons.1 hos
    rw [List.foldlM_cons] at ho
    obtain ⟨⟨g, e⟩, hg, ho⟩ := Except.bind_eq_ok_iff.1 ho
    exact ih hos ho (h.operate ho₁ hg)

namespace Sample

/-! ## The nodes -/

/-- An image with its default view, the first at `position`. -/
def imageNodes (name : String) (desc : ImageDesc) (position : Nat) : List Node := [
  { name, residency := .transient, payload := .image desc none false },
  { name := defaultViewName name
    residency := .transient
    payload := .imageView desc.defaultView name none
    parent := some position }]

def bufferNode (name : String) (residency : Residency) (desc : BufferDesc) : Node :=
  { name, residency, payload := .buffer desc none }

/-- The images and buffers. -/
def localNodes (extent : Extent) : List Node :=
  let storage := BufferUsage.storage ∪ BufferUsage.transferDst
  imageNodes "albedo" (target extent .r8g8b8a8Unorm ImageUsage.colorAttachment) 0 ++
  imageNodes "normal" (target extent .r16g16b16a16Sfloat ImageUsage.colorAttachment) 2 ++
  imageNodes "depth" (target extent .d32Sfloat .depthStencilAttachment) 4 ++ [
  bufferNode "camera" .persistent (.uniform 256),
  bufferNode "light_upload" .persistent ⟨64 * 32, .transferSrc⟩,
  bufferNode "lights" .persistent ⟨64 * 32, storage⟩,
  bufferNode "instances" .persistent ⟨1024 * 80, storage⟩,
  bufferNode "draws" .dontCare ⟨1024 * 20, storage ∪ BufferUsage.indirect⟩]

/-- The names of the images and buffers. -/
def localNames : List String :=
  ["albedo", "normal", "depth", "camera", "light_upload", "lights", "instances", "draws"]

section
variable (extent : Extent) (images : List (Handle .image)) (acquired : Nat)

def window : SwapchainImport := ⟨images, .b8g8r8a8Unorm, extent⟩

def swapchainNode : Node :=
  { name := swapchain
    residency := .swapchain
    payload := .swapchain (window extent images) acquired }

/-- All nodes before the swapchain unfolds. -/
def plainNodes : List Node := localNodes extent ++ [swapchainNode extent images acquired]

/-- What the swapchain unfolds into. -/
def windowNodes : List Node := images.zipIdx.flatMap fun x =>
  shownNodes ⟨11, swapchainNode extent images 0⟩ (window extent images) (2 * x.2 + 12) x.1 x.2

/-- All nodes once the swapchain has unfolded. -/
def unfolded : List Node := plainNodes extent images acquired ++ windowNodes extent images

end

variable {extent : Extent} {images : List (Handle .image)} {acquired j : Nat} {d : Headless}
  {spare : List (Handle .image)}

theorem unused_of_mem_unfolded {n : Node} (hn : n ∈ unfolded extent images acquired) :
    n.unused = n := by
  rcases List.mem_append.1 hn with hn | hn
  · simp only [plainNodes, localNodes, imageNodes, List.cons_append, List.nil_append,
      List.mem_cons, List.not_mem_nil, or_false] at hn
    rcases hn with rfl | rfl | rfl | rfl | rfl | rfl | rfl | rfl | rfl | rfl | rfl | rfl <;> rfl
  · obtain ⟨x, -, hn⟩ := List.mem_flatMap.1 hn
    simp only [shownNodes, List.mem_cons, List.not_mem_nil, or_false] at hn
    rcases hn with rfl | rfl <;> rfl

/-! ## Declaring them -/

/-- The operations that declare the images and buffers. -/
def declarations (extent : Extent) : List Operation :=
  let color := ImageUsage.colorAttachment
  let storage := BufferUsage.storage ∪ BufferUsage.transferDst
  [.addImage "albedo" (target extent .r8g8b8a8Unorm color) .transient,
    .addImage "normal" (target extent .r16g16b16a16Sfloat color) .transient,
    .addImage "depth" (target extent .d32Sfloat .depthStencilAttachment) .transient,
    .addBuffer "camera" (.uniform 256) .persistent,
    .addBuffer "light_upload" ⟨64 * 32, .transferSrc⟩ .persistent,
    .addBuffer "lights" ⟨64 * 32, storage⟩ .persistent,
    .addBuffer "instances" ⟨1024 * 80, storage⟩ .persistent,
    .addBuffer "draws" ⟨1024 * 20, storage ∪ BufferUsage.indirect⟩ .dontCare]

theorem localResources_eq (extent : Extent) :
    localResources extent = .ok ⟨localNodes extent, 0⟩ := rfl

theorem run_declarations (extent : Extent) (d : Headless) :
    (declarations extent).foldlM (fun s o => o.run s.1 s.2) (({} : Forest), d) =
      .ok (⟨localNodes extent, 0⟩, d) := rfl

theorem addSwapchain_eq (extent : Extent) (hne : images ≠ []) :
    Forest.addSwapchain ⟨localNodes extent, 0⟩ swapchain (window extent images) =
      .ok ⟨plainNodes extent images 0, 0⟩ := by
  rw [Forest.addSwapchain, if_neg (show ¬ (window extent images).images = [] from hne)]
  rfl

/-- **The resources can be declared**, with any images from elsewhere, and the books are right. -/
theorem resources_ok (extent : Extent) {count : Nat} (hcount : count ≠ 0)
    (h : Accounted {} d []) : resources extent count d =
        .ok (⟨plainNodes extent (d.externalImages count).1 0, 0⟩, (d.externalImages count).2) ∧
      Accounted ⟨plainNodes extent (d.externalImages count).1 0, 0⟩ (d.externalImages count).2
        (d.externalImages count).1 := by
  have hne : (d.externalImages count).1 ≠ [] := by
    rw [Ne, ← List.length_eq_zero_iff, Headless.length_externalImages]
    exact hcount
  have hadd := addSwapchain_eq extent hne
  refine ⟨?_, ?_⟩
  · simp only [resources, localResources_eq]
    exact Except.bind_eq_ok_iff.2 ⟨_, rfl, Except.bind_eq_ok_iff.2 ⟨_, hadd, rfl⟩⟩
  · have hlocal : Accounted ⟨localNodes extent, 0⟩ (d.externalImages count).2
        (d.externalImages count).1 := by
      refine Accounted.operations ?_ (run_declarations extent _)
        ⟨h.proper, h.ledger.externalImages count⟩
      simp [declarations, Operation.images]
    refine hlocal.operate (o := .addSwapchain swapchain (window extent _)) (List.Subset.refl _) ?_
    exact Except.bind_eq_ok_iff.2 ⟨_, hadd, rfl⟩

end Sample

end FrameGraph
