import FrameGraph.Proofs.Walks
import FrameGraph.Shader.Registry
import Mathlib.Data.List.TakeWhile

/-!
# The paths of the shader registry

The name of a shader leads through a path for each slash in it (`mem_paths_iff`), and each of them
is one segment below the path before (`above?`, `leadsDown_paths`). Every path of a registry has the
path above it as its parent, once and before it (`Registry.WellFormed`); putting a shader in keeps
that (`WellFormed.insert`). So the lookups of the registry by path are what the texts of the paths
say: `parentPath?_eq`, `childPaths_eq`.

`Registry.visited` is what a compile visits. It is all that is there at a path and below it
(`mem_visited_iff`), and nothing twice.

What stands after the last dot of a file's name decides whether it is a source, and of which stage
(`ShaderStage.ofFileName?_eq_some_iff`).
-/

set_option autoImplicit false

namespace FrameGraph

/-! ## Cutting at the last slash -/

namespace Text

variable {c : Char} {xs ys cs : List Char}

theorem splitOnce?_append (h : c ∉ xs) : splitOnce? c (xs ++ c :: ys) = some (xs, ys) := by
  have hne : ∀ x ∈ xs, (x != c) = true := fun x hx => bne_iff_ne.2 fun heq => h (heq ▸ hx)
  rw [splitOnce?, List.dropWhile_append_of_pos hne, List.takeWhile_append_of_pos hne,
    List.dropWhile_cons_of_neg (by simp), List.takeWhile_cons_of_neg (by simp), List.append_nil]

theorem splitOnce?_eq_none (h : c ∉ cs) : splitOnce? c cs = none := by
  have hne : ∀ x ∈ cs, (x != c) = true := fun x hx => bne_iff_ne.2 fun heq => h (heq ▸ hx)
  have hall : cs.dropWhile (· != c) = [] := List.dropWhile_eq_nil_iff.2 hne
  rw [splitOnce?, hall]

theorem splitLast?_append (h : c ∉ ys) : splitLast? c (xs ++ c :: ys) = some (xs, ys) := by
  rw [splitLast?, List.reverse_append, List.reverse_cons, List.append_assoc, List.singleton_append,
    splitOnce?_append (by simpa using h)]
  simp

theorem splitLast?_eq_none (h : c ∉ cs) : splitLast? c cs = none := by
  rw [splitLast?, splitOnce?_eq_none (by simpa using h), Option.map_none]

/-- A text with a `c` in it has a last one. -/
theorem exists_last (h : c ∈ cs) : ∃ xs ys, cs = xs ++ c :: ys ∧ c ∉ ys := by
  obtain ⟨ys, xs, hsplit, hys⟩ := List.eq_append_cons_of_mem (List.mem_reverse.2 h)
  refine ⟨xs.reverse, ys.reverse, ?_, by simpa using hys⟩
  rw [← List.reverse_reverse cs, hsplit]
  simp

end Text

/-- The sources of a stage are the files whose names end in a dot and the stage's suffix. -/
theorem ShaderStage.ofFileName?_eq_some_iff {fileName : String} {s : ShaderStage} :
    ofFileName? fileName = some s ↔ ∃ name : String, fileName = name ++ "." ++ s.suffix := by
  constructor
  · intro h
    obtain ⟨⟨above, ext⟩, hsplit, hfind⟩ := Option.bind_eq_some_iff.1 h
    have hext : s.suffix.toList = ext := by simpa using List.find?_some hfind
    have hdot : '.' ∈ fileName.toList := by
      by_contra hdot
      rw [Text.splitLast?_eq_none hdot] at hsplit
      cases hsplit
    obtain ⟨xs, ys, hname, hys⟩ := Text.exists_last hdot
    rw [hname, Text.splitLast?_append hys] at hsplit
    obtain ⟨rfl, rfl⟩ := Prod.mk.inj (Option.some.inj hsplit)
    exact ⟨String.ofList xs, String.toList_inj.1 (by simp [hname, hext])⟩
  · rintro ⟨name, rfl⟩
    have htext : (name ++ "." ++ s.suffix).toList = name.toList ++ '.' :: s.suffix.toList := by
      simp
    rw [ofFileName?, htext, Text.splitLast?_append s.dot_notMem_suffix]
    exact s.find?_suffix

example : ShaderStage.ofFileName? "deferred.lighting.vert" = some .vertex := by cbv

namespace Registry

/-- What stands before the last slash of a path. -/
def above? (path : String) : Option String :=
  (Text.splitLast? '/' path.toList).map fun (above, _) => String.ofList above

/-- Whether a path is `top` or starts with `top` and a slash. -/
def Within (top path : String) : Prop := path = top ∨ (top ++ "/").toList <+: path.toList

instance (top path : String) : Decidable (Within top path) := inferInstanceAs (Decidable (_ ∨ _))

theorem toList_below (above segment : String) :
    (above ++ "/" ++ segment).toList = above.toList ++ '/' :: segment.toList := by
  simp

theorem above?_below {above segment : String} (h : '/' ∉ segment.toList) :
    above? (above ++ "/" ++ segment) = some above := by
  rw [above?, toList_below, Text.splitLast?_append h]
  exact congrArg some String.ofList_toList

theorem above?_eq_none_iff {path : String} : above? path = none ↔ '/' ∉ path.toList := by
  constructor
  · intro h hslash
    obtain ⟨xs, ys, hsplit, hys⟩ := Text.exists_last hslash
    rw [above?, hsplit, Text.splitLast?_append hys] at h
    cases h
  · intro h
    rw [above?, Text.splitLast?_eq_none h, Option.map_none]

theorem above?_eq_some_iff {path above : String} :
    above? path = some above ↔
      ∃ segment : String, '/' ∉ segment.toList ∧ path = above ++ "/" ++ segment := by
  constructor
  · intro h
    have hslash : '/' ∈ path.toList := by
      by_contra hslash
      rw [above?_eq_none_iff.2 hslash] at h
      cases h
    obtain ⟨xs, ys, hsplit, hys⟩ := Text.exists_last hslash
    rw [above?, hsplit, Text.splitLast?_append hys] at h
    obtain rfl := Option.some.inj h
    refine ⟨String.ofList ys, by rwa [String.toList_ofList], String.toList_inj.1 ?_⟩
    rw [toList_below, String.toList_ofList, String.toList_ofList, hsplit]
  · rintro ⟨segment, hsegment, rfl⟩
    exact above?_below hsegment

theorem within_self (top : String) : Within top top := .inl rfl

/-- A path is within another if it is that path or what is above it is within. -/
theorem within_iff {top path : String} :
    Within top path ↔ path = top ∨ ∃ above, above? path = some above ∧ Within top above := by
  refine or_congr_right' fun hne => ⟨fun hbegins => ?_, ?_⟩
  · obtain ⟨rest, hrest⟩ := hbegins
    have hslash : '/' ∈ path.toList := by simp [← hrest]
    obtain ⟨xs, ys, hsplit, hys⟩ := Text.exists_last hslash
    refine ⟨String.ofList xs, by rw [above?, hsplit, Text.splitLast?_append hys]; rfl, ?_⟩
    have heq : top.toList ++ '/' :: rest = xs ++ '/' :: ys := by
      rw [← hsplit, ← hrest]
      simp
    -- the slash behind `top` is the last one of the path or stands before it
    rcases List.append_eq_append_iff.1 heq with ⟨zs, rfl, hzs⟩ | ⟨zs, htop, hzs⟩
    · cases zs with
      | nil => exact .inl (by rw [List.append_nil, String.ofList_toList])
      | cons z zs =>
        obtain ⟨rfl, -⟩ := List.cons.inj hzs
        exact .inr ⟨zs, by simp⟩
    · cases zs with
      | nil => exact .inl (by rw [← List.append_nil xs, ← htop, String.ofList_toList])
      | cons z zs =>
        obtain ⟨-, rfl⟩ := List.cons.inj hzs
        exact absurd (List.mem_append_right zs List.mem_cons_self) hys
  · rintro ⟨above, habove, hwithin⟩
    obtain ⟨segment, -, rfl⟩ := above?_eq_some_iff.1 habove
    rcases hwithin with rfl | hbegins
    · exact ⟨segment.toList, by simp⟩
    · rw [toList_below]
      exact hbegins.trans (List.prefix_append _ _)

/-! ## The paths on the way to a shader -/

/-- What is read of a path when its next segment begins. -/
def lead : Option String → List Char
  | none => []
  | some above => above.toList ++ ['/']

/-- Whether each path is one segment below the one before it, and the first below `above`. -/
def LeadsDown : Option String → List String → Prop
  | _, [] => True
  | above, path :: rest => above? path = above ∧ LeadsDown (some path) rest

theorem above?_ofList_lead (above : Option String) {segment : List Char} (h : '/' ∉ segment) :
    above? (String.ofList (lead above ++ segment)) = above := by
  cases above with
  | none =>
    rw [above?_eq_none_iff, String.toList_ofList]
    exact h
  | some above =>
    rw [above?_eq_some_iff]
    exact ⟨String.ofList segment, by rwa [String.toList_ofList],
      String.toList_inj.1 (by simp [lead])⟩

theorem leadsDown_pathsFrom {above : Option String} {before segment : List Char} (cs : List Char)
    (hbefore : before.reverse = lead above ++ segment) (hsegment : '/' ∉ segment) :
    LeadsDown above (pathsFrom before cs) := by
  have hhead : above? (String.ofList before.reverse) = above := by
    rw [hbefore]
    exact above?_ofList_lead above hsegment
  induction cs generalizing above before segment with
  | nil => exact ⟨hhead, trivial⟩
  | cons c cs ih =>
    unfold pathsFrom
    split
    · next hc =>
      have hnext : (c :: before).reverse = lead (some (String.ofList before.reverse)) ++ [] := by
        simp [lead, hc]
      refine ⟨hhead, ih hnext List.not_mem_nil ?_⟩
      rw [hnext]
      exact above?_ofList_lead _ List.not_mem_nil
    · next hc =>
      have hnext : (c :: before).reverse = lead above ++ (segment ++ [c]) := by simp [hbefore]
      have hlonger : '/' ∉ segment ++ [c] := by simpa [hsegment] using Ne.symm hc
      refine ih hnext hlonger ?_
      rw [hnext]
      exact above?_ofList_lead above hlonger

theorem leadsDown_paths (name : String) : LeadsDown none (paths name) := by
  have hstart : ([] : List Char).reverse = lead none ++ [] := rfl
  exact leadsDown_pathsFrom name.toList hstart List.not_mem_nil

theorem mem_pathsFrom_iff {before cs : List Char} {path : String} :
    path ∈ pathsFrom before cs ↔
      path.toList = before.reverse ++ cs ∨
        ∃ xs ys, cs = xs ++ '/' :: ys ∧ path.toList = before.reverse ++ xs := by
  induction cs generalizing before with
  | nil => simp [pathsFrom, ← String.toList_inj]
  | cons c cs ih =>
    have hrest : path ∈ pathsFrom (c :: before) cs ↔
        path.toList = before.reverse ++ c :: cs ∨
          ∃ xs ys, cs = xs ++ '/' :: ys ∧ path.toList = before.reverse ++ c :: xs := by
      simp [ih]
    unfold pathsFrom
    split
    · next hc =>
      subst hc
      rw [List.mem_cons, hrest, or_left_comm, ← String.toList_inj, String.toList_ofList]
      refine or_congr_right ⟨?_, ?_⟩
      · rintro (hpath | ⟨xs, ys, rfl, hpath⟩)
        · exact ⟨[], cs, rfl, by rw [hpath, List.append_nil]⟩
        · exact ⟨'/' :: xs, ys, rfl, hpath⟩
      · rintro ⟨xs, ys, hcs, hpath⟩
        cases xs with
        | nil => exact .inl (by rw [hpath, List.append_nil])
        | cons x xs =>
          obtain ⟨rfl, rfl⟩ := List.cons.inj hcs
          exact .inr ⟨xs, ys, rfl, hpath⟩
    · next hc =>
      rw [hrest]
      refine or_congr_right ⟨?_, ?_⟩
      · rintro ⟨xs, ys, rfl, hpath⟩
        exact ⟨c :: xs, ys, rfl, hpath⟩
      · rintro ⟨xs, ys, hcs, hpath⟩
        cases xs with
        | nil => exact absurd (List.cons.inj hcs).1 hc
        | cons x xs =>
          obtain ⟨rfl, rfl⟩ := List.cons.inj hcs
          exact ⟨xs, ys, rfl, hpath⟩

/-- **A name leads through the paths that it is within.** -/
theorem mem_paths_iff {path name : String} : path ∈ paths name ↔ Within path name := by
  rw [paths, mem_pathsFrom_iff, List.reverse_nil, List.nil_append, String.toList_inj]
  refine or_congr eq_comm ⟨?_, ?_⟩
  · rintro ⟨xs, ys, hname, hpath⟩
    exact ⟨ys, by simp [hname, hpath]⟩
  · rintro ⟨ys, hys⟩
    exact ⟨path.toList, ys, by simp [← hys], rfl⟩

/-- A shader's own path is one of those that lead to it. -/
theorem mem_paths (name : String) : name ∈ paths name := mem_paths_iff.2 (within_self name)

/-! ## Lookups -/

/-- The paths of a registry, in the order in which they came in. -/
def keys (r : Registry) : List String := r.nodes.map (·.path)

/-- Whether no path is there twice and each has the path above it as its parent, before it. -/
structure WellFormed (r : Registry) : Prop where
  nodup : r.keys.Nodup
  ordered : r.hierarchy.Ordered
  above : ∀ (i : Nat) path, r.keys[i]? = some path →
    above? path = (r.hierarchy[i]?).join.bind fun j => r.keys[j]?

variable {r : Registry} {s : Shader} {path top : String} {i j : Nat}

theorem wellFormed_empty : WellFormed {} where
  nodup := List.nodup_nil
  ordered i p hp := by simp [hierarchy] at hp
  above i path hpath := by simp [keys] at hpath

theorem length_keys (r : Registry) : r.keys.length = r.nodes.length := List.length_map _

theorem length_hierarchy (r : Registry) : r.hierarchy.length = r.nodes.length := List.length_map _

theorem getElem?_keys (r : Registry) (i : Nat) : r.keys[i]? = (r.nodes[i]?).map (·.path) :=
  List.getElem?_map

theorem getElem?_hierarchy (r : Registry) (i : Nat) :
    r.hierarchy[i]? = (r.nodes[i]?).map (·.parent) :=
  List.getElem?_map

theorem indexOf?_eq_none_iff : r.indexOf? path = none ↔ path ∉ r.keys := by
  simp [indexOf?, keys]

theorem getElem?_of_indexOf? (h : r.indexOf? path = some i) : r.keys[i]? = some path := by
  obtain ⟨hi, hpath, -⟩ := List.findIdx?_eq_some_iff_getElem.1 h
  rw [getElem?_keys, List.getElem?_eq_getElem hi, Option.map_some, beq_iff_eq.1 hpath]

theorem node?_eq (r : Registry) (path : String) :
    r.node? path = (r.indexOf? path).bind fun i => r.nodes[i]? :=
  List.find?_eq_bind_findIdx?_getElem?

theorem exists_node_of_mem_keys (h : path ∈ r.keys) : ∃ n, r.node? path = some n := by
  obtain ⟨n, hn, rfl⟩ := List.mem_map.1 h
  cases hfind : r.node? n.path with
  | some m => exact ⟨m, rfl⟩
  | none => exact absurd (beq_self_eq_true n.path) (List.find?_eq_none.1 hfind n hn)

theorem mem_keys_of_node? {n : ShaderNode} (h : r.node? path = some n) : path ∈ r.keys := by
  have hpath : n.path = path := by simpa using List.find?_some h
  exact List.mem_map.2 ⟨n, List.mem_of_find?_eq_some h, hpath⟩

theorem mem_keys_of_shader? (h : r.shader? path = some s) : path ∈ r.keys := by
  obtain ⟨n, hn, -⟩ := Option.bind_eq_some_iff.1 h
  exact mem_keys_of_node? hn

namespace WellFormed

variable (hr : r.WellFormed)
include hr

theorem index_unique (hi : r.keys[i]? = some path) (hj : r.keys[j]? = some path) : i = j := by
  obtain ⟨hlt, -⟩ := List.getElem?_eq_some_iff.1 hi
  exact (List.getElem?_inj hlt hr.nodup).1 (hi.trans hj.symm)

theorem indexOf?_eq_some_iff : r.indexOf? path = some i ↔ r.keys[i]? = some path := by
  refine ⟨getElem?_of_indexOf?, fun hi => ?_⟩
  cases hj : r.indexOf? path with
  | none => exact absurd (List.mem_of_getElem? hi) (indexOf?_eq_none_iff.1 hj)
  | some j => rw [hr.index_unique hi (getElem?_of_indexOf? hj)]

theorem node?_of_getElem? {n : ShaderNode} (hn : r.nodes[i]? = some n) :
    r.node? n.path = some n := by
  have hi : r.keys[i]? = some n.path := by rw [getElem?_keys, hn, Option.map_some]
  rw [node?_eq, hr.indexOf?_eq_some_iff.2 hi, Option.bind_some, hn]

theorem node?_of_mem {n : ShaderNode} (hn : n ∈ r.nodes) : r.node? n.path = some n := by
  obtain ⟨i, hi⟩ := List.mem_iff_getElem?.1 hn
  exact hr.node?_of_getElem? hi

/-- A node's parent is the position of the path above its own. -/
theorem above_node {n : ShaderNode} (hn : n ∈ r.nodes) :
    above? n.path = n.parent.bind fun j => r.keys[j]? := by
  obtain ⟨i, hi⟩ := List.mem_iff_getElem?.1 hn
  rw [hr.above i n.path (by rw [getElem?_keys, hi, Option.map_some]), getElem?_hierarchy, hi]
  rfl

theorem parent_eq_iff {n : ShaderNode} (hn : n ∈ r.nodes) (hi : r.keys[i]? = some path) :
    n.parent = some i ↔ above? n.path = some path := by
  rw [hr.above_node hn]
  constructor
  · intro hparent
    rw [hparent, Option.bind_some, hi]
  · intro habove
    obtain ⟨j, hparent, hj⟩ := Option.bind_eq_some_iff.1 habove
    rw [hparent, hr.index_unique hi hj]

/-- The parent's position comes before. -/
theorem exists_above (hj : r.keys[j]? = some path) (habove : above? path = some top) :
    ∃ i, i < j ∧ r.hierarchy[j]? = some (some i) ∧ r.keys[i]? = some top := by
  rw [hr.above j path hj] at habove
  obtain ⟨i, hparent, hi⟩ := Option.bind_eq_some_iff.1 habove
  have hparent' := Option.join_eq_some_iff.1 hparent
  exact ⟨i, hr.ordered j i hparent', hparent', hi⟩

theorem mem_keys_of_above (hpath : path ∈ r.keys) (habove : above? path = some top) :
    top ∈ r.keys := by
  obtain ⟨j, hj⟩ := List.mem_iff_getElem?.1 hpath
  obtain ⟨i, -, -, hi⟩ := hr.exists_above hj habove
  exact List.mem_of_getElem? hi

/-- **The parent of a path is what stands before its last slash.** -/
theorem parentPath?_eq (hpath : path ∈ r.keys) : r.parentPath? path = above? path := by
  obtain ⟨n, hn⟩ := exists_node_of_mem_keys hpath
  have hnode : n.path = path := by simpa using List.find?_some hn
  subst hnode
  rw [parentPath?, hn, Option.bind_some, hr.above_node (List.mem_of_find?_eq_some hn)]
  simp only [getElem?_keys]

end WellFormed

theorem filterMap_children (nodes : List ShaderNode) (i : Nat) :
    ((Hierarchy.children (nodes.map (·.parent)) i).filterMap fun j => (nodes[j]?).map (·.path)) =
      (nodes.filter (·.parent == some i)).map (·.path) := by
  induction nodes using List.reverseRecOn with
  | nil => rfl
  | append_singleton nodes n ih =>
    have hold : ((Hierarchy.children (nodes.map (·.parent)) i).filterMap fun j =>
        ((nodes ++ [n])[j]?).map (·.path)) = (nodes.filter (·.parent == some i)).map (·.path) := by
      rw [← ih]
      refine List.filterMap_congr fun j hj => ?_
      have hlt := Hierarchy.lt_length_of_mem_children hj
      rw [List.length_map] at hlt
      rw [List.getElem?_append_left hlt]
    rw [List.map_append, List.map_singleton, Hierarchy.children_concat, List.filterMap_append, hold,
      List.filter_append, List.map_append]
    by_cases hparent : n.parent = some i
    · simp [hparent]
    · simp [hparent]

/-- **The paths below a path are those that have it before their last slash**, in the order in which
they came in. -/
theorem WellFormed.childPaths_eq (hr : r.WellFormed) (path : String) :
    r.childPaths path = r.keys.filter fun c => above? c = some path := by
  unfold childPaths
  cases hindex : r.indexOf? path with
  | none =>
    refine (List.filter_eq_nil_iff.2 fun c hc habove => ?_).symm
    exact indexOf?_eq_none_iff.1 hindex (hr.mem_keys_of_above hc (of_decide_eq_true habove))
  | some i =>
    show (Hierarchy.children (r.nodes.map (·.parent)) i).filterMap _ = _
    rw [filterMap_children, keys, List.filter_map]
    refine congrArg _ (List.filter_congr fun n hn => ?_)
    rw [Function.comp_apply, Bool.eq_iff_iff, beq_iff_eq, decide_eq_true_eq]
    exact hr.parent_eq_iff hn (getElem?_of_indexOf? hindex)

/-- A path that is within another is there only with it. -/
theorem WellFormed.mem_keys_of_within (hr : r.WellFormed) (hpath : path ∈ r.keys)
    (hwithin : Within top path) : top ∈ r.keys := by
  obtain ⟨j, hj⟩ := List.mem_iff_getElem?.1 hpath
  induction j using Nat.strongRecOn generalizing path with
  | _ j ih =>
    rcases within_iff.1 hwithin with rfl | ⟨above, habove, hwithin⟩
    · exact hpath
    · obtain ⟨i, hlt, -, hi⟩ := hr.exists_above hj habove
      exact ih i hlt (List.mem_of_getElem? hi) hwithin hi

/-! ## New paths -/

/-- The paths with one more, if it is new. -/
def addKey (ks : List String) (path : String) : List String :=
  if path ∈ ks then ks else ks ++ [path]

theorem addKey_eraseDups (ps : List String) (path : String) :
    addKey ps.eraseDups path = (ps ++ [path]).eraseDups := by
  rw [addKey, List.eraseDups_append]
  by_cases hpath : path ∈ ps
  · simp [hpath, List.removeAll]
  · simp [hpath, List.removeAll, List.eraseDups_cons]

theorem foldl_addKey (ps qs : List String) :
    qs.foldl addKey ps.eraseDups = (ps ++ qs).eraseDups := by
  induction qs generalizing ps with
  | nil => simp
  | cons q qs ih => rw [List.foldl_cons, addKey_eraseDups, ih, List.append_assoc]; rfl

theorem keys_ensure (r : Registry) (parent : Option Nat) (path : String) :
    (r.ensure parent path).1.keys = addKey r.keys path := by
  unfold ensure addKey
  cases hindex : r.indexOf? path with
  | some i => rw [if_pos (List.mem_of_getElem? (getElem?_of_indexOf? hindex))]
  | none =>
    rw [if_neg (indexOf?_eq_none_iff.1 hindex)]
    simp [keys]

theorem getElem?_ensure (r : Registry) (parent : Option Nat) (path : String) :
    (r.ensure parent path).1.keys[(r.ensure parent path).2]? = some path := by
  unfold ensure
  cases hindex : r.indexOf? path with
  | some i => exact getElem?_of_indexOf? hindex
  | none => simp [keys]

theorem WellFormed.ensure (hr : r.WellFormed) {parent : Option Nat}
    (habove : above? path = parent.bind fun j => r.keys[j]?)
    (hparent : ∀ j, parent = some j → j < r.nodes.length) :
    (r.ensure parent path).1.WellFormed := by
  unfold Registry.ensure
  cases hindex : r.indexOf? path with
  | some i => exact hr
  | none =>
    let r' : Registry := ⟨r.nodes ++ [{ path := path, parent := parent }]⟩
    have hkeys : r'.keys = r.keys ++ [path] := by simp [r', keys]
    have hhierarchy : r'.hierarchy = r.hierarchy ++ [parent] := by simp [r', hierarchy]
    show r'.WellFormed
    have hkeep {j : Nat} (hj : j < r.nodes.length) : (r.keys ++ [path])[j]? = r.keys[j]? :=
      List.getElem?_append_left (by rwa [length_keys])
    -- a parent that was there before is where it was
    have hbind {p : Option Nat} (hp : ∀ j, p = some j → j < r.nodes.length) :
        (p.bind fun j => (r.keys ++ [path])[j]?) = p.bind fun j => r.keys[j]? := by
      cases p with
      | none => rfl
      | some j => exact hkeep (hp j rfl)
    refine ⟨?_, ?_, fun i q hq => ?_⟩
    · rw [hkeys, List.nodup_append]
      refine ⟨hr.nodup, List.nodup_singleton _, fun a ha b hb heq => ?_⟩
      obtain rfl := List.mem_singleton.1 hb
      exact indexOf?_eq_none_iff.1 hindex (heq ▸ ha)
    · rw [hhierarchy]
      exact hr.ordered.concat (by rwa [length_hierarchy])
    · rw [hkeys] at hq ⊢
      rw [hhierarchy]
      rcases Nat.lt_or_ge i r.nodes.length with hi | hi
      · rw [hkeep hi] at hq
        rw [List.getElem?_append_left (by rwa [length_hierarchy]), hr.above i q hq, hbind]
        intro j hj
        exact Nat.lt_trans (hr.ordered i j (Option.join_eq_some_iff.1 hj)) hi
      · rw [List.getElem?_append_right (by rwa [length_keys]), length_keys] at hq
        obtain ⟨hlt, hget⟩ := List.getElem?_eq_some_iff.1 hq
        obtain rfl : i = r.nodes.length := by
          rw [List.length_singleton] at hlt
          omega
        obtain rfl : path = q := by simpa using hget
        rw [← length_hierarchy, List.getElem?_concat_length, Option.join_some, hbind hparent]
        exact habove

theorem keys_ensureAll (r : Registry) (parent : Option Nat) (ps : List String) :
    (r.ensureAll parent ps).keys = ps.foldl addKey r.keys := by
  induction ps generalizing r parent with
  | nil => rfl
  | cons p ps ih =>
    rw [ensureAll, ih, keys_ensure]
    rfl

theorem WellFormed.ensureAll (hr : r.WellFormed) {parent : Option Nat} {ps : List String}
    (hps : LeadsDown (parent.bind fun j => r.keys[j]?) ps)
    (hparent : ∀ j, parent = some j → j < r.nodes.length) :
    (r.ensureAll parent ps).WellFormed := by
  induction ps generalizing r parent with
  | nil => exact hr
  | cons p ps ih =>
    have hat := r.getElem?_ensure parent p
    obtain ⟨hlt, -⟩ := List.getElem?_eq_some_iff.1 hat
    show ((r.ensure parent p).1.ensureAll (some (r.ensure parent p).2) ps).WellFormed
    refine ih (hr.ensure hps.1 hparent) ?_ ?_
    · rw [Option.bind_some, hat]
      exact hps.2
    · rintro j hj
      obtain rfl := Option.some.inj hj
      rwa [length_keys] at hlt

theorem keys_insert (r : Registry) (s : Shader) :
    (r.insert s).keys = (paths s.name).foldl addKey r.keys := by
  rw [← keys_ensureAll r none, insert, keys, keys, List.map_map]
  refine List.map_congr_left fun n _ => ?_
  rw [Function.comp_apply]
  split <;> rfl

/-- **A shader that is put in keeps a registry well-formed.** -/
theorem WellFormed.insert (hr : r.WellFormed) (s : Shader) : (r.insert s).WellFormed := by
  have hall : (r.ensureAll none (paths s.name)).WellFormed :=
    hr.ensureAll (leadsDown_paths s.name) (by simp)
  have hkeys : (r.insert s).keys = (r.ensureAll none (paths s.name)).keys := by
    rw [keys_insert, keys_ensureAll]
  have hhierarchy : (r.insert s).hierarchy = (r.ensureAll none (paths s.name)).hierarchy := by
    rw [Registry.insert, hierarchy, hierarchy, List.map_map]
    refine List.map_congr_left fun n _ => ?_
    rw [Function.comp_apply]
    split <;> rfl
  exact ⟨hkeys ▸ hall.nodup, hhierarchy ▸ hall.ordered, by rw [hkeys, hhierarchy]; exact hall.above⟩

/-- Paths that are added bring no shaders. -/
theorem ensureAll_nodes (r : Registry) (parent : Option Nat) (ps : List String) :
    ∃ more, (r.ensureAll parent ps).nodes = r.nodes ++ more ∧ (∀ n ∈ more, n.shader = none) ∧
      ∀ p ∈ ps, ∃ n ∈ r.nodes ++ more, n.path = p := by
  induction ps generalizing r parent with
  | nil => exact ⟨[], by simp [ensureAll]⟩
  | cons p ps ih =>
    unfold ensureAll ensure
    cases hp : r.indexOf? p with
    | some i =>
      obtain ⟨more, hnodes, hnone, hall⟩ := ih r (some i)
      refine ⟨more, hnodes, hnone, List.forall_mem_cons.2 ⟨?_, hall⟩⟩
      obtain ⟨hi, hpath, -⟩ := List.findIdx?_eq_some_iff_getElem.1 hp
      exact ⟨r.nodes[i], List.mem_append_left _ (List.getElem_mem hi), by simpa using hpath⟩
    | none =>
      obtain ⟨more, hnodes, hnone, hall⟩ :=
        ih ⟨r.nodes ++ [{ path := p, parent }]⟩ (some r.nodes.length)
      have happend : r.nodes ++ { path := p, parent } :: more =
          r.nodes ++ [{ path := p, parent }] ++ more := by simp
      refine ⟨{ path := p, parent } :: more, ?_, List.forall_mem_cons.2 ⟨rfl, hnone⟩,
        List.forall_mem_cons.2 ⟨⟨{ path := p, parent }, by simp, rfl⟩, ?_⟩⟩
      · rw [happend]
        exact hnodes
      · rw [happend]
        exact hall

/-- **A name stands for the shader that was put there last.** -/
theorem shader?_insert (r : Registry) (s : Shader) (path : String) :
    (r.insert s).shader? path = if path = s.name then some s else r.shader? path := by
  obtain ⟨more, hnodes, hnone, hall⟩ := r.ensureAll_nodes none (paths s.name)
  have hfind : (r.insert s).node? path = ((r.nodes ++ more).find? (·.path == path)).map
      fun n => if n.path = s.name then { n with shader := some s } else n := by
    unfold insert node?
    rw [hnodes, List.find?_map]
    refine congrArg _ (congrArg (List.find? · _) (funext fun n => ?_))
    simp only [Function.comp_apply]
    split <;> rfl
  unfold shader?
  rw [hfind]
  split
  · next heq =>
    subst heq
    obtain ⟨n, hn, hpath⟩ := hall _ (mem_paths s.name)
    cases hfound : (r.nodes ++ more).find? (·.path == s.name) with
    | none => exact absurd hpath (by simpa using List.find?_eq_none.1 hfound n hn)
    | some m =>
      have hm : m.path = s.name := by simpa using List.find?_some hfound
      simp [hm]
  · next hne =>
    unfold node?
    rw [List.find?_append]
    cases hold : r.nodes.find? (·.path == path) with
    | some m =>
      have hm : m.path = path := by simpa using List.find?_some hold
      simp [hm, hne]
    | none =>
      cases hnew : more.find? (·.path == path) with
      | none => rfl
      | some m =>
        have hm : m.path = path := by simpa using List.find?_some hnew
        simp [hm, hne, hnone m (List.mem_of_find?_eq_some hnew)]

/-! ## Visits -/

/-- The paths that a compile at a path visits, in order. -/
def visited (r : Registry) (name : String) : List String :=
  match r.indexOf? name with
  | some i => (r.hierarchy.subtree i).filterMap fun j => r.keys[j]?
  | none => []

/-- What is at positions below a position is within its path, and the other way round. -/
theorem WellFormed.below_iff (hr : r.WellFormed) (hi : r.keys[i]? = some top)
    (hj : r.keys[j]? = some path) :
    Relation.ReflTransGen r.hierarchy.Above i j ↔ Within top path := by
  constructor
  · intro hbelow
    induction hbelow generalizing path with
    | refl =>
      rw [hi] at hj
      exact .inl (Option.some.inj hj).symm
    | @tail k j _ hstep ih =>
      have hparent := Hierarchy.above_iff.1 hstep
      have hlt := hr.ordered j k hparent
      obtain ⟨hjlt, -⟩ := List.getElem?_eq_some_iff.1 hj
      obtain ⟨above, hk⟩ : ∃ above, r.keys[k]? = some above :=
        ⟨_, List.getElem?_eq_getElem (Nat.lt_trans hlt hjlt)⟩
      have habove := hr.above j path hj
      rw [hparent, Option.join_some, Option.bind_some, hk] at habove
      exact within_iff.2 (.inr ⟨above, habove, ih hk⟩)
  · intro hwithin
    induction j using Nat.strongRecOn generalizing path with
    | _ j ih =>
      rcases within_iff.1 hwithin with rfl | ⟨above, habove, hwithin⟩
      · rw [hr.index_unique hi hj]
      · obtain ⟨k, hlt, hparent, hk⟩ := hr.exists_above hj habove
        exact .tail (ih k hlt hk hwithin) (Hierarchy.above_iff.2 hparent)

/-- **A path and all that starts with it and a slash is visited.** -/
theorem WellFormed.mem_visited_iff (hr : r.WellFormed) (htop : top ∈ r.keys) :
    path ∈ r.visited top ↔ path ∈ r.keys ∧ Within top path := by
  obtain ⟨i, hi⟩ := List.mem_iff_getElem?.1 htop
  unfold visited
  simp only [hr.indexOf?_eq_some_iff.2 hi, List.mem_filterMap, Hierarchy.mem_subtree_iff hr.ordered]
  constructor
  · rintro ⟨j, hbelow, hj⟩
    exact ⟨List.mem_of_getElem? hj, (hr.below_iff hi hj).1 hbelow⟩
  · rintro ⟨hpath, hwithin⟩
    obtain ⟨j, hj⟩ := List.mem_iff_getElem?.1 hpath
    exact ⟨j, (hr.below_iff hi hj).2 hwithin, hj⟩

theorem WellFormed.nodup_visited (hr : r.WellFormed) (top : String) : (r.visited top).Nodup := by
  unfold visited
  split
  · next i _ =>
    exact (Hierarchy.nodup_subtree hr.ordered i).filterMap fun j k path hj hk =>
      hr.index_unique hj hk
  · exact List.nodup_nil

/-- **A path is visited before those below it**, which come one after the other with all below
them. -/
theorem WellFormed.visited_eq (hr : r.WellFormed) (htop : top ∈ r.keys) :
    r.visited top = top :: (r.childPaths top).flatMap r.visited := by
  obtain ⟨i, hi⟩ := List.mem_iff_getElem?.1 htop
  have hindex := hr.indexOf?_eq_some_iff.2 hi
  have hchildren : (r.childPaths top).flatMap r.visited =
      (r.hierarchy.children i).flatMap fun j =>
        (r.hierarchy.subtree j).filterMap fun j => r.keys[j]? := by
    simp only [childPaths, hindex, ← getElem?_keys]
    have hvisit : ∀ j ∈ r.hierarchy.children i, ∃ path, r.keys[j]? = some path ∧
        r.visited path = (r.hierarchy.subtree j).filterMap fun j => r.keys[j]? := by
      intro j hj
      have hlt := Hierarchy.lt_length_of_mem_children hj
      rw [length_hierarchy, ← length_keys] at hlt
      refine ⟨r.keys[j], List.getElem?_eq_getElem hlt, ?_⟩
      simp only [visited, hr.indexOf?_eq_some_iff.2 (List.getElem?_eq_getElem hlt)]
    generalize r.hierarchy.children i = js at hvisit
    induction js with
    | nil => rfl
    | cons j js ih =>
      obtain ⟨path, hpath, hat⟩ := hvisit j List.mem_cons_self
      rw [List.filterMap_cons_some hpath, List.flatMap_cons, List.flatMap_cons, hat,
        ih fun k hk => hvisit k (List.mem_cons_of_mem j hk)]
  rw [hchildren]
  simp only [visited, hindex]
  rw [Hierarchy.subtree_eq hr.ordered, List.filterMap_cons_some hi, List.filterMap_flatMap]

end Registry

end FrameGraph
