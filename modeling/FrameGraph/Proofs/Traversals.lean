import FrameGraph.Proofs.Walks
import FrameGraph.Proofs.WellFormed

/-!
# Mounts and releases end

A mount goes down a tree with a stack and reads the children of every node as it comes to it
(`MountLoop`); a release comes to the children of a node before the node (`ReleaseLoop`). Neither is
given a bound. Both end on every well-formed forest, with what `Forest.mountNodes` and
`Forest.releaseSubtree` give (`mountLoop_subtree`, `releaseLoop_subtree`), since neither a mount nor
a release moves a node.
-/

set_option autoImplicit false

namespace FrameGraph

open Relation (ReflTransGen)

variable {δ : Type} [Device δ] {f f' g : Forest} {d d' : δ} {i : Nat}

/-! ## What stays in place -/

theorem mountNode_hierarchy {r : Except DeviceError Unit}
    (h : f.mountNode d i = .ok (r, f', d')) : f'.hierarchy = f.hierarchy := by
  rcases mountNode_ok h with ⟨rfl, -⟩ | ⟨n, outcome, hn, -, rfl⟩
  · rfl
  · exact Forest.hierarchy_put hn rfl

theorem mountNodes_hierarchy {is : List Nat} {r : Except DeviceError Unit}
    (h : f.mountNodes d is = .ok (r, f', d')) : f'.hierarchy = f.hierarchy := by
  induction is generalizing f d with
  | nil =>
    cases h
    rfl
  | cons i is ih =>
    obtain ⟨⟨r', g, e⟩, hg, h⟩ := Except.bind_eq_ok_iff.1 h
    cases r' with
    | ok u => exact (ih h).trans (mountNode_hierarchy hg)
    | error e' =>
      cases h
      exact mountNode_hierarchy hg

theorem hierarchy_of_releasesAll {s s' : Forest × δ} (h : ReflTransGen Releases s s') :
    s'.1.hierarchy = s.1.hierarchy :=
  kept_by_all (P := fun s' : Forest × δ => s'.1.hierarchy = s.1.hierarchy)
    (fun _ _ hstep hs => hstep.hierarchy.trans hs) h rfl

/-! ## The loop of a mount -/

/-- The loop of a mount: the node on top of the stack is mounted, and its children take its place.
A fault or a refusal of the device ends the loop, and so does the empty stack. -/
inductive MountLoop :
    Forest × δ → List Nat → Except Fault (Except DeviceError Unit × Forest × δ) → Prop
  | done (f : Forest) (d : δ) : MountLoop (f, d) [] (.ok (.ok (), f, d))
  | fault {f : Forest} {d : δ} {i : Nat} {stack : List Nat} {e : Fault}
      (h : f.mountNode d i = .error e) : MountLoop (f, d) (i :: stack) (.error e)
  | refused {f f' : Forest} {d d' : δ} {i : Nat} {stack : List Nat} {e : DeviceError}
      (h : f.mountNode d i = .ok (.error e, f', d')) :
      MountLoop (f, d) (i :: stack) (.ok (.error e, f', d'))
  | mounted {f f' : Forest} {d d' : δ} {i : Nat} {stack : List Nat}
      {r : Except Fault (Except DeviceError Unit × Forest × δ)}
      (h : f.mountNode d i = .ok (.ok (), f', d'))
      (hrest : MountLoop (f', d') (f'.children i ++ stack) r) : MountLoop (f, d) (i :: stack) r

/-- The loop of a mount follows the walk with a stack. -/
theorem mountLoop_of_unstacks {stack out : List Nat} (hwalk : f.hierarchy.Unstacks stack out) :
    MountLoop (f, d) stack (f.mountNodes d out) := by
  generalize hh : f.hierarchy = h at hwalk
  induction hwalk generalizing f d with
  | done => exact .done f d
  | @take i stack out hrest ih =>
    rw [Forest.mountNodes]
    cases hmount : f.mountNode d i with
    | error e => exact .fault hmount
    | ok x =>
      obtain ⟨r, g, e⟩ := x
      have hg : g.hierarchy = h := (mountNode_hierarchy hmount).trans hh
      cases r with
      | error e' => exact .refused hmount
      | ok u =>
        refine .mounted hmount ?_
        rw [Forest.children, hg]
        exact ih hg

/-- **The loop of a mount ends**, having mounted the nodes of the tree in their order. -/
theorem mountLoop_subtree (hf : f.WellFormed) (d : δ) (i : Nat) :
    MountLoop (f, d) [i] (f.mountNodes d (f.subtree i)) :=
  mountLoop_of_unstacks (Hierarchy.unstacks_subtree hf.ordered i)

/-! ## The recursion of a release -/

/-- The recursion of a release, on one node after the other: what is below a node, the last child
first, and then the node. The first fault ends it. -/
inductive ReleaseLoop : Forest × δ → List Nat → Except Fault (Forest × δ) → Prop
  | done (s : Forest × δ) : ReleaseLoop s [] (.ok s)
  | faultBelow {s : Forest × δ} {i : Nat} {rest : List Nat} {e : Fault}
      (hbelow : ReleaseLoop s (s.1.children i).reverse (.error e)) :
      ReleaseLoop s (i :: rest) (.error e)
  | fault {s s' : Forest × δ} {i : Nat} {rest : List Nat} {e : Fault}
      (hbelow : ReleaseLoop s (s.1.children i).reverse (.ok s'))
      (h : s'.1.releaseNode s'.2 i = .error e) : ReleaseLoop s (i :: rest) (.error e)
  | released {s s' s'' : Forest × δ} {i : Nat} {rest : List Nat} {r : Except Fault (Forest × δ)}
      (hbelow : ReleaseLoop s (s.1.children i).reverse (.ok s'))
      (h : s'.1.releaseNode s'.2 i = .ok s'') (hrest : ReleaseLoop s'' rest r) :
      ReleaseLoop s (i :: rest) r

/-- Releases the nodes at the positions, one after the other. -/
def Forest.releaseNodes (s : Forest × δ) (is : List Nat) : Except Fault (Forest × δ) :=
  is.foldlM (fun (f, device) j => f.releaseNode device j) s

theorem releaseNodes_append (s : Forest × δ) (is js : List Nat) :
    Forest.releaseNodes s (is ++ js) =
      (Forest.releaseNodes s is).bind fun s => Forest.releaseNodes s js := List.foldlM_append

theorem releaseNodes_hierarchy {s s' : Forest × δ} {is : List Nat}
    (h : Forest.releaseNodes s is = .ok s') : s'.1.hierarchy = s.1.hierarchy :=
  hierarchy_of_releasesAll (releaseNodes_releases h)

/-- The recursion of a release follows the walk that comes to the children first. -/
theorem releaseLoop_of_postorder {s : Forest × δ} {is out : List Nat}
    (hwalk : s.1.hierarchy.Postorder is out) : ReleaseLoop s is (Forest.releaseNodes s out) := by
  generalize hh : s.1.hierarchy = h at hwalk
  induction hwalk generalizing s with
  | done => exact .done s
  | @node i rest below out hbelow hrest ihbelow ihrest =>
    have hloop := ihbelow hh
    rw [← hh, ← Forest.children] at hloop
    rw [releaseNodes_append]
    cases hs : Forest.releaseNodes s below with
    | error e =>
      rw [hs] at hloop
      exact .faultBelow hloop
    | ok s' =>
      rw [hs] at hloop
      have hcons : Forest.releaseNodes s' (i :: out) =
          (s'.1.releaseNode s'.2 i).bind fun s'' => Forest.releaseNodes s'' out := List.foldlM_cons
      show ReleaseLoop s (i :: rest) (Forest.releaseNodes s' (i :: out))
      rw [hcons]
      cases hs' : s'.1.releaseNode s'.2 i with
      | error e => exact .fault hloop hs'
      | ok s'' =>
        have hsame : s''.1.hierarchy = h := by
          rw [Releases.hierarchy (.releaseNode hs'), releaseNodes_hierarchy hs, hh]
        exact .released hloop hs' (ihrest hsame)

/-- **The recursion of a release ends**, having released the nodes of the subtree backwards. -/
theorem releaseLoop_subtree (hf : f.WellFormed) (d : δ) (i : Nat) :
    ReleaseLoop (f, d) [i] (f.releaseSubtree d i) :=
  releaseLoop_of_postorder (Hierarchy.postorder_subtree hf.ordered i)

end FrameGraph
