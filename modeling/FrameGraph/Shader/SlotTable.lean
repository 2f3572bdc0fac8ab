/-!
# Tables by slot

A table of values under numbered slots, kept in increasing order of the slots.
-/

set_option autoImplicit false

namespace FrameGraph

structure SlotTable (α : Type) where
  entries : List (Nat × α)

namespace SlotTable

variable {α : Type}

def empty : SlotTable α := ⟨[]⟩

def find? (t : SlotTable α) (slot : Nat) : Option α := t.entries.lookup slot

/-- Puts `a` under `slot`, in place of what stood there. -/
def insertInto (slot : Nat) (a : α) : List (Nat × α) → List (Nat × α)
  | [] => [(slot, a)]
  | (k, b) :: rest =>
    if slot < k then (slot, a) :: (k, b) :: rest
    else if slot = k then (slot, a) :: rest
    else (k, b) :: insertInto slot a rest

def insert (t : SlotTable α) (slot : Nat) (a : α) : SlotTable α := ⟨insertInto slot a t.entries⟩

def slots (t : SlotTable α) : List Nat := t.entries.map (·.1)

def values (t : SlotTable α) : List α := t.entries.map (·.2)

theorem lookup_insertInto (slot k : Nat) (a : α) (l : List (Nat × α)) :
    (insertInto slot a l).lookup k = if k = slot then some a else l.lookup k := by
  induction l with
  | nil =>
    simp only [insertInto, List.lookup_cons, List.lookup_nil]
    grind
  | cons e rest ih =>
    obtain ⟨j, b⟩ := e
    simp only [insertInto, List.lookup_cons]
    grind

/-- A slot holds what was put there last. -/
theorem find?_insert (t : SlotTable α) (slot k : Nat) (a : α) :
    (t.insert slot a).find? k = if k = slot then some a else t.find? k :=
  lookup_insertInto slot k a t.entries

end SlotTable

end FrameGraph
