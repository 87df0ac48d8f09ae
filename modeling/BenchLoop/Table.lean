/-
BenchLoop/Table.lean

Tables: sequences read as total functions.  A cell that was never written holds
the default value, and writing past the end extends the table, so the two laws of
reading after writing hold at every index:

* `Table.get_set`: a written cell holds what was written, all others are kept;
* `Table.get_modify`: a modified cell holds the image of what it held.

Of two writes to one cell only the later one counts (`Table.set_set`).
-/

namespace BenchLoop

/-- Cells numbered from 0; those not stored hold the default. -/
structure Table (α : Type) where
  cells : Array α := #[]

namespace Table

variable {α : Type} [Inhabited α]

instance : Inhabited (Table α) := ⟨{}⟩

/-- The cell at `i`. -/
def get (t : Table α) (i : Nat) : α := t.cells.getD i default

/-- Writes the cell at `i`, extending the table as far as needed. -/
def set (t : Table α) (i : Nat) (a : α) : Table α :=
  if i < t.cells.size then ⟨t.cells.setIfInBounds i a⟩
  else ⟨(t.cells ++ Array.replicate (i - t.cells.size) default).push a⟩

/-- Replaces the cell at `i` by its image under `f`. -/
def modify (t : Table α) (i : Nat) (f : α → α) : Table α :=
  if i < t.cells.size then ⟨t.cells.modify i f⟩ else t.set i (f default)

theorem get_set (t : Table α) (i j : Nat) (a : α) :
    (t.set i a).get j = if i = j then a else t.get j := by
  unfold set get
  split <;> rename_i h
  · simp only [Array.getD_eq_getD_getElem?, Array.getElem?_setIfInBounds]
    grind
  · simp only [Array.getD_eq_getD_getElem?, Array.getElem?_push, Array.getElem?_append,
      Array.getElem?_replicate, Array.size_append, Array.size_replicate]
    grind

@[simp] theorem get_set_self (t : Table α) (i : Nat) (a : α) : (t.set i a).get i = a := by
  simp [get_set]

@[simp] theorem set_set (t : Table α) (i : Nat) (a b : α) : (t.set i a).set i b = t.set i b := by
  by_cases h : i < t.cells.size
  · simp [set, h, Array.setIfInBounds]
  · have hsize : (t.cells ++ Array.replicate (i - t.cells.size) default).size = i := by
      rw [Array.size_append, Array.size_replicate]
      omega
    have hlt : i < ((t.cells ++ Array.replicate (i - t.cells.size) default).push a).size := by
      rw [Array.size_push, hsize]
      omega
    simp only [set, h, if_false, hlt, if_true, mk.injEq, Array.setIfInBounds, dif_pos]
    rw [Array.set_push]
    simp only [hsize, Nat.lt_irrefl, dite_false]

theorem get_modify (t : Table α) (i j : Nat) (f : α → α) :
    (t.modify i f).get j = if i = j then f (t.get i) else t.get j := by
  unfold modify
  split <;> rename_i h
  · simp only [get, Array.getD_eq_getD_getElem?, Array.getElem?_modify]
    grind
  · rw [get_set]
    simp [get, Array.getD_eq_getD_getElem?, Array.getElem?_eq_none (Nat.le_of_not_lt h)]

@[simp] theorem get_modify_self (t : Table α) (i : Nat) (f : α → α) :
    (t.modify i f).get i = f (t.get i) := by
  simp [get_modify]

end Table

end BenchLoop
