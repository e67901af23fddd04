import Mathlib.Data.Int.ModEq
import TapeMachine.Tape

/-!
# The cells of a tape, one by one

The operations of a tape are described by what they do to the cell of an index and to the pointer.
The machine computes on natural numbers: it takes one away from a cell by adding the greatest value,
and moves to the left by going all the way round but for one cell.  Seen as integers, a cell counts
up and down by one and the pointer goes to and fro by one, each modulo its own number.

## Main definitions

* `Tape.valueAt` — the value of the cell at an index.

## Main results

* `Tape.ext_valueAt` — a tape is given by its shape, its pointer and the values of its cells.
* `Tape.WellFormed.valueAt_write` — what is written goes to the current cell only.
* `Tape.WellFormed.valueAt_increment`, `Tape.WellFormed.valueAt_decrement`, `Tape.pointer_moveRight`,
  `Tape.pointer_moveLeft` — the four operations on integers.
-/

namespace TapeMachine

theorem CellWidth.modulus_eq (width : CellWidth) : width.modulus = 2 ^ width.bits := by
  cases width <;> rfl

namespace Tape

variable {tape tape' : Tape}

/-- The value of the cell at an index. -/
def valueAt (tape : Tape) (k : Nat) : Nat :=
  tape.cells.getD k 0

@[simp] theorem valueAt_pointer (tape : Tape) : tape.valueAt tape.pointer = tape.read := rfl

@[simp] theorem valueAt_moveRight (tape : Tape) (k : Nat) : tape.moveRight.valueAt k = tape.valueAt k :=
  rfl

@[simp] theorem valueAt_moveLeft (tape : Tape) (k : Nat) : tape.moveLeft.valueAt k = tape.valueAt k :=
  rfl

theorem getElem?_cells {k : Nat} (hk : k < tape.size) : tape.cells[k]? = some (tape.valueAt k) := by
  have hlt : k < tape.cells.size := hk
  rw [valueAt, Array.getD_eq_getD_getElem?, Array.getElem?_eq_getElem hlt, Option.getD_some]

theorem getElem?_cells_of_le {k : Nat} (hk : tape.size ≤ k) : tape.cells[k]? = none :=
  Array.getElem?_eq_none hk

/-- A tape is given by its shape, its pointer and the values of its cells. -/
theorem ext_valueAt (hwidth : tape.width = tape'.width) (hsize : tape.size = tape'.size)
    (hpointer : tape.pointer = tape'.pointer)
    (hvalue : ∀ k < tape.size, tape.valueAt k = tape'.valueAt k) : tape = tape' := by
  have hcells : tape.cells = tape'.cells := by
    apply Array.ext_getElem?
    intro k
    by_cases hk : k < tape.size
    · rw [getElem?_cells hk, getElem?_cells (hsize ▸ hk), hvalue k hk]
    · rw [getElem?_cells_of_le (Nat.le_of_not_lt hk),
        getElem?_cells_of_le (hsize ▸ Nat.le_of_not_lt hk)]
  cases tape
  cases tape'
  simp_all only

/-! ### The pointer -/

theorem pointer_moveRight (tape : Tape) :
    (tape.moveRight.pointer : ℤ) = ((tape.pointer : ℤ) + 1) % tape.size := by
  rw [moveRight]
  push_cast
  rfl

theorem pointer_moveLeft (hsize : 0 < tape.size) :
    (tape.moveLeft.pointer : ℤ) = ((tape.pointer : ℤ) - 1) % tape.size := by
  -- the machine goes all the way round to the right, but for one cell
  have hround : (tape.pointer : ℤ) + ((tape.size - 1 : Nat) : ℤ) =
      (tape.pointer : ℤ) - 1 + tape.size := by omega
  rw [moveLeft]
  push_cast
  rw [hround, Int.add_emod_right]

namespace WellFormed

/-- The pointer is on the tape already. -/
theorem pointer_emod (h : tape.WellFormed) : (tape.pointer : ℤ) % tape.size = tape.pointer :=
  Int.emod_eq_of_lt (Int.natCast_nonneg _) (Int.ofNat_lt.mpr h.pointer_lt)

/-! ### The values -/

theorem valueAt_lt (h : tape.WellFormed) (k : Nat) : tape.valueAt k < tape.width.modulus := by
  by_cases hk : k < tape.size
  · exact h.lt_modulus _ (Array.mem_of_getElem? (getElem?_cells hk))
  · rw [valueAt, Array.getD_eq_getD_getElem?, getElem?_cells_of_le (Nat.le_of_not_lt hk),
      Option.getD_none]
    exact tape.width.modulus_pos

/-- A value is reduced to its width already. -/
theorem valueAt_emod (h : tape.WellFormed) (k : Nat) :
    (tape.valueAt k : ℤ) % tape.width.modulus = tape.valueAt k :=
  Int.emod_eq_of_lt (Int.natCast_nonneg _) (Int.ofNat_lt.mpr (h.valueAt_lt k))

theorem read_lt (h : tape.WellFormed) : tape.read < tape.width.modulus :=
  h.valueAt_lt tape.pointer

/-- **What is written goes to the current cell only.** -/
theorem valueAt_write (h : tape.WellFormed) (value k : Nat) :
    (tape.write value).valueAt k =
      if tape.pointer = k then value % tape.width.modulus else tape.valueAt k := by
  have hlt : tape.pointer < tape.cells.size := h.pointer_lt
  rw [valueAt, valueAt, Array.getD_eq_getD_getElem?, Array.getD_eq_getD_getElem?, Tape.write,
    Array.getElem?_setIfInBounds, if_pos hlt]
  split <;> rfl

/-- Counting up by one, modulo the number of values. -/
theorem valueAt_increment (h : tape.WellFormed) (k : Nat) :
    (tape.increment.valueAt k : ℤ) =
      ((tape.valueAt k : ℤ) + if tape.pointer = k then 1 else 0) % tape.width.modulus := by
  rw [Tape.increment, h.valueAt_write]
  split
  · next hk =>
    subst hk
    push_cast
    rfl
  · rw [Int.add_zero, h.valueAt_emod]

/-- Counting down by one, modulo the number of values. -/
theorem valueAt_decrement (h : tape.WellFormed) (k : Nat) :
    (tape.decrement.valueAt k : ℤ) =
      ((tape.valueAt k : ℤ) + if tape.pointer = k then -1 else 0) % tape.width.modulus := by
  have hmax := tape.width.maxValue_add_one
  rw [Tape.decrement, h.valueAt_write]
  split
  · next hk =>
    subst hk
    -- the machine adds the greatest value, which is one less than the number of values
    have hround : (tape.read : ℤ) + (tape.width.maxValue : ℤ) =
        (tape.read : ℤ) + -1 + tape.width.modulus := by omega
    push_cast
    rw [hround, Int.add_emod_right, valueAt_pointer]
  · rw [Int.add_zero, h.valueAt_emod]

end WellFormed

end Tape

end TapeMachine
