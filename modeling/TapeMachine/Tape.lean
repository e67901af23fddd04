import TapeMachine.Cell

/-!
# The tape

The memory of the machine is a circle of cells with a pointer to one of them.  Cells wrap: adding one
to the greatest value gives zero, and taking one from zero gives the greatest value.  The pointer
wraps as well: right of the last cell is the first one.

## Main definitions

* `Shape` — the width of the cells and their number, which is never zero.
* `Tape` — the cells and the pointer.
* `Tape.blank`, `Tape.allocate` — a tape of zeros, and the same unless there is no memory for it.
* `Tape.read`, `Tape.write`, `Tape.increment`, `Tape.decrement`, `Tape.moveRight`, `Tape.moveLeft` —
  what can be done to a tape.
* `Tape.WellFormed` — the pointer is on the tape and every cell holds a value of its width.

## Main results

* `Tape.wellFormed_blank` — a blank tape is well formed.
* `Tape.WellFormed.write`, `Tape.WellFormed.moveRight`, `Tape.WellFormed.moveLeft` — and stays so,
  whatever is done to it.
-/

namespace TapeMachine

/-- The shape of a tape. -/
structure Shape where
  /-- The width of every cell. -/
  width : CellWidth := .bits8
  /-- The number of cells. -/
  size : Nat := 30000
  /-- There is at least one cell. -/
  size_pos : 0 < size := by decide
  deriving DecidableEq, Repr

instance : Inhabited Shape := ⟨{}⟩

/-- The memory of the machine. -/
structure Tape where
  /-- The width of every cell. -/
  width : CellWidth
  /-- The values of the cells. -/
  cells : Array Nat
  /-- The index of the current cell. -/
  pointer : Nat
  deriving DecidableEq, Repr, Inhabited

/-- Why a tape cannot be had. -/
inductive AllocationError
  /-- The number of its bytes is no size that memory can be asked for. -/
  | capacityOverflow (cells : Nat)
  /-- There is not that much memory. -/
  | refused (cells : Nat)
  deriving DecidableEq, Repr

namespace AllocationError

/-- The number of cells asked for. -/
def cells : AllocationError → Nat
  | capacityOverflow cells => cells
  | refused cells => cells

/-- The cause in words. -/
def reason : AllocationError → String
  | capacityOverflow _ => "the computed capacity exceeded the collection's maximum"
  | refused _ => "the memory allocator returned an error"

/-- The error in words. -/
def message (error : AllocationError) : String :=
  "cannot allocate a tape of " ++ Decimal.text error.cells ++
    " cells: memory allocation failed because " ++ error.reason

end AllocationError

namespace Tape

/-- The number of cells. -/
def size (tape : Tape) : Nat :=
  tape.cells.size

/-- A tape of zeros with the pointer on the first cell. -/
def blank (shape : Shape) : Tape :=
  ⟨shape.width, Array.replicate shape.size 0, 0⟩

/-- The bytes of memory that a cell of any width takes. -/
def bytesPerCell : Nat := 4

/-- The greatest number of bytes that memory can be asked for: the greatest signed 64-bit number. -/
def greatestRequest : Nat := 0x7fffffffffffffff

/-- A tape of zeros, unless there is no memory for it; `grants` says whether a number of bytes that can be
asked for is granted. -/
def allocate (grants : Nat → Bool) (shape : Shape) : Except AllocationError Tape :=
  let bytes := bytesPerCell * shape.size
  if greatestRequest < bytes then .error (.capacityOverflow shape.size)
  else if grants bytes then .ok (blank shape)
  else .error (.refused shape.size)

/-- The value of the current cell. -/
def read (tape : Tape) : Nat :=
  tape.cells.getD tape.pointer 0

/-- Stores a value in the current cell, reduced to its width. -/
def write (tape : Tape) (value : Nat) : Tape :=
  { tape with cells := tape.cells.setIfInBounds tape.pointer (value % tape.width.modulus) }

/-- Adds one to the current cell. -/
def increment (tape : Tape) : Tape :=
  tape.write (tape.read + 1)

/-- Takes one from the current cell. -/
def decrement (tape : Tape) : Tape :=
  tape.write (tape.read + tape.width.maxValue)

/-- Moves the pointer to the next cell. -/
def moveRight (tape : Tape) : Tape :=
  { tape with pointer := (tape.pointer + 1) % tape.size }

/-- Moves the pointer to the cell before. -/
def moveLeft (tape : Tape) : Tape :=
  { tape with pointer := (tape.pointer + (tape.size - 1)) % tape.size }

/-- Moves the pointer to the cell of an index, which counts round the circle. -/
def seek (tape : Tape) (index : Nat) : Tape :=
  { tape with pointer := index % tape.size }

/-- What every tape is that started blank: the pointer is on the tape, and every cell holds a value of
its width. -/
structure WellFormed (tape : Tape) : Prop where
  /-- The pointer is the index of a cell. -/
  pointer_lt : tape.pointer < tape.size
  /-- Every cell holds a value of its width. -/
  lt_modulus : ∀ value ∈ tape.cells, value < tape.width.modulus

theorem wellFormed_blank (shape : Shape) : (blank shape).WellFormed where
  pointer_lt := by simpa [blank, size] using shape.size_pos
  lt_modulus := by
    intro value h
    obtain ⟨-, rfl⟩ : shape.size ≠ 0 ∧ value = 0 := by simpa [blank] using h
    exact shape.width.modulus_pos

@[simp] theorem size_write (tape : Tape) (value : Nat) : (tape.write value).size = tape.size := by
  simp [write, size]

@[simp] theorem width_write (tape : Tape) (value : Nat) : (tape.write value).width = tape.width :=
  rfl

@[simp] theorem pointer_write (tape : Tape) (value : Nat) :
    (tape.write value).pointer = tape.pointer := rfl

@[simp] theorem size_moveRight (tape : Tape) : tape.moveRight.size = tape.size := rfl

@[simp] theorem size_moveLeft (tape : Tape) : tape.moveLeft.size = tape.size := rfl

@[simp] theorem size_blank (shape : Shape) : (blank shape).size = shape.size := by
  simp [blank, size]

namespace WellFormed

theorem size_pos {tape : Tape} (h : tape.WellFormed) : 0 < tape.size :=
  Nat.zero_lt_of_lt h.pointer_lt

/-- What is written is read again, reduced to the width. -/
theorem read_write {tape : Tape} (h : tape.WellFormed) (value : Nat) :
    (tape.write value).read = value % tape.width.modulus := by
  have hlt : tape.pointer < tape.cells.size := h.pointer_lt
  simp [Tape.write, read, hlt]

theorem write {tape : Tape} (h : tape.WellFormed) (value : Nat) : (tape.write value).WellFormed where
  pointer_lt := by simpa using h.pointer_lt
  lt_modulus := by
    intro other hother
    rcases Array.mem_or_eq_of_mem_setIfInBounds hother with hmem | rfl
    · exact h.lt_modulus other hmem
    · exact Nat.mod_lt _ tape.width.modulus_pos

theorem increment {tape : Tape} (h : tape.WellFormed) : tape.increment.WellFormed :=
  h.write _

theorem decrement {tape : Tape} (h : tape.WellFormed) : tape.decrement.WellFormed :=
  h.write _

theorem moveRight {tape : Tape} (h : tape.WellFormed) : tape.moveRight.WellFormed where
  pointer_lt := Nat.mod_lt _ h.size_pos
  lt_modulus := h.lt_modulus

theorem moveLeft {tape : Tape} (h : tape.WellFormed) : tape.moveLeft.WellFormed where
  pointer_lt := Nat.mod_lt _ h.size_pos
  lt_modulus := h.lt_modulus

end WellFormed

end Tape

end TapeMachine
