import Mathlib.Algebra.GroupWithZero.Nat
import TapeMachine.Proofs.Machine.Rejection
import TapeMachine.Proofs.Tape.Cells
import TapeMachine.Session

/-!
# What a tape keeps through its history

A tape starts blank, and then its own operations and whole programs act on it in turn.  Whatever they
are, it keeps the number and the width of its cells, its pointer stays on it, and every cell holds a
value of the width.  This holds not only between the actions but also at every point of a run.

All that a run does to a tape are its operations, so one step keeps what they keep; a run is a sequence
of steps, and a history is a sequence of actions.

## Main definitions

* `Tape.Fits` — a tape of a shape, with the pointer on it and values of its width in the cells.
* `Tape.History` — the actions that a tape has seen since it was blank.

## Main results

* `Tape.Fits.next`, `Tape.Fits.reaches` — a step and a run keep this.
* `Tape.Fits.perform` — an action keeps this.
* `Tape.History.keeps` — what a tape keeps through its history.
-/

namespace TapeMachine

theorem CellWidth.maxValue_eq (width : CellWidth) : width.maxValue = 2 ^ width.bits - 1 := by
  cases width <;> rfl

namespace Tape

/-- What a tape of a shape keeps, whatever is done to it. -/
structure Fits (shape : Shape) (tape : Tape) : Prop where
  /-- The number of cells is that of the shape. -/
  size_eq : tape.size = shape.size
  /-- The width of the cells is that of the shape. -/
  width_eq : tape.width = shape.width
  /-- The pointer is the index of a cell. -/
  pointer_lt : tape.pointer < shape.size
  /-- No cell holds more than the greatest value of the width. -/
  le_maxValue : ∀ value ∈ tape.cells, value ≤ shape.width.maxValue

/-- The actions that a tape of a shape has seen since it was blank, and the tape that they have left. -/
inductive History (shape : Shape) : List Action → Tape → Prop
  /-- At first the tape is blank. -/
  | blank : History shape [] (blank shape)
  /-- Any action may follow that comes to its end. -/
  | act {actions : List Action} {action : Action} {tape tape' : Tape} {reply : Reply} {fuel : Nat}
      (hhistory : History shape actions tape)
      (hperform : tape.perform fuel action = some (tape', reply)) :
      History shape (actions ++ [action]) tape'

variable {shape : Shape} {tape tape' : Tape}

theorem fits_iff : tape.Fits shape ↔
    tape.size = shape.size ∧ tape.width = shape.width ∧ tape.WellFormed := by
  have hvalue : ∀ value, value ≤ shape.width.maxValue ↔ value < shape.width.modulus := by
    intro value
    rw [← shape.width.maxValue_add_one]
    exact Nat.lt_succ_iff.symm
  constructor
  · rintro ⟨hsize, hwidth, hpointer, hcells⟩
    refine ⟨hsize, hwidth, by rwa [hsize], fun value hmem => ?_⟩
    rw [hwidth]
    exact (hvalue value).mp (hcells value hmem)
  · rintro ⟨hsize, hwidth, hpointer, hcells⟩
    refine ⟨hsize, hwidth, by rwa [← hsize], fun value hmem => ?_⟩
    rw [hvalue, ← hwidth]
    exact hcells value hmem

theorem fits_blank (shape : Shape) : (blank shape).Fits shape :=
  fits_iff.mpr ⟨size_blank shape, rfl, wellFormed_blank shape⟩

/-! ### The operations of a tape -/

/-- What is written goes to the current cell only. -/
theorem getElem?_cells_write {k : Nat} (hk : k ≠ tape.pointer) (value : Nat) :
    (tape.write value).cells[k]? = tape.cells[k]? :=
  Array.getElem?_setIfInBounds_ne hk.symm

namespace Fits

theorem write (h : tape.Fits shape) (value : Nat) : (tape.write value).Fits shape := by
  obtain ⟨hsize, hwidth, hwellFormed⟩ := fits_iff.mp h
  exact fits_iff.mpr ⟨(size_write tape value).trans hsize, hwidth, hwellFormed.write value⟩

theorem increment (h : tape.Fits shape) : tape.increment.Fits shape :=
  h.write _

theorem decrement (h : tape.Fits shape) : tape.decrement.Fits shape :=
  h.write _

theorem moveRight (h : tape.Fits shape) : tape.moveRight.Fits shape := by
  obtain ⟨hsize, hwidth, hwellFormed⟩ := fits_iff.mp h
  exact fits_iff.mpr ⟨hsize, hwidth, hwellFormed.moveRight⟩

theorem moveLeft (h : tape.Fits shape) : tape.moveLeft.Fits shape := by
  obtain ⟨hsize, hwidth, hwellFormed⟩ := fits_iff.mp h
  exact fits_iff.mpr ⟨hsize, hwidth, hwellFormed.moveLeft⟩

theorem repeated {f : Tape → Tape} (hf : ∀ {tape : Tape}, tape.Fits shape → (f tape).Fits shape) :
    ∀ (times : Nat) {tape : Tape}, tape.Fits shape → (repeated f times tape).Fits shape := by
  intro times
  induction times with
  | zero =>
    intro tape h
    exact h
  | succ times ih =>
    intro tape h
    exact ih (hf h)

/-- The current cell is there to be read. -/
theorem getElem?_pointer (h : tape.Fits shape) : tape.cells[tape.pointer]? = some tape.read :=
  getElem?_cells (fits_iff.mp h).2.2.pointer_lt

/-! ### Programs -/

/-- **A step keeps the shape of the tape.** -/
theorem next {code : Code} {m m' : Machine} (h : m.tape.Fits shape) (hnext : code.Next m m') :
    m'.tape.Fits shape := by
  rcases hnext.tape_cases with htape | ⟨value, htape⟩ | htape | htape
  · rwa [htape]
  · rw [htape]
    exact h.write value
  · rw [htape]
    exact h.moveRight
  · rw [htape]
    exact h.moveLeft

/-- **A run keeps the shape of the tape.** -/
theorem reaches {code : Code} {m m' : Machine} (h : m.tape.Fits shape) (hreach : code.Reaches m m') :
    m'.tape.Fits shape := by
  induction hreach with
  | refl => exact h
  | tail _ hnext ih => exact ih.next hnext

/-- A program that comes to its end, or that is refused, leaves a tape of the same shape. -/
theorem after {source : Source} {fuel : Nat} {input : List UInt8} {result : Except RunError Execution}
    (h : tape.Fits shape) (hexecute : source.execute fuel tape input = some result) :
    (tape.after result).Fits shape := by
  cases result with
  | error error => exact h
  | ok execution =>
    obtain ⟨code, m, -, hfinishes, rfl⟩ := Source.exists_finishes_of_execute hexecute
    exact reaches (m := .start tape input) h hfinishes.1

/-! ### Histories -/

/-- **An action keeps the shape of the tape.** -/
theorem perform {fuel : Nat} {action : Action} {reply : Reply} (h : tape.Fits shape)
    (hperform : tape.perform fuel action = some (tape', reply)) : tape'.Fits shape := by
  cases action with
  | increment times =>
    cases hperform
    exact h.repeated increment times
  | decrement times =>
    cases hperform
    exact h.repeated decrement times
  | right times =>
    cases hperform
    exact h.repeated moveRight times
  | left times =>
    cases hperform
    exact h.repeated moveLeft times
  | write value =>
    cases hperform
    exact h.write value
  | run source input =>
    obtain ⟨result, hexecute, heq⟩ := Option.map_eq_some_iff.mp hperform
    cases heq
    exact h.after hexecute
  | list =>
    cases hperform
    exact h

end Fits

theorem History.fits {actions : List Action} (h : History shape actions tape) : tape.Fits shape := by
  induction h with
  | blank => exact fits_blank shape
  | act _ hperform ih => exact ih.perform hperform

/-- **What a tape keeps through its history.**  A blank tape of any shape, after any actions on it,
has the number and the width of cells of the shape, which is at least one cell; its pointer is the
index of a cell, so the current cell can be read; and no cell holds more than the greatest number of
that many bits.  The same is true at every point of every run that starts from the tape.  What is done
to the current cell changes no other cell and does not move the pointer. -/
theorem History.keeps {actions : List Action} (h : History shape actions tape) :
    tape.Fits shape ∧ 1 ≤ tape.size ∧ tape.cells[tape.pointer]? = some tape.read ∧
    shape.width.maxValue = 2 ^ shape.width.bits - 1 ∧
    (∀ (source : Source) (code : Code) (input : List UInt8) (m : Machine),
      source.compile = .ok code → code.Reaches (.start tape input) m →
        m.tape.Fits shape ∧ m.tape.cells[m.tape.pointer]? = some m.tape.read) ∧
    ∀ tape', (∃ value, tape' = tape.write value) ∨ tape' = tape.increment ∨ tape' = tape.decrement →
      tape'.pointer = tape.pointer ∧
        ∀ k, k ≠ tape.pointer → tape'.cells[k]? = tape.cells[k]? := by
  have hfits := h.fits
  refine ⟨hfits, ?_, hfits.getElem?_pointer, shape.width.maxValue_eq, ?_, ?_⟩
  · rw [hfits.size_eq]
    exact shape.size_pos
  · intro source code input m _ hreach
    have hfits' : m.tape.Fits shape := Fits.reaches hfits hreach
    exact ⟨hfits', hfits'.getElem?_pointer⟩
  · rintro tape' (⟨value, rfl⟩ | rfl | rfl)
    · exact ⟨rfl, fun k hk => getElem?_cells_write hk value⟩
    · exact ⟨rfl, fun k hk => getElem?_cells_write hk _⟩
    · exact ⟨rfl, fun k hk => getElem?_cells_write hk _⟩

/-- A 16-bit tape of one cell: a value of more bits is written, the cell counts down, and a program reads
a character above U+FFFF in a loop that moves the pointer round. -/
theorem History.keeps_of_one_cell :
    History { width := .bits16, size := 1 }
      [.write 0x10001, .decrement 2, .run (Source.ofLines ["[>,]"]) [0xf0, 0x9f, 0x98, 0x80, 0]]
      ⟨.bits16, #[0], 0⟩ ∧
    (⟨.bits16, #[0], 0⟩ : Tape).Fits { width := .bits16, size := 1 } := by
  have hwrite : (Tape.blank { width := .bits16, size := 1 }).perform 0 (.write 0x10001) =
      some (⟨.bits16, #[1], 0⟩, .silent) := rfl
  have hdecrement : (⟨.bits16, #[1], 0⟩ : Tape).perform 0 (.decrement 2) =
      some (⟨.bits16, #[0xffff], 0⟩, .silent) := rfl
  have hrun : (⟨.bits16, #[0xffff], 0⟩ : Tape).perform 8
      (.run (Source.ofLines ["[>,]"]) [0xf0, 0x9f, 0x98, 0x80, 0]) =
      some (⟨.bits16, #[0], 0⟩, .ran (.ok ⟨[], ⟨.bits16, #[0], 0⟩, 7, 5⟩)) := rfl
  have hhistory := ((History.blank.act hwrite).act hdecrement).act hrun
  exact ⟨hhistory, hhistory.keeps.1⟩

end Tape

end TapeMachine
