import Mathlib.Data.List.Induction
import TapeMachine.Proofs.Structured.Simulation
import TapeMachine.Proofs.Tape.Cells

/-!
# Straight-line programs

A program of `+`, `-`, `>` and `<` alone neither loops nor reads nor writes, so it comes to its end
whatever tape it starts from.  What it does to the tape is arithmetic: where the pointer stands before
each instruction is a matter of counting the moves in front of it, and a cell changes by the number of
increments less the number of decrements that are executed there.

The instructions are taken from the front, and one more at the end acts on a tape for which all of this
is known already.

## Main definitions

* `Symbol.isStraight` — the instructions `+`, `-`, `>` and `<`.
* `Tape.applyAll` — what a list of them does to a tape.
* `Tape.pointerBefore`, `Tape.timesAt`, `Tape.netAt` — where each of them is executed, how often one is
  executed at a cell, and what they add to a cell.

## Main results

* `Tape.WellFormed.pointer_applyAll`, `Tape.WellFormed.valueAt_applyAll` — the tape behind straight-line
  instructions.
* `Block.exists_runs_of_isStraight` — straight-line instructions are a block that runs to its end.
* `Source.exists_yields_of_isStraight` — straight-line programs compute exact modular arithmetic.
-/

namespace TapeMachine

namespace Symbol

/-- Whether an instruction changes the tape and does nothing else. -/
def isStraight : Symbol → Bool
  | increment => true
  | decrement => true
  | right => true
  | left => true
  | _ => false

/-- How many cells an instruction moves the pointer to the right. -/
def shift : Symbol → ℤ
  | right => 1
  | left => -1
  | _ => 0

/-- What an instruction adds to the current cell. -/
def change : Symbol → ℤ
  | increment => 1
  | decrement => -1
  | _ => 0

end Symbol

namespace Tape

variable {tape tape' : Tape}

/-- What an instruction does to the tape that does nothing else. -/
def apply (tape : Tape) : Symbol → Tape
  | .increment => tape.increment
  | .decrement => tape.decrement
  | .right => tape.moveRight
  | .left => tape.moveLeft
  | _ => tape

/-- What a list of such instructions does to the tape. -/
def applyAll (tape : Tape) (w : List Symbol) : Tape :=
  w.foldl apply tape

/-- Where the pointer stands when the first `j` of the instructions `w` are executed: the moves to the
right less those to the left, round the tape. -/
def pointerBefore (tape : Tape) (w : List Symbol) (j : Nat) : ℤ :=
  ((tape.pointer : ℤ) + (w.take j).count .right - (w.take j).count .left) % tape.size

/-- How often the instructions `w` execute `symbol` while the pointer is at the cell `k`. -/
def timesAt (tape : Tape) (w : List Symbol) (symbol : Symbol) (k : Nat) : Nat :=
  (List.range w.length).countP fun j => w[j]? = some symbol ∧ tape.pointerBefore w j = k

/-- What the instructions `w` add to the cell `k`. -/
def netAt (tape : Tape) (w : List Symbol) (k : Nat) : ℤ :=
  (tape.timesAt w .increment k : ℤ) - tape.timesAt w .decrement k

/-! ### One more instruction -/

theorem pointerBefore_append (tape : Tape) (w w' : List Symbol) {j : Nat} (hj : j ≤ w.length) :
    tape.pointerBefore (w ++ w') j = tape.pointerBefore w j := by
  rw [pointerBefore, List.take_append_of_le_length hj, pointerBefore]

theorem timesAt_concat (tape : Tape) (w : List Symbol) (last symbol : Symbol) (k : Nat) :
    tape.timesAt (w ++ [last]) symbol k =
      tape.timesAt w symbol k +
        if last = symbol ∧ tape.pointerBefore w w.length = k then 1 else 0 := by
  have hfront : ∀ j ∈ List.range w.length,
      ((w ++ [last])[j]? = some symbol ∧ tape.pointerBefore (w ++ [last]) j = k) ↔
        (w[j]? = some symbol ∧ tape.pointerBefore w j = k) := by
    intro j hj
    have hj := List.mem_range.mp hj
    rw [List.getElem?_append_left hj, pointerBefore_append tape w [last] (Nat.le_of_lt hj)]
  rw [timesAt, List.length_append, List.length_singleton, List.range_succ, List.countP_append,
    List.countP_congr (q := fun j => w[j]? = some symbol ∧ tape.pointerBefore w j = k)
      (by simpa using hfront), timesAt, List.countP_singleton,
    pointerBefore_append tape w [last] (Nat.le_refl _)]
  simp

theorem netAt_concat (tape : Tape) (w : List Symbol) (last : Symbol) (k : Nat) :
    tape.netAt (w ++ [last]) k =
      tape.netAt w k + if tape.pointerBefore w w.length = k then last.change else 0 := by
  rw [netAt, timesAt_concat, timesAt_concat, netAt]
  by_cases hk : tape.pointerBefore w w.length = k
  · cases last <;> simp [hk, Symbol.change] <;> omega
  · simp [hk]

theorem pointerBefore_concat (tape : Tape) (w : List Symbol) (last : Symbol) :
    tape.pointerBefore (w ++ [last]) (w.length + 1) =
      (tape.pointerBefore w w.length + last.shift) % tape.size := by
  have hcount : ((w ++ [last]).count .right : ℤ) - (w ++ [last]).count .left =
      w.count .right - w.count .left + last.shift := by
    rw [List.count_append, List.count_append]
    cases last <;> simp [Symbol.shift] <;> omega
  have hlength : (w ++ [last]).length = w.length + 1 := List.length_append
  rw [pointerBefore, pointerBefore, ← hlength, List.take_length, List.take_length,
    Int.emod_add_emod]
  congr 1
  omega

/-! ### The tape behind straight-line instructions -/

theorem applyAll_concat (tape : Tape) (w : List Symbol) (last : Symbol) :
    tape.applyAll (w ++ [last]) = (tape.applyAll w).apply last := by
  rw [applyAll, applyAll, List.foldl_append, List.foldl_cons, List.foldl_nil]

theorem width_apply (tape : Tape) (symbol : Symbol) : (tape.apply symbol).width = tape.width := by
  cases symbol <;> rfl

theorem size_apply (tape : Tape) (symbol : Symbol) : (tape.apply symbol).size = tape.size := by
  cases symbol <;> simp [apply, increment, decrement]

@[simp] theorem width_applyAll (tape : Tape) (w : List Symbol) :
    (tape.applyAll w).width = tape.width := by
  induction w using List.reverseRecOn with
  | nil => rfl
  | append_singleton w last ih => rw [applyAll_concat, width_apply, ih]

@[simp] theorem size_applyAll (tape : Tape) (w : List Symbol) :
    (tape.applyAll w).size = tape.size := by
  induction w using List.reverseRecOn with
  | nil => rfl
  | append_singleton w last ih => rw [applyAll_concat, size_apply, ih]

namespace WellFormed

theorem apply (h : tape.WellFormed) (symbol : Symbol) : (tape.apply symbol).WellFormed := by
  cases symbol with
  | increment => exact h.increment
  | decrement => exact h.decrement
  | right => exact h.moveRight
  | left => exact h.moveLeft
  | _ => exact h

theorem applyAll (h : tape.WellFormed) (w : List Symbol) : (tape.applyAll w).WellFormed := by
  induction w using List.reverseRecOn with
  | nil => exact h
  | append_singleton w last ih =>
    rw [applyAll_concat]
    exact ih.apply last

/-- One instruction moves the pointer by its shift. -/
theorem pointer_apply (h : tape.WellFormed) (symbol : Symbol) :
    ((tape.apply symbol).pointer : ℤ) = ((tape.pointer : ℤ) + symbol.shift) % tape.size := by
  have hstays : (tape.pointer : ℤ) = ((tape.pointer : ℤ) + 0) % tape.size := by
    rw [Int.add_zero, h.pointer_emod]
  cases symbol with
  | right => exact tape.pointer_moveRight
  | left => exact pointer_moveLeft h.size_pos
  | _ => exact hstays

/-- One instruction adds its change to the current cell. -/
theorem valueAt_apply (h : tape.WellFormed) (symbol : Symbol) (k : Nat) :
    ((tape.apply symbol).valueAt k : ℤ) =
      ((tape.valueAt k : ℤ) + if tape.pointer = k then symbol.change else 0) %
        tape.width.modulus := by
  have hstays : (tape.valueAt k : ℤ) =
      ((tape.valueAt k : ℤ) + if tape.pointer = k then 0 else 0) % tape.width.modulus := by
    rw [ite_self, Int.add_zero, h.valueAt_emod]
  cases symbol with
  | increment => exact h.valueAt_increment k
  | decrement => exact h.valueAt_decrement k
  | _ => exact hstays

/-- **The pointer behind straight-line instructions.** -/
theorem pointer_applyAll (h : tape.WellFormed) (w : List Symbol) :
    ((tape.applyAll w).pointer : ℤ) = tape.pointerBefore w w.length := by
  induction w using List.reverseRecOn with
  | nil =>
    have hstart : tape.pointerBefore [] 0 = (tape.pointer : ℤ) % tape.size := by
      simp [pointerBefore]
    rw [List.length_nil, hstart, h.pointer_emod]
    rfl
  | append_singleton w last ih =>
    rw [applyAll_concat, (h.applyAll w).pointer_apply, ih, size_applyAll, List.length_append,
      List.length_singleton, pointerBefore_concat]

/-- **The cells behind straight-line instructions.** -/
theorem valueAt_applyAll (h : tape.WellFormed) (w : List Symbol) (k : Nat) :
    ((tape.applyAll w).valueAt k : ℤ) =
      ((tape.valueAt k : ℤ) + tape.netAt w k) % tape.width.modulus := by
  induction w using List.reverseRecOn with
  | nil =>
    have hstart : tape.netAt [] k = 0 := rfl
    rw [hstart, Int.add_zero, h.valueAt_emod]
    rfl
  | append_singleton w last ih =>
    -- the last instruction acts where the others have left the pointer
    have hpointer : (tape.applyAll w).pointer = k ↔ tape.pointerBefore w w.length = k := by
      rw [← h.pointer_applyAll, Int.natCast_inj]
    rw [applyAll_concat, (h.applyAll w).valueAt_apply, ih, width_applyAll, Int.emod_add_emod,
      netAt_concat, Int.add_assoc]
    simp only [hpointer]

end WellFormed

end Tape

/-! ### Straight-line instructions as a block -/

theorem Store.perform_of_isStraight (s : Store) {op : Operation} (h : op.symbol.isStraight) :
    s.perform op = s.withTape (s.tape.apply op.symbol) := by
  cases op with
  | input => cases h
  | output => cases h
  | _ => rfl

/-- A straight-line instruction is an operation. -/
theorem Symbol.exists_operation_of_isStraight {symbol : Symbol} (h : symbol.isStraight) :
    ∃ op : Operation, op.symbol = symbol := by
  cases symbol with
  | increment => exact ⟨.increment, rfl⟩
  | decrement => exact ⟨.decrement, rfl⟩
  | right => exact ⟨.right, rfl⟩
  | left => exact ⟨.left, rfl⟩
  | _ => cases h

/-- **Straight-line instructions are a block that runs to its end**, changes the tape and nothing else,
and spends one for each of them. -/
theorem Block.exists_runs_of_isStraight {w : List Symbol} (h : ∀ symbol ∈ w, symbol.isStraight) :
    ∃ block : Block, block.symbols = w ∧
      ∀ s : Store, block.Runs s (s.withTape (s.tape.applyAll w)) w.length := by
  induction w with
  | nil => exact ⟨.done, rfl, fun _ => ⟨rfl, rfl⟩⟩
  | cons symbol w ih =>
    obtain ⟨hsymbol, hw⟩ := List.forall_mem_cons.mp h
    obtain ⟨op, rfl⟩ := Symbol.exists_operation_of_isStraight hsymbol
    obtain ⟨block, rfl, hruns⟩ := ih hw
    refine ⟨.act op block, rfl, fun s => ?_⟩
    rw [Block.runs_act, s.perform_of_isStraight hsymbol]
    exact ⟨_, hruns _, Nat.add_comm _ 1⟩

namespace Source

/-- **Straight-line programs compute exact modular arithmetic.**  A program whose instructions are `+`,
`-`, `>` and `<` comes to its end from every tape, in one way.  It executes each of its instructions
once, writes nothing and reads nothing.  The pointer ends where it was, moved by the number of `>` less
the number of `<`, round the tape.  Every cell ends with its value, plus the number of `+` and minus the
number of `-` that are executed while the pointer is there, modulo the number of its values. -/
theorem exists_yields_of_isStraight {source : Source}
    (hstraight : ∀ symbol ∈ source.symbols, symbol.isStraight) {tape : Tape} (htape : tape.WellFormed)
    (input : List UInt8) :
    ∃ result, (∀ other, source.Yields tape input other ↔ other = result) ∧
      result.instructions = source.symbols.length ∧ result.output = [] ∧ result.inputConsumed = 0 ∧
      result.tape.width = tape.width ∧ result.tape.size = tape.size ∧
      (result.tape.pointer : ℤ) =
        ((tape.pointer : ℤ) + source.symbols.count .right - source.symbols.count .left) %
          tape.size ∧
      ∀ k < tape.size, (result.tape.valueAt k : ℤ) =
        ((tape.valueAt k : ℤ) + tape.timesAt source.symbols .increment k -
          tape.timesAt source.symbols .decrement k) % 2 ^ tape.width.bits := by
  obtain ⟨block, hblock, hruns⟩ := Block.exists_runs_of_isStraight hstraight
  have hspelt : block.SpeltBy source.chars := hblock.symm
  have hyields : source.Yields tape input
      ⟨[], tape.applyAll source.symbols, source.symbols.length, 0⟩ :=
    hspelt.yields_iff.mpr ⟨_, _, hruns _, rfl⟩
  refine ⟨_, fun other => hyields.iff_eq, rfl, rfl, rfl, tape.width_applyAll _, tape.size_applyAll _,
    ?_, fun k _ => ?_⟩
  · rw [htape.pointer_applyAll, Tape.pointerBefore, List.take_length]
  · rw [htape.valueAt_applyAll, Tape.netAt, ← add_sub_assoc, tape.width.modulus_eq]
    push_cast
    rfl

/-- The pointer goes round a tape of three cells both ways, and two cells wrap. -/
theorem exists_yields_of_isStraight_of_three_cells :
    ((∀ symbol ∈ (ofLines ["<-<", "one +", "home >>>"]).symbols, symbol.isStraight) ∧
      (⟨.bits8, #[7, 255, 0], 0⟩ : Tape).WellFormed) ∧
    ∃ result, (ofLines ["<-<", "one +", "home >>>"]).Yields ⟨.bits8, #[7, 255, 0], 0⟩ [1] result ∧
      result.instructions = 7 ∧ result.output = [] ∧ result.inputConsumed = 0 ∧
      (result.tape.pointer : ℤ) = 1 ∧ (result.tape.valueAt 0 : ℤ) = 7 ∧
      (result.tape.valueAt 1 : ℤ) = 0 ∧ (result.tape.valueAt 2 : ℤ) = 255 := by
  have hstraight : ∀ symbol ∈ (ofLines ["<-<", "one +", "home >>>"]).symbols, symbol.isStraight := by
    decide
  have htape : (⟨.bits8, #[7, 255, 0], 0⟩ : Tape).WellFormed := ⟨by decide, by decide⟩
  obtain ⟨result, hyields, hinstructions, houtput, hconsumed, -, -, hpointer, hvalue⟩ :=
    exists_yields_of_isStraight hstraight htape [1]
  exact ⟨⟨hstraight, htape⟩, result, (hyields result).mpr rfl, hinstructions, houtput, hconsumed,
    hpointer, hvalue 0 (by decide), hvalue 1 (by decide), hvalue 2 (by decide)⟩

end Source

end TapeMachine
