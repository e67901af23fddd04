/-!
# The eight symbols

A program of the tape machine is a text in which eight characters mean something and every other
character is a comment.  This module names what the eight characters mean and reads them off a
character.

## Main definitions

* `Symbol` — one instruction of the machine.
* `Symbol.ofChar?` — the instruction that a character stands for, if it stands for one.
* `Symbol.toChar` — the character that stands for an instruction.
* `Symbol.jumps` — whether a bracket sends the machine to its partner.

## Main results

* `Symbol.ofChar?_eq_some_iff` — the two readings are inverse, so a character stands for at most
  one instruction and every instruction has exactly one character.
-/

namespace TapeMachine

/-- An instruction of the tape machine. -/
inductive Symbol
  /-- `+` adds one to the cell under the pointer. -/
  | increment
  /-- `-` takes one from the cell under the pointer. -/
  | decrement
  /-- `>` moves the pointer one cell to the right. -/
  | right
  /-- `<` moves the pointer one cell to the left. -/
  | left
  /-- `,` reads the next input value into the cell. -/
  | input
  /-- `.` writes the cell to the output. -/
  | output
  /-- `[` opens a loop and skips it when the cell is zero. -/
  | opening
  /-- `]` closes a loop and goes back to its start when the cell is not zero. -/
  | closing
  deriving DecidableEq, Repr, Inhabited

namespace Symbol

/-- The instruction that a character stands for, and `none` for a comment character. -/
def ofChar? : Char → Option Symbol
  | '+' => some .increment
  | '-' => some .decrement
  | '>' => some .right
  | '<' => some .left
  | ',' => some .input
  | '.' => some .output
  | '[' => some .opening
  | ']' => some .closing
  | _ => none

/-- The character that stands for an instruction. -/
def toChar : Symbol → Char
  | increment => '+'
  | decrement => '-'
  | right => '>'
  | left => '<'
  | input => ','
  | output => '.'
  | opening => '['
  | closing => ']'

@[simp] theorem ofChar?_toChar (s : Symbol) : ofChar? s.toChar = some s := by
  cases s <;> rfl

theorem ofChar?_eq_some_iff {c : Char} {s : Symbol} : ofChar? c = some s ↔ c = s.toChar := by
  constructor
  · intro h
    unfold ofChar? at h
    split at h <;> cases h <;> rfl
  · rintro rfl
    exact ofChar?_toChar s

/-- Whether an instruction, met with `cell` under the pointer, sends the machine to the partner of
the bracket: an opening bracket does on a zero cell, a closing one on any other. -/
def jumps : Symbol → Nat → Bool
  | opening, cell => cell == 0
  | closing, cell => cell != 0
  | _, _ => false

end Symbol

end TapeMachine
