import TapeMachine.Bracket.Balance
import TapeMachine.Bracket.JumpTable
import TapeMachine.Tape

/-!
# The machine

The machine walks the characters of a program with a position that counts from zero, and stops when
the position has left the program.  A comment character is passed over.  An instruction acts on the
tape, the input and the output, or sends the machine to the partner of a bracket; then the position
moves on, behind the partner if there was a jump.

Nothing bounds the number of steps of a program, so a run is given how many positions it may visit and
answers how far it came.  An observer may watch: it is told of every instruction that was executed.

## Main definitions

* `Code` — a program that is ready to run: its characters and the partners of its brackets.
* `Machine` — the state between two positions.
* `Event` — what one executed instruction did.
* `Machine.act` — the effect of an instruction that does not jump.
* `Code.step` — what happens at one position.
* `Code.run` — up to a number of positions, under the eyes of an observer.
* `Source.compile` — a program made ready to run, if its brackets allow it.
* `Execution`, `Source.execute`, `Source.observe` — a complete run and its result.

## Main results

* `Code.run_add` — a run goes on from where a shorter one has come to.
-/

namespace TapeMachine

/-- A program that is ready to run. -/
structure Code where
  /-- The characters that the machine walks. -/
  chars : Array Char
  /-- The partners of the brackets among them. -/
  table : JumpTable
  deriving DecidableEq, Repr, Inhabited

/-- The state of the machine between two positions. -/
structure Machine where
  /-- The memory. -/
  tape : Tape
  /-- The index of the next character of the program. -/
  position : Nat
  /-- The input that is not read yet. -/
  unread : List UInt8
  /-- The number of input bytes that are read. -/
  consumed : Nat
  /-- Everything written so far. -/
  output : Array UInt8
  /-- The number of instructions executed so far.  A counter of 64 bits would hold the same number as long
  as fewer than `2 ^ 64` instructions are executed. -/
  executed : Nat
  deriving DecidableEq, Repr, Inhabited

/-- What one executed instruction did. -/
structure Event where
  /-- The number of instructions executed before it. -/
  step : Nat
  /-- The position after it acted: the partner of a bracket that jumped, and else its own. -/
  position : Nat
  /-- The pointer before it. -/
  pointer : Nat
  /-- The current cell before it. -/
  before : Nat
  /-- The current cell after it. -/
  after : Nat
  /-- The instruction. -/
  symbol : Symbol
  /-- The bytes that it wrote, if it writes any. -/
  written : Option (List UInt8)
  deriving DecidableEq, Repr, Inhabited

namespace Machine

/-- The machine at the start of a program, with a tape and an input. -/
def start (tape : Tape) (input : List UInt8) : Machine :=
  ⟨tape, 0, input, 0, #[], 0⟩

/-- Reads the next input value into the current cell; at the end of the input nothing happens. -/
def readInput (m : Machine) : Machine :=
  match m.tape.width.decode? m.unread with
  | none => m
  | some decoded =>
    { m with
      tape := m.tape.write decoded.value
      unread := m.unread.drop decoded.used
      consumed := m.consumed + decoded.used }

/-- The bytes that the current cell is written as. -/
def written (m : Machine) : List UInt8 :=
  m.tape.width.encode m.tape.read

/-- Writes the current cell to the output. -/
def writeOutput (m : Machine) : Machine :=
  { m with output := m.output ++ m.written }

/-- The effect of an instruction apart from a jump. -/
def act (m : Machine) : Symbol → Machine
  | .increment => { m with tape := m.tape.increment }
  | .decrement => { m with tape := m.tape.decrement }
  | .right => { m with tape := m.tape.moveRight }
  | .left => { m with tape := m.tape.moveLeft }
  | .input => m.readInput
  | .output => m.writeOutput
  | .opening => m
  | .closing => m

/-- Moves on behind `position`, with one more instruction executed. -/
def moveOn (m : Machine) (position : Nat) : Machine :=
  { m with position := position + 1, executed := m.executed + 1 }

end Machine

/-- What happened at one position. -/
inductive Step
  /-- The position is behind the program: the run is over. -/
  | halted (m : Machine)
  /-- A comment character was passed over. -/
  | skipped (m : Machine)
  /-- An instruction was executed. -/
  | executed (m : Machine) (event : Event)
  /-- A bracket had to jump and has no partner. -/
  | failed (m : Machine) (error : PartnerError)

/-- How far a run has come. -/
inductive Progress (σ : Type)
  /-- The program goes on from here. -/
  | running (m : Machine) (seen : σ)
  /-- The program is at its end. -/
  | finished (m : Machine) (seen : σ)
  /-- A bracket had to jump and has no partner. -/
  | failed (m : Machine) (error : PartnerError) (seen : σ)

namespace Progress

/-- What the observer has seen. -/
def seen {σ : Type} : Progress σ → σ
  | running _ seen => seen
  | finished _ seen => seen
  | failed _ _ seen => seen

/-- The same progress with something else seen. -/
def map {σ τ : Type} (f : σ → τ) : Progress σ → Progress τ
  | running m seen => .running m (f seen)
  | finished m seen => .finished m (f seen)
  | failed m error seen => .failed m error (f seen)

@[simp] theorem seen_map {σ τ : Type} (f : σ → τ) (progress : Progress σ) :
    (progress.map f).seen = f progress.seen := by
  cases progress <;> rfl

@[simp] theorem map_map {σ τ υ : Type} (f : σ → τ) (g : τ → υ) (progress : Progress σ) :
    (progress.map f).map g = progress.map fun seen => g (f seen) := by
  cases progress <;> rfl

end Progress

namespace Code

/-- Executes the instruction at the position of the machine. -/
def execute (code : Code) (m : Machine) (symbol : Symbol) : Step :=
  let step := m.executed
  let position := m.position
  let pointer := m.tape.pointer
  let before := m.tape.read
  if symbol.jumps before then
    match code.table.partner? position with
    | none => .failed m (.notABracket position code.chars[position]?)
    | some partner =>
      .executed (m.moveOn partner) ⟨step, partner, pointer, before, before, symbol, none⟩
  else
    let written := if symbol = .output then some m.written else none
    let m' := m.act symbol
    let after := m'.tape.read
    .executed (m'.moveOn position) ⟨step, position, pointer, before, after, symbol, written⟩

/-- What happens at the position of the machine. -/
def step (code : Code) (m : Machine) : Step :=
  match code.chars[m.position]? with
  | none => .halted m
  | some c =>
    match Symbol.ofChar? c with
    | none => .skipped { m with position := m.position + 1 }
    | some symbol => code.execute m symbol

/-- Goes on from `m` for at most `fuel` positions.  The observer `watch` takes in what every executed
instruction did. -/
def run {σ : Type} (code : Code) (watch : σ → Event → σ) : Nat → Machine → σ → Progress σ
  | 0, m, seen => .running m seen
  | fuel + 1, m, seen =>
    match code.step m with
    | .halted m => .finished m seen
    | .skipped m => run code watch fuel m seen
    | .executed m event => run code watch fuel m (watch seen event)
    | .failed m error => .failed m error seen

/-- **A run goes on from where a shorter one has come to.** -/
theorem run_add {σ : Type} (code : Code) (watch : σ → Event → σ) (fuel more : Nat) (m : Machine)
    (seen : σ) :
    code.run watch (fuel + more) m seen =
      match code.run watch fuel m seen with
      | .running m seen => code.run watch more m seen
      | .finished m seen => .finished m seen
      | .failed m error seen => .failed m error seen := by
  induction fuel generalizing m seen with
  | zero => rw [Nat.zero_add, run]
  | succ fuel ih =>
    rw [Nat.succ_add, run, run]
    cases code.step m with
    | halted m₁ => rfl
    | skipped m₁ => exact ih m₁ seen
    | executed m₁ event => exact ih m₁ (watch seen event)
    | failed m₁ error => rfl

end Code

/-- Why a program does not run to its end. -/
inductive RunError
  /-- Its brackets are not balanced; nothing was executed. -/
  | rejected (error : SyntaxError)
  /-- A bracket has no partner although the check found none missing. -/
  | internal (error : PartnerError)
  deriving DecidableEq, Repr

/-- The error in words. -/
def RunError.message : RunError → String
  | rejected error => "Syntax error: " ++ error.message
  | internal error => "Internal error: " ++ error.message

/-- The result of a complete run. -/
structure Execution where
  /-- Everything that was written. -/
  output : List UInt8
  /-- The tape as the program left it. -/
  tape : Tape
  /-- The number of instructions executed, which is exact for runs of any length.  A counter of 64 bits
  would hold the same number for runs of fewer than `2 ^ 64` instructions. -/
  instructions : Nat
  /-- The number of input bytes that were read. -/
  inputConsumed : Nat
  deriving DecidableEq, Repr

/-- The result of a run that ended in this state. -/
def Machine.execution (m : Machine) : Execution :=
  ⟨m.output.toList, m.tape, m.executed, m.consumed⟩

namespace Source

/-- A program made ready to run: its brackets are checked, then paired. -/
def compile (source : Source) : Except RunError Code :=
  match source.syntaxError? with
  | some error => .error (.rejected error)
  | none =>
    match JumpTable.ofChars source.chars with
    | .error error => .error (.internal error)
    | .ok table => .ok ⟨source.chars.toArray, table⟩

/-- Runs a program for at most `fuel` positions, from a tape and on an input, under the eyes of the
observer `watch` that starts from `seen`.  The result is `none` if the program goes on. -/
def observe {σ : Type} (source : Source) (watch : σ → Event → σ) (seen : σ) (fuel : Nat) (tape : Tape)
    (input : List UInt8) : Option (Except RunError Execution × σ) :=
  match source.compile with
  | .error error => some (.error error, seen)
  | .ok code =>
    match code.run watch fuel (.start tape input) seen with
    | .running _ _ => none
    | .finished m seen => some (.ok m.execution, seen)
    | .failed _ error seen => some (.error (.internal error), seen)

/-- Runs a program for at most `fuel` positions, from a tape and on an input.  The result is `none` if
the program goes on. -/
def execute (source : Source) (fuel : Nat) (tape : Tape) (input : List UInt8) :
    Option (Except RunError Execution) :=
  (source.observe (fun _ _ => ()) () fuel tape input).map Prod.fst

end Source

end TapeMachine
