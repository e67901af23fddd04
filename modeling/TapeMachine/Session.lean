import TapeMachine.Listing
import TapeMachine.Machine

/-!
# Sessions on a tape

One tape can serve many actions in turn: its own operations, whole programs that run from the tape as
it stands, and listings.  A program that is refused leaves the tape as it was.

## Main definitions

* `Action` — what can be done next.
* `Reply` — what an action answers.
* `Tape.perform` — an action on a tape.
-/

namespace TapeMachine

/-- What can be done with a tape. -/
inductive Action
  /-- Adds one to the current cell, a number of times. -/
  | increment (times : Nat)
  /-- Takes one from the current cell, a number of times. -/
  | decrement (times : Nat)
  /-- Moves the pointer to the right, a number of times. -/
  | right (times : Nat)
  /-- Moves the pointer to the left, a number of times. -/
  | left (times : Nat)
  /-- Stores a value in the current cell. -/
  | write (value : Nat)
  /-- Runs a program on an input. -/
  | run (source : Source) (input : List UInt8)
  /-- Lists the tape. -/
  | list

/-- What an action answers. -/
inductive Reply
  /-- Nothing but the tape. -/
  | silent
  /-- The result of a program. -/
  | ran (result : Except RunError Execution)
  /-- A listing. -/
  | listed (text : String)

namespace Tape

/-- Does the same thing a number of times. -/
def repeated (f : Tape → Tape) : Nat → Tape → Tape
  | 0, tape => tape
  | times + 1, tape => repeated f times (f tape)

/-- The tape that a run leaves: the one it ended with, or `tape` if it failed. -/
def after (tape : Tape) : Except RunError Execution → Tape
  | .ok execution => execution.tape
  | .error _ => tape

/-- An action on a tape.  Programs may visit `fuel` positions; the result is `none` if one goes on. -/
def perform (fuel : Nat) (tape : Tape) : Action → Option (Tape × Reply)
  | .increment times => some (repeated increment times tape, .silent)
  | .decrement times => some (repeated decrement times tape, .silent)
  | .right times => some (repeated moveRight times tape, .silent)
  | .left times => some (repeated moveLeft times tape, .silent)
  | .write value => some (tape.write value, .silent)
  | .run source input =>
    (source.execute fuel tape input).map fun result => (tape.after result, .ran result)
  | .list => some (tape, .listed tape.listing)

end Tape

end TapeMachine
