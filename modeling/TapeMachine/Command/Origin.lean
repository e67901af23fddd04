import TapeMachine.Command.Outcome
import TapeMachine.Command.Usage

/-!
# Where a program comes from

A program is in a file, or it is given on the command line itself; exactly one of the two must be
asked for.

## Main definitions

* `Command.OriginError` — why there is no program.
* `Command.loadProgram` — the text of the program.
* `Command.OriginError.status`, `Command.OriginError.notices` — how a command ends without one.
-/

namespace TapeMachine.Command

/-- Why there is no program. -/
inductive OriginError
  /-- Neither a file nor a text is given. -/
  | missing
  /-- Both are given. -/
  | conflicting
  /-- The file cannot be read. -/
  | unreadable (path : String) (fault : Fault)
  deriving DecidableEq, Repr

/-- The error in words. -/
def OriginError.message : OriginError → String
  | missing => "no program given"
  | conflicting => "cannot use a program file together with --code"
  | unreadable path fault => "failed to read code file " ++ path ++ ": " ++ fault.message

/-- The text of the program: the content of `file`, or else `code`. -/
def loadProgram (read : String → Except Fault (List UInt8)) (file code : Option String) :
    Except OriginError String :=
  match file, code with
  | some path, none => (read path >>= decodeText).mapError (.unreadable path)
  | none, some code => .ok code
  | none, none => .error .missing
  | some _, some _ => .error .conflicting

namespace OriginError

/-- The exit status of a command that has no program. -/
def status : OriginError → Nat
  | missing => 2
  | conflicting => 2
  | unreadable _ _ => 1

/-- What a command says that has no program: the error, unless nothing was asked for, and the help if
the command line is to blame. -/
def notices (surroundings : Surroundings) (usage : String) : OriginError → List Notice
  | missing => [.text usage]
  | conflicting => [.text (surroundings.say conflicting.message), .text usage]
  | unreadable path fault => [.text (surroundings.say (unreadable path fault).message)]

end OriginError

end TapeMachine.Command
