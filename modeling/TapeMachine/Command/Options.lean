import TapeMachine.Settings

/-!
# What the command line asks for

## Main definitions

* `Command.RunOptions`, `Command.CheckOptions` — what to run or to check, and how.
* `Command.Invocation` — a whole command line.
-/

namespace TapeMachine.Command

/-- What to run, and how. -/
structure RunOptions where
  /-- The file of the program. -/
  file : Option String := none
  /-- The text of the program, given instead of a file. -/
  code : Option String := none
  /-- Where the input comes from: a file, or a hyphen for the standard input. -/
  input : Option String := none
  /-- The file that receives the output as well. -/
  output : Option String := none
  /-- The file that receives a listing of the tape at the end. -/
  listing : Option String := none
  /-- The settings of the tape. -/
  settings : Settings := {}
  /-- Whether the summary is left out. -/
  quiet : Bool := false
  /-- Whether only help is wanted. -/
  help : Bool := false
  deriving DecidableEq, Repr

/-- What to check. -/
structure CheckOptions where
  /-- The file of the program. -/
  file : Option String := none
  /-- The text of the program, given instead of a file. -/
  code : Option String := none
  /-- Whether only help is wanted. -/
  help : Bool := false
  deriving DecidableEq, Repr

/-- A command and its options. -/
inductive Request
  /-- Run a program. -/
  | run (options : RunOptions)
  /-- Check the brackets of a program. -/
  | check (options : CheckOptions)
  deriving DecidableEq, Repr

/-- A whole command line. -/
structure Invocation where
  /-- Whether help is wanted before any command is named. -/
  help : Bool := false
  /-- The command, if one is named. -/
  request : Option Request := none
  deriving DecidableEq, Repr

end TapeMachine.Command
