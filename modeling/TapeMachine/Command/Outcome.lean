import TapeMachine.Command.Arguments
import TapeMachine.Log
import TapeMachine.Storage

/-!
# Outcomes of commands

What a command finds around it, and what it leaves: an exit status, bytes on the standard output,
notices on the standard error, and files.

## Main definitions

* `Command.Surroundings` — what a command finds.
* `Command.Notice`, `Command.Outcome` — what it leaves.
-/

namespace TapeMachine.Command

/-- What a command finds around it, files apart. -/
structure Surroundings where
  /-- The name that the program was called by. -/
  name : String
  /-- The environment variables. -/
  lookup : String → Option String
  /-- The path of the settings file and its text, if there is one. -/
  settingsFile : Option (String × String)
  /-- The log entries that are shown. -/
  threshold : Log.Threshold
  /-- Whether the standard error is a terminal, on which reports are painted. -/
  colour : Bool
  /-- Everything that can be read from the standard input, or why nothing can. -/
  standardInput : Except Fault (List UInt8)
  /-- What setting the handler of interrupts comes to: nothing, or words that say why it cannot be set. -/
  handler : Except String Unit
  /-- Whether a number of bytes of memory is granted when it is asked for. -/
  grants : Nat → Bool

/-- A line that starts with the name of the program. -/
def Surroundings.say (surroundings : Surroundings) (words : String) : String :=
  surroundings.name ++ ": " ++ words ++ "\n"

/-- What is written to the standard error. -/
inductive Notice
  /-- A text as it is. -/
  | text (said : String)
  /-- A command line was refused. -/
  | refused (error : ArgumentError)
  /-- A run is at its end. -/
  | summary (instructions : Nat)
  /-- An entry of the log. -/
  | log (entry : Log.Entry)
  deriving DecidableEq, Repr

namespace Notice

/-- The log entries among notices. -/
def entry? : Notice → Option Log.Entry
  | log entry => some entry
  | _ => none

/-- A notice as it is written, log entries and refused command lines apart; `milliseconds` is how long
the run took. -/
def words (milliseconds : String) : Notice → String
  | text said => said
  | summary instructions =>
    "\n(Executed " ++ Decimal.text instructions ++ " instructions in " ++ milliseconds ++ " ms)\n"
  | _ => ""

/-- Log entries as notices, those left out that the threshold hides. -/
def ofEntries (threshold : Log.Threshold) (entries : List Log.Entry) : List Notice :=
  (Log.shown threshold entries).map log

end Notice

/-- What a command leaves. -/
structure Outcome (σ : Type) where
  /-- The exit status. -/
  status : Nat
  /-- What is written to the standard output. -/
  output : List UInt8
  /-- What is written to the standard error, in order. -/
  notices : List Notice
  /-- The files. -/
  files : σ
  deriving DecidableEq, Repr

/-- The outcome of a command that writes nothing but notices. -/
def Outcome.quiet {σ : Type} (status : Nat) (notices : List Notice) (files : σ) : Outcome σ :=
  ⟨status, [], notices, files⟩

end TapeMachine.Command
