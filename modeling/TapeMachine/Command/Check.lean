import TapeMachine.Command.Origin
import TapeMachine.Command.World
import TapeMachine.Report.Failure

/-!
# Checking a program

The command that checks the brackets of a program without running it.

## Main definitions

* `Command.failureNotice` — how a command reports a failed run.
* `Command.CheckOptions.carryOut` — the command.
* `Command.CheckOptions.perform` — its outcome.
-/

namespace TapeMachine.Command

/-- The report of an error in a program. -/
def failureNotice (surroundings : Surroundings) (source : Source) (error : RunError) : Notice :=
  .text ((error.report? surroundings.colour (some surroundings.name) source).getD "")

/-- The files that may be read. -/
def CheckOptions.paths (options : CheckOptions) : List String :=
  options.file.toList

/-- Checks a program, and comes back with the exit status. -/
def CheckOptions.carryOut {m : Type → Type} [Monad m] (options : CheckOptions) (channels : Channels m)
    (read : String → Except Fault (List UInt8)) (surroundings : Surroundings) : m Nat := do
  let usage := Usage.check surroundings.name
  if options.help then
    channels.say [.text usage]
    return 0
  match loadProgram read options.file options.code with
  | .error error =>
    channels.say (error.notices surroundings usage)
    return error.status
  | .ok text =>
    let source := Source.ofText text
    match source.syntaxError? with
    | none =>
      channels.print (source.verdict ++ "\n").toUTF8.toList
      return 0
    | some error =>
      channels.say [failureNotice surroundings source (.rejected error)]
      return 1

/-- The outcome of checking a program. -/
def CheckOptions.perform {σ : Type} (options : CheckOptions) (storage : Storage σ) (files : σ)
    (surroundings : Surroundings) : Outcome σ :=
  Id.run <| Outcome.after (options.carryOut Outcome.channels (storage.read files) surroundings) files

end TapeMachine.Command
