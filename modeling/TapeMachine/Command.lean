import TapeMachine.Command.Run

/-!
# The program

The program as a whole: it reads its command line and carries out the command, or shows how it is used.

## Main definitions

* `Command.Invocation.carryOut` — a command line that was read.
* `Command.carryOut` — a command line, whether it could be read or not.
* `Command.perform` — the outcome of a command line given as words.
-/

namespace TapeMachine.Command

namespace Invocation

/-- The files that may be read. -/
def paths (invocation : Invocation) : List String :=
  match invocation.request with
  | none => []
  | some (.run options) => options.paths
  | some (.check options) => options.paths

/-- Whether the standard input may be read. -/
def readsStandardInput (invocation : Invocation) : Bool :=
  match invocation.help, invocation.request with
  | false, some (.run options) => options.readsStandardInput
  | _, _ => false

/-- Carries out a command line, and comes back with the exit status.  Without a command, or with help
asked for in front of it, only the help is shown. -/
def carryOut {m : Type → Type} [Monad m] (invocation : Invocation) (world : World m)
    (read : String → Except Fault (List UInt8)) (surroundings : Surroundings) : m Nat := do
  let usage := Notice.text (Usage.program surroundings.name)
  if invocation.help then
    world.say [usage]
    return 0
  match invocation.request with
  | none =>
    world.say [usage]
    return 2
  | some (.run options) => options.carryOut world read surroundings
  | some (.check options) => options.carryOut world.toChannels read surroundings

end Invocation

/-- Carries out the command line that was read from words; one that cannot be read is refused. -/
def carryOut {m : Type → Type} [Monad m] (reading : Except ArgumentError Invocation) (world : World m)
    (read : String → Except Fault (List UInt8)) (surroundings : Surroundings) : m Nat :=
  match reading with
  | .ok invocation => invocation.carryOut world read surroundings
  | .error error => do
    world.say [.refused error]
    return 2

/-- The outcome of the command line that words make up.  A program may visit `fuel` positions; the result
is `none` if it goes on. -/
def perform {σ : Type} (words : List String) (fuel : Nat) (storage : Storage σ) (files : σ)
    (surroundings : Surroundings) : Option (Outcome σ) :=
  Outcome.after
    (carryOut (Invocation.ofWords words) (Outcome.world fuel storage) (storage.read files) surroundings)
    files

end TapeMachine.Command
