import TapeMachine.Command.Outcome

/-!
# What a command can do

A command is written once, for any monad that can do what a command needs: write to the standard error
and to the standard output, write a file, and run a program to its end.  The executable has the operating
system do these things.  The model keeps what comes of them, and a command that was carried out on it has
an outcome.

What a program writes, and what the log tells of its instructions, comes from an observer of the run.  It
is passed on slice by slice, a number of positions at a time, so a run that never ends can still be watched.

## Main definitions

* `Command.Channels`, `Command.World` — what a command can do.
* `Command.Handed`, `Command.Handed.watch` — what the observer of a run hands over.
* `Command.Channels.advance` — a slice of a run.
* `Command.Outcome.channels`, `Command.Outcome.world` — the model of what a command can do.
* `Command.Outcome.after` — the outcome of a command.
-/

namespace TapeMachine.Command

/-- Where a command writes to as it goes on. -/
structure Channels (m : Type → Type) where
  /-- Writes to the standard error. -/
  say : List Notice → m Unit
  /-- Writes to the standard output. -/
  print : List UInt8 → m Unit

/-- What a command can do. -/
structure World (m : Type → Type) extends Channels m where
  /-- Writes the file under a path; what keeps it from being written comes back. -/
  write : String → List UInt8 → m (Option Fault)
  /-- Runs a program to its end, from a machine on. -/
  run : Log.Threshold → Code → Machine → m (Except PartnerError Machine)

/-! ### What a run hands over -/

/-- The observer that keeps the events if the log shows them. -/
def watcher (threshold : Log.Threshold) : Array Event → Event → Array Event :=
  if threshold.shows .trace then Log.record else fun events _ => events

/-- What a slice of a run hands over. -/
structure Handed where
  /-- The bytes that were written. -/
  written : Array UInt8 := #[]
  /-- The instructions that were executed, if the log shows them. -/
  events : Array Event := #[]
  deriving DecidableEq, Repr

/-- The observer that hands over what every instruction writes. -/
def Handed.watch (threshold : Log.Threshold) (handed : Handed) (event : Event) : Handed :=
  -- taken apart, so that neither array is shared when it grows
  let ⟨written, events⟩ := handed
  ⟨written ++ event.written.getD [], watcher threshold events event⟩

namespace Channels

variable {m : Type → Type} [Monad m]

/-- Passes on what a slice of a run has handed over. -/
def pass (channels : Channels m) (threshold : Log.Threshold) (handed : Handed) : m Unit := do
  channels.print handed.written.toList
  channels.say (Notice.ofEntries threshold (handed.events.toList.map .executed))

/-- Runs a slice of at most `fuel` positions, and passes on what it hands over. -/
def advance (channels : Channels m) (threshold : Log.Threshold) (code : Code) (fuel : Nat)
    (machine : Machine) : m (Progress Unit) := do
  let progress := code.run (Handed.watch threshold) fuel machine {}
  channels.pass threshold progress.seen
  return progress.map fun _ => ()

end Channels

/-! ### The model -/

namespace Outcome

variable {σ : Type}

/-- The channels that keep what is written, in the outcome of the command so far. -/
def channels {n : Type → Type} [Monad n] : Channels (StateT (Outcome σ) n) where
  say notices := modify fun left => { left with notices := left.notices ++ notices }
  print bytes := modify fun left => { left with output := left.output ++ bytes }

/-- The world that keeps everything in the outcome of the command so far.  A program may visit `fuel`
positions; if it goes on behind them, the command has no outcome. -/
def world (fuel : Nat) (storage : Storage σ) : World (StateT (Outcome σ) Option) where
  toChannels := channels
  write path content := do
    match storage.write (← get).files path content with
    | .ok files =>
      modify fun left => { left with files }
      return none
    | .error fault => return some fault
  run threshold code machine := do
    match ← channels.advance threshold code fuel machine with
    | .running _ _ => failure
    | .finished machine _ => return .ok machine
    | .failed _ error _ => return .error error

/-- The outcome of a command that comes back with its exit status. -/
def after {n : Type → Type} [Monad n] (command : StateT (Outcome σ) n Nat) (files : σ) :
    n (Outcome σ) := do
  let (status, left) ← command.run (.quiet 0 [] files)
  return { left with status }

end Outcome

end TapeMachine.Command
