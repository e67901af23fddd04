import TapeMachine.Command.Check
import TapeMachine.Listing

/-!
# Running a program

The command that runs a program.  Everything that can keep it from running is looked at first, in this
order: the program text, the settings, the input, the handler of interrupts, the memory, the brackets.
Then the program runs to its end, and only then files are written: the output first, the listing of the
tape after it.

## Main definitions

* `Command.Refusal` — what keeps a program from running.
* `Command.Ready`, `Command.RunOptions.prepare` — everything that a run needs.
* `Command.Delivery`, `Command.deliver` — the files that a run leaves.
* `Command.RunOptions.conclude` — the end of the command after the run.
* `Command.RunOptions.carryOut` — the command.
* `Command.RunOptions.perform` — its outcome.
-/

namespace TapeMachine.Command

/-- What keeps a program from running. -/
inductive Refusal
  /-- There is no program. -/
  | origin (error : OriginError)
  /-- The settings make no tape. -/
  | settings (error : SettingsError)
  /-- The input cannot be read. -/
  | input (fault : Fault)
  /-- The handler of interrupts cannot be set. -/
  | handler (words : String)
  /-- There is no memory for the tape. -/
  | allocation (error : AllocationError)
  /-- The program is refused. -/
  | program (source : Source) (error : RunError)
  deriving DecidableEq, Repr

namespace Refusal

/-- The exit status of the command. -/
def status : Refusal → Nat
  | origin error => error.status
  | settings _ => 2
  | _ => 1

/-- What the command says. -/
def notices (surroundings : Surroundings) : Refusal → List Notice
  | origin error => error.notices surroundings (Usage.run surroundings.name)
  | settings error =>
    [.text (surroundings.say error.message), .text (Usage.run surroundings.name)]
  | input fault => [.text (surroundings.say ("failed to read input: " ++ fault.message))]
  | handler words => [.text (surroundings.say ("failed to set ctrl+c handler: " ++ words))]
  | allocation error => [.text (surroundings.say error.message)]
  | program source error => [failureNotice surroundings source error]

end Refusal

/-- Everything that a run needs. -/
structure Ready where
  /-- The text of the program. -/
  source : Source
  /-- The program, ready to run. -/
  code : Code
  /-- The tape at the start. -/
  tape : Tape
  /-- The input. -/
  input : List UInt8
  deriving DecidableEq, Repr

/-- The bytes that a program reads: none, the standard input, or the content of a file. -/
def loadInput (read : String → Except Fault (List UInt8)) (standardInput : Except Fault (List UInt8)) :
    Option String → Except Fault (List UInt8)
  | none => .ok []
  | some "-" => standardInput
  | some path => read path

namespace RunOptions

/-- The files that may be read. -/
def paths (options : RunOptions) : List String :=
  options.file.toList ++ options.input.toList.filter (· != "-")

/-- Whether the standard input may be read. -/
def readsStandardInput (options : RunOptions) : Bool :=
  !options.help && options.input == some "-"

/-- The settings, from all layers. -/
def load (options : RunOptions) (surroundings : Surroundings) : Settings.Loading :=
  Settings.load options.settings surroundings.lookup (surroundings.settingsFile.map Prod.snd)

/-- What loading the settings tells. -/
def loadEntries (options : RunOptions) (surroundings : Surroundings) : List Log.Entry :=
  Log.ofLoading ((surroundings.settingsFile.map Prod.fst).getD "") (options.load surroundings)

/-- Makes a program text ready to run, on a tape of a shape. -/
def ready (options : RunOptions) (read : String → Except Fault (List UInt8))
    (surroundings : Surroundings) (text : String) (shape : Shape) : Except Refusal Ready := do
  let input ← (loadInput read surroundings.standardInput options.input).mapError .input
  surroundings.handler.mapError .handler
  let tape ← (Tape.allocate surroundings.grants shape).mapError .allocation
  let source := Source.ofText text
  let code ← source.compile.mapError (.program source)
  return ⟨source, code, tape, input⟩

/-- Everything that the run needs, or what keeps the program from running, with the log entries
written meanwhile. -/
def prepare (options : RunOptions) (read : String → Except Fault (List UInt8))
    (surroundings : Surroundings) : List Log.Entry × Except Refusal Ready :=
  match loadProgram read options.file options.code with
  | .error error => ([], .error (.origin error))
  | .ok text =>
    (options.loadEntries surroundings,
      match (options.load surroundings).shape with
      | .error error => .error (.settings error)
      | .ok shape => options.ready read surroundings text shape)

end RunOptions

/-- A file that a run leaves. -/
structure Delivery where
  /-- What is in it, for a message. -/
  subject : String
  /-- Where it goes. -/
  path : String
  /-- Its content. -/
  content : List UInt8
  deriving DecidableEq, Repr

/-- What the command says when a file cannot be written. -/
def Delivery.failure (delivery : Delivery) (fault : Fault) : String :=
  "could not write the " ++ delivery.subject ++ " to " ++ delivery.path ++ ": " ++ fault.message

/-- The files that a run leaves, in the order in which they are written. -/
def RunOptions.deliveries (options : RunOptions) (execution : Execution) : List Delivery :=
  (options.output.map fun path => ⟨"output", path, execution.output⟩).toList ++
    (options.listing.map fun path =>
      ⟨"memory state", path, execution.tape.listing.toUTF8.toList⟩).toList

/-- Writes files one after the other, up to the first that cannot be written, whose failure comes back
in words. -/
def deliver {m : Type → Type} [Monad m] (write : String → List UInt8 → m (Option Fault)) :
    List Delivery → m (Option String)
  | [] => return none
  | delivery :: rest => do
    match ← write delivery.path delivery.content with
    | none => deliver write rest
    | some fault => return some (delivery.failure fault)

/-- The log entry in front of a run. -/
def Ready.startEntry (ready : Ready) : Log.Entry :=
  Log.ofStart ready.code ready.tape ready.input

namespace RunOptions

variable {m : Type → Type} [Monad m]

/-- The end of the command after a run that came to its end. -/
def conclude (options : RunOptions) (world : World m) (surroundings : Surroundings)
    (execution : Execution) : m Nat := do
  world.say (Notice.ofEntries surroundings.threshold [Log.ofEnd execution])
  world.say (if options.quiet then [] else [.summary execution.instructions])
  match ← deliver world.write (options.deliveries execution) with
  | none => return 0
  | some failure =>
    world.say [.text (surroundings.say failure)]
    return 1

/-- Runs a program that is ready, and comes back with the exit status. -/
def start (options : RunOptions) (world : World m) (surroundings : Surroundings) (ready : Ready) :
    m Nat := do
  world.say (Notice.ofEntries surroundings.threshold [ready.startEntry])
  match ← world.run surroundings.threshold ready.code (.start ready.tape ready.input) with
  | .ok machine => options.conclude world surroundings machine.execution
  | .error error =>
    world.say [failureNotice surroundings ready.source (.internal error)]
    return 1

/-- Runs a program, if nothing keeps it from running, and comes back with the exit status. -/
def carryOut (options : RunOptions) (world : World m) (read : String → Except Fault (List UInt8))
    (surroundings : Surroundings) : m Nat := do
  if options.help then
    world.say [.text (Usage.run surroundings.name)]
    return 0
  let (entries, preparation) := options.prepare read surroundings
  world.say (Notice.ofEntries surroundings.threshold entries)
  match preparation with
  | .ok ready => options.start world surroundings ready
  | .error refusal =>
    world.say (refusal.notices surroundings)
    return refusal.status

/-- The outcome of running a program for at most `fuel` positions; `none` if it goes on. -/
def perform {σ : Type} (options : RunOptions) (fuel : Nat) (storage : Storage σ) (files : σ)
    (surroundings : Surroundings) : Option (Outcome σ) :=
  Outcome.after (options.carryOut (Outcome.world fuel storage) (storage.read files) surroundings) files

end RunOptions

end TapeMachine.Command
