import TapeMachine.Command

/-!
# The executable

The outermost layer: it gathers what a command looks at, and is the world in which the library carries
the command out.  Output appears while a program runs, slice by slice, so a program that never ends can
still be watched.
-/

namespace TapeMachine.Main

open Command

/-- The fault behind an error of the operating system. -/
def faultOf (error : IO.Error) : Fault :=
  match error with
  | .noFileOrDirectory .. => .notFound
  | .inappropriateType _ code _ => if code = 21 then .isDirectory else .notDirectory
  | error => .other (toString error)

/-- The content of a file. -/
def load (path : String) : IO (Except Fault (List UInt8)) := do
  try
    return .ok (← IO.FS.readBinFile path).toList
  catch error =>
    return .error (faultOf error)

/-- Writes a file. -/
def store (path : String) (content : List UInt8) : IO (Option Fault) := do
  try
    IO.FS.writeBinFile path ⟨content.toArray⟩
    return none
  catch error =>
    return some (faultOf error)

/-- All bytes that are left on a stream, behind those read so far. -/
partial def drain (stream : IO.FS.Stream) (sofar : ByteArray) : IO ByteArray := do
  let chunk ← stream.read 65536
  if chunk.isEmpty then return sofar else drain stream (sofar ++ chunk)

/-- Everything that can be read from the standard input. -/
def loadStandardInput : IO (Except Fault (List UInt8)) := do
  try
    return .ok (← drain (← IO.getStdin) .empty).toList
  catch error =>
    return .error (faultOf error)

/-- The path of the settings file: in the directory for settings, or else in the home directory. -/
def settingsPath? : IO (Option String) := do
  match ← IO.getEnv "XDG_CONFIG_HOME", ← IO.getEnv "HOME" with
  | some folder, home =>
    if folder.startsWith "/" then return some (folder ++ "/bf.toml")
    else return home.map (· ++ "/.config/bf.toml")
  | none, home => return home.map (· ++ "/.config/bf.toml")

/-- The path and the text of the settings file, if it can be read. -/
def settingsFile? : IO (Option (String × String)) := do
  match ← settingsPath? with
  | none => return none
  | some path => return ((← load path) >>= decodeText).toOption.map fun text => (path, text)

/-- The threshold that a text asks for.  A text can ask for more than that, but only the names of levels
are understood here; without one of them, warnings are shown and what is more severe. -/
def thresholdOf (text : Option String) : Log.Threshold :=
  match (text.getD "warn").toLower with
  | "off" => none
  | "error" => some .error
  | "info" => some .info
  | "debug" => some .debug
  | "trace" => some .trace
  | _ => some .warning

/-- The number of bytes that an address space of 47 bits holds. -/
def addressSpace : Nat := 0x800000000000

/-- The value of an environment variable beside its name. -/
def namedValue? (name : String) : IO (Option (String × String)) := do
  return (← IO.getEnv name).map fun value => (name, value)

/-- What a command finds around it.  The standard input is read only if it is asked for. -/
def surroundings (readsStandardInput : Bool) : IO Surroundings := do
  let values ← [Setting.cellBits.variableName, Setting.memorySize.variableName].filterMapM namedValue?
  return {
    name := "bf"
    lookup := fun name => values.lookup name
    settingsFile := ← settingsFile?
    threshold := thresholdOf (← IO.getEnv "RUST_LOG")
    colour := ← (← IO.getStderr).isTty
    standardInput := ← if readsStandardInput then loadStandardInput else pure (.ok [])
    handler := .ok ()
    grants := fun bytes => bytes < addressSpace }

/-- Files that were read before they are asked for. -/
abbrev Snapshot := List (String × Except Fault (List UInt8))

/-- The content of a file that was read before. -/
def Snapshot.read (snapshot : Snapshot) (path : String) : Except Fault (List UInt8) :=
  (snapshot.lookup path).getD (.error .notFound)

/-- Reads all files of the given paths. -/
def takeSnapshot (paths : List String) : IO Snapshot :=
  paths.mapM fun path => return (path, ← load path)

/-- Writes a notice to the standard error. -/
def tell (milliseconds : Nat) (notice : Notice) : IO Unit :=
  match notice with
  | .log entry => IO.eprintln entry.text
  | .refused error => IO.eprintln ("error: " ++ error.message)
  | notice => IO.eprint (notice.words (toString milliseconds))

/-- Writes bytes to the standard output; nobody is told if they do not get there. -/
def emit (bytes : List UInt8) : IO Unit := do
  let stdout ← IO.getStdout
  try
    stdout.write ⟨bytes.toArray⟩
    stdout.flush
  catch _ =>
    return

/-- The channels of the process; `elapsed` holds how long the run took, in milliseconds. -/
def channels (elapsed : IO.Ref Nat) : Channels IO where
  say notices := do notices.forM (tell (← elapsed.get))
  print := emit

/-- How many positions a program visits before its output is shown. -/
def slice : Nat := 65536

/-- Runs a program to its end, slice by slice. -/
partial def runOn (channels : Channels IO) (threshold : Log.Threshold) (code : Code)
    (machine : Machine) : IO (Except PartnerError Machine) := do
  match ← channels.advance threshold code slice machine with
  | .running machine _ => runOn channels threshold code machine
  | .finished machine _ => return .ok machine
  | .failed _ error _ => return .error error

/-- The world of the process. -/
def world (elapsed : IO.Ref Nat) : World IO where
  toChannels := channels elapsed
  write := store
  run threshold code machine := do
    let began ← IO.monoMsNow
    let result ← runOn (channels elapsed) threshold code machine
    elapsed.set ((← IO.monoMsNow) - began)
    return result

end TapeMachine.Main

open TapeMachine in
/-- Carries out the command line that the program was called with. -/
def main (words : List String) : IO UInt32 := do
  let reading := Command.Invocation.ofWords words
  let invocation := reading.toOption.getD {}
  let snapshot ← Main.takeSnapshot invocation.paths
  let surroundings ← Main.surroundings invocation.readsStandardInput
  let world := Main.world (← IO.mkRef 0)
  return UInt32.ofNat (← Command.carryOut reading world snapshot.read surroundings)
