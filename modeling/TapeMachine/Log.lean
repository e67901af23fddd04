import TapeMachine.Machine
import TapeMachine.Settings.Load
import TapeMachine.Text.Disarmed

/-!
# The log

What the program tells about its own work.  Every entry has a level; a threshold hides the entries that
are less severe than it.  An entry is written as its level, its message, and its fields.  A message may
quote a settings file, so it is disarmed before it is written.

## Main definitions

* `Log.Level`, `Log.Threshold` — how severe an entry is, and which entries are shown.
* `Log.Entry` — what is told.
* `Log.Entry.text` — an entry as it is written.
* `Log.ofLoading`, `Log.ofStart`, `Log.ofRun` — what loading the settings, starting a program and running
  it tell.
-/

namespace TapeMachine.Log

/-- How severe an entry is. -/
inductive Level
  /-- Something went wrong. -/
  | error
  /-- Something may be wrong. -/
  | warning
  /-- Something is worth knowing. -/
  | info
  /-- Something helps to find a mistake. -/
  | debug
  /-- Every single step. -/
  | trace
  deriving DecidableEq, Repr, Inhabited

namespace Level

/-- The rank of a level, the more severe the smaller. -/
def rank : Level → Nat
  | error => 1
  | warning => 2
  | info => 3
  | debug => 4
  | trace => 5

/-- A level as it is written. -/
def text : Level → String
  | error => "ERROR"
  | warning => "WARN"
  | info => "INFO"
  | debug => "DEBUG"
  | trace => "TRACE"

end Level

/-- The least severe level that is shown; `none` shows nothing. -/
abbrev Threshold := Option Level

namespace Threshold

/-- Whether a level is shown. -/
def shows : Threshold → Level → Bool
  | none, _ => false
  | some least, level => level.rank ≤ least.rank

end Threshold

/-- What is told. -/
inductive Entry
  /-- The settings file was read. -/
  | fileLoaded (path : String)
  /-- A value of the settings file is refused. -/
  | valueIgnored (path : String) (setting : Setting) (error : SettingsError)
  /-- A program starts. -/
  | starting (length loops cells : Nat) (width : CellWidth) (inputBytes : Nat)
  /-- An instruction was executed. -/
  | executed (event : Event)
  /-- A program is at its end. -/
  | finished (instructions outputBytes : Nat)
  deriving DecidableEq, Repr

namespace Entry

/-- The level of an entry. -/
def level : Entry → Level
  | fileLoaded _ => .debug
  | valueIgnored .. => .warning
  | starting .. => .debug
  | executed _ => .trace
  | finished .. => .info

/-- The message of an entry. -/
def message : Entry → String
  | fileLoaded _ => "loaded config file"
  | valueIgnored _ _ error => "ignoring config value: " ++ error.message
  | starting .. => "starting run"
  | executed _ => "exec"
  | finished .. => "run finished"

/-- The fields of an entry, each a name and a value. -/
def fields : Entry → List (String × String)
  | fileLoaded path => [("path", path)]
  | valueIgnored path setting _ => [("path", path), ("key", "\"" ++ setting.key ++ "\"")]
  | starting length loops cells width inputBytes =>
    [("length", Decimal.text length), ("loops", Decimal.text loops), ("cells", Decimal.text cells),
      ("width", width.text), ("input_bytes", Decimal.text inputBytes)]
  | executed event =>
    [("step", Decimal.text event.step), ("ip", Decimal.text event.position),
      ("ptr", Decimal.text event.pointer), ("cell", Decimal.text event.before),
      ("after", Decimal.text event.after), ("op", event.symbol.toChar.toString)]
  | finished instructions outputBytes =>
    [("instructions", Decimal.text instructions), ("output_bytes", Decimal.text outputBytes)]

/-- A level, a message and fields as they are written. -/
def line (level : Level) (message : String) (fields : List (String × String)) : String :=
  fields.foldl (fun text field => text ++ " " ++ field.1 ++ "=" ++ field.2)
    (level.text ++ " " ++ message)

/-- An entry as it is written. -/
def text (entry : Entry) : String :=
  line entry.level (String.ofList (Text.disarm entry.message.toList)) entry.fields

end Entry

/-- The entries that a threshold shows. -/
def shown (threshold : Threshold) (entries : List Entry) : List Entry :=
  entries.filter fun entry => threshold.shows entry.level

/-- What loading the settings from the file at `path` tells. -/
def ofLoading (path : String) (loading : Settings.Loading) : List Entry :=
  match loading.file with
  | none => []
  | some file =>
    .fileLoaded path :: file.refused.map fun (setting, error) => .valueIgnored path setting error

/-- The observer that keeps every event. -/
def record (events : Array Event) (event : Event) : Array Event :=
  events.push event

/-- What the start of a program tells. -/
def ofStart (code : Code) (tape : Tape) (input : List UInt8) : Entry :=
  .starting code.chars.size code.table.pairs tape.size tape.width input.length

/-- What the end of a program tells. -/
def ofEnd (execution : Execution) : Entry :=
  .finished execution.instructions execution.output.length

/-- What a run tells of its instructions and its end. -/
def ofRun (events : Array Event) (execution : Execution) : List Entry :=
  events.toList.map .executed ++ [ofEnd execution]

end TapeMachine.Log
