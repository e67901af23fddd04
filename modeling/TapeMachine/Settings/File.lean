import TapeMachine.Settings
import TapeMachine.Text.Lines

/-!
# Settings in a file

A settings file is a text of lines.  A line in square brackets is a header and names the section that
starts there; only the section `tape` counts.  In it, a line with an equals sign assigns the text after
the sign to the key before it, and the last assignment to a key holds.  A number sign starts a comment,
either at the start of a line or after the equals sign, and a value may stand in double quotes.  Blanks
around any of these parts do not count.  All other lines are passed over.

A value that is no number, or that no tape can have, is refused and leaves its setting unset: a file
never keeps a program from running.

## Main definitions

* `Settings.FileLine`, `Settings.FileLine.ofLine` — what a line of the file is.
* `Settings.assignments` — the assignments of the section `tape`.
* `Settings.FileReading`, `Settings.FileReading.ofText` — the settings of a file and the values that it refuses.
-/

namespace TapeMachine.Settings

/-- What a line of a settings file is. -/
inductive FileLine
  /-- A section starts. -/
  | header (name : List Char)
  /-- A key is assigned a value. -/
  | assignment (key value : List Char)
  /-- The line is blank, a comment, or nothing that is known. -/
  | other
  deriving DecidableEq, Repr

/-- The text between square brackets, if the brackets are the ends of the text. -/
def bracketed? : List Char → Option (List Char)
  | '[' :: rest => if rest.getLast? = some ']' then some rest.dropLast else none
  | _ => none

/-- A text without the double quotes that it may stand in. -/
def unquote (text : List Char) : List Char :=
  match text with
  | '\"' :: rest => if rest.getLast? = some '\"' then rest.dropLast else text
  | _ => text

/-- The key and the value of an assignment: what stands before the first equals sign, and what stands
between it and the next number sign. -/
def assignment? (text : List Char) : Option (List Char × List Char) :=
  match text.dropWhile (· != '=') with
  | [] => none
  | _ :: after =>
    some (Text.trim (text.takeWhile (· != '=')),
      unquote (Text.trim (after.takeWhile (· != '#'))))

namespace FileLine

/-- What a line is, blanks at its ends apart. -/
def ofTrimmed (text : List Char) : FileLine :=
  if text.head? = some '#' then other
  else
    match bracketed? text with
    | some name => header (Text.trim name)
    | none =>
      match assignment? text with
      | some (key, value) => assignment key value
      | none => other

/-- What a line is. -/
def ofLine (line : Line) : FileLine :=
  ofTrimmed (Text.trim line)

end FileLine

/-- The section that counts. -/
def tapeSection : List Char := "tape".toList

/-- The assignments of the lines that count, in order; `inside` says whether those at the start do. -/
def assignments : Bool → List FileLine → List (List Char × List Char)
  | _, [] => []
  | _, .header name :: rest => assignments (name == tapeSection) rest
  | true, .assignment key value :: rest => (key, value) :: assignments true rest
  | false, .assignment _ _ :: rest => assignments false rest
  | inside, .other :: rest => assignments inside rest

/-- What the last assignment to a key assigns. -/
def lastValue? (key : List Char) (pairs : List (List Char × List Char)) : Option (List Char) :=
  pairs.reverse.lookup key

/-- What the assignments of a file give a setting. -/
def readSetting (pairs : List (List Char × List Char)) (setting : Setting) :
    Except SettingsError (Option Nat) :=
  match lastValue? setting.key.toList pairs with
  | none => .ok none
  | some value =>
    match setting.parse setting.key (String.ofList value) with
    | .error error => .error error
    | .ok number =>
      match setting.check number with
      | .error error => .error error
      | .ok () => .ok (some number)

/-- What came of reading a settings file. -/
structure FileReading where
  /-- The settings of the file. -/
  settings : Settings
  /-- The settings whose values are refused, and why. -/
  refused : List (Setting × SettingsError)
  deriving DecidableEq, Repr

/-- The number that was read, if there is one and it was not refused. -/
def accepted? : Except SettingsError (Option Nat) → Option Nat
  | .ok number => number
  | .error _ => none

/-- The refusal of a setting, if there is one. -/
def refusal (setting : Setting) : Except SettingsError (Option Nat) → List (Setting × SettingsError)
  | .ok _ => []
  | .error error => [(setting, error)]

/-- The settings of a file and the values that it refuses. -/
def FileReading.ofText (text : String) : FileReading :=
  let pairs := assignments false ((Text.splitLines text.toList).map FileLine.ofLine)
  let cellBits := readSetting pairs .cellBits
  let memorySize := readSetting pairs .memorySize
  ⟨⟨accepted? cellBits, accepted? memorySize⟩,
    refusal .cellBits cellBits ++ refusal .memorySize memorySize⟩

end TapeMachine.Settings
