import TapeMachine.Symbol
import TapeMachine.Text.Lines

/-!
# Program text

A program is kept as its lines, so that an error can point at a line and a character of it.  The
machine walks the characters of all lines one after the other, line ends left out; the position of a
character in that stream is its *index*, counted from zero.  Comment characters stay in both views.

## Main definitions

* `Source` — the text of a program, line by line.
* `Source.ofText`, `Source.ofLines` — the program of a text, and of lines that are cut already.
* `Source.chars` — the stream of characters that the machine walks.
* `Source.symbols` — the instructions in it, comments dropped.
* `Location`, `Source.located` — the line and the column of every character of the stream.
-/

namespace TapeMachine

/-- The text of a program, line by line. -/
structure Source where
  /-- The lines, without their ends. -/
  lines : List Line
  deriving DecidableEq, Repr, Inhabited

/-- A place in a program: a line, and a character of that line, both counted from one. -/
structure Location where
  /-- The line. -/
  line : Nat
  /-- The character of the line. -/
  column : Nat
  deriving DecidableEq, Repr, Inhabited

namespace Source

/-- The program of a text, cut at its line ends. -/
def ofText (text : String) : Source :=
  ⟨Text.splitLines text.toList⟩

/-- The program whose lines are the given ones, each taken as it is. -/
def ofLines (lines : List String) : Source :=
  ⟨lines.map String.toList⟩

/-- The stream of characters that the machine walks: all lines one after the other. -/
def chars (source : Source) : List Char :=
  source.lines.flatten

/-- The instruction at an index of the stream; `none` at a comment character and past the end. -/
def symbolAt? (source : Source) (index : Nat) : Option Symbol :=
  source.chars[index]?.bind Symbol.ofChar?

/-- The instructions of the program in order, comments dropped. -/
def symbols (source : Source) : List Symbol :=
  source.chars.filterMap Symbol.ofChar?

/-- The line of a number, counted from one. -/
def line? (source : Source) : Nat → Option Line
  | 0 => none
  | number + 1 => source.lines[number]?

/-- The characters of one line from the given column on, each with its location. -/
def locateLine (line : Nat) : Nat → Line → List (Location × Char)
  | _, [] => []
  | column, c :: cs => (⟨line, column⟩, c) :: locateLine line (column + 1) cs

/-- The characters of the lines from the given line number on, each with its location. -/
def locateLines : Nat → List Line → List (Location × Char)
  | _, [] => []
  | line, l :: ls => locateLine line 1 l ++ locateLines (line + 1) ls

/-- The stream of characters, each with its location. -/
def located (source : Source) : List (Location × Char) :=
  locateLines 1 source.lines

@[simp] theorem map_snd_locateLine (line column : Nat) (l : Line) :
    (locateLine line column l).map Prod.snd = l := by
  induction l generalizing column with
  | nil => rfl
  | cons c cs ih => simp [locateLine, ih]

@[simp] theorem map_snd_locateLines (line : Nat) (ls : List Line) :
    (locateLines line ls).map Prod.snd = ls.flatten := by
  induction ls generalizing line with
  | nil => rfl
  | cons l ls ih => simp [locateLines, ih]

/-- Locating the characters changes neither the characters nor their order. -/
@[simp] theorem map_snd_located (source : Source) : source.located.map Prod.snd = source.chars :=
  map_snd_locateLines 1 source.lines

end Source

end TapeMachine
