/-!
# Lines of a text

A text is cut into lines at its line feeds.  One carriage return directly before a line feed belongs
to the line end and not to the line, so both usual line ends cut alike.  Nothing else ends a line.
A text that ends with a line feed has no empty line after it, and a last line without a line feed
keeps every character it has.

## Main definitions

* `Line` — the characters of one line.
* `Text.splitLines` — the lines of a text.
-/

namespace TapeMachine

/-- The characters of one line. -/
abbrev Line := List Char

namespace Text

/-- A line read so far, last character first, as it stands when a line feed follows: without the
carriage return that it may end with. -/
def endLine : List Char → Line
  | '\r' :: before => before.reverse
  | before => before.reverse

/-- The lines of `current.reverse ++ text`, where `current` holds no line feed: the part of the first
line that is read already, last character first. -/
def splitLinesFrom (current : List Char) : List Char → List Line
  | [] => if current.isEmpty then [] else [current.reverse]
  | '\n' :: text => endLine current :: splitLinesFrom [] text
  | c :: text => splitLinesFrom (c :: current) text

/-- The lines of a text. -/
def splitLines (text : List Char) : List Line :=
  splitLinesFrom [] text

@[simp] theorem splitLines_nil : splitLines [] = [] := rfl

end Text

end TapeMachine
