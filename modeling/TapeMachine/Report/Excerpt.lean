import TapeMachine.Text.Decimal
import TapeMachine.Text.Lines

/-!
# Excerpts

An error in a line is shown with the part of the line around it: the characters up to `reach` places to
either side of the position, behind a gutter with the number of the line, and below them a caret under
the position.  The parts can be painted for a terminal.

Positions are 64-bit words.  A position past the end of the text so great that the end of its window is
no word makes that end wrap around, and has a window only if the text stops before the wrapped end.

## Main definitions

* `Paint`, `Paint.apply` — the colours, and a text in one of them.
* `Excerpt.window?` — the part of a line around a position.
* `Excerpt.render?` — a headline, the excerpt and the caret.
-/

namespace TapeMachine

/-- How a part of a report stands out on a terminal. -/
inductive Paint
  /-- Bold red. -/
  | alarm
  /-- Dimmed. -/
  | faint
  /-- Bold yellow. -/
  | mark
  deriving DecidableEq, Repr

namespace Paint

/-- The codes that a terminal knows a paint by. -/
def codes : Paint → String
  | alarm => "1;31"
  | faint => "2"
  | mark => "1;33"

/-- A text in a paint, or as it is if there are no colours. -/
def apply (colour : Bool) (paint : Paint) (text : List Char) : List Char :=
  if colour then "\x1b[".toList ++ paint.codes.toList ++ ['m'] ++ text ++ "\x1b[0m".toList else text

@[simp] theorem apply_false (paint : Paint) (text : List Char) : paint.apply false text = text := rfl

end Paint

namespace Excerpt

/-- How many characters are shown to either side of a position. -/
def reach : Nat := 32

/-- The number of positions that 64 bits can tell apart. -/
def positions : Nat := 0x10000000000000000

/-- The characters of a text up to `reach` places to either side of a position. -/
def around (text : List Char) (position : Nat) : List Char :=
  (text.take (position + reach + 1)).drop (position - reach)

/-- The part of a text that is shown for a position.  There is none where the end of the window is not
a position any more and lies, wrapped around, before the end of the text. -/
def window? (text : List Char) (position : Nat) : Option (List Char) :=
  if position < text.length ∨ position + reach + 1 < positions then some (around text position)
  else if text.length ≤ position + reach + 1 - positions then some []
  else none

/-- What stands in front of a line. -/
def gutter (line : Nat) : List Char :=
  Decimal.digits line ++ " | ".toList

/-- The headline, the part of the line around the column, and a caret under the column. -/
def render? (colour : Bool) (headline : List Char) (line : Nat) (text : Line) (column : Nat) :
    Option (List Char) :=
  let position := column - 1
  (window? text position).map fun shown =>
    Paint.alarm.apply colour headline ++ ['\n'] ++
      Paint.faint.apply colour (gutter line) ++ shown ++ ['\n'] ++
      List.replicate ((gutter line).length + min position reach) ' ' ++
      Paint.mark.apply colour ['^'] ++ ['\n']

end Excerpt

end TapeMachine
