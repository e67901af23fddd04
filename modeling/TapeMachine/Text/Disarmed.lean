import TapeMachine.Text.Quoted

/-!
# Disarmed texts

A terminal obeys some control characters, so a text of unknown origin could change what it shows.  In a
disarmed text each of them is named instead: escape, bell, backspace, form feed and delete by two
hexadecimal digits, and the control characters from U+0080 to U+009F by their code points.  All other
characters stand for themselves.

## Main definitions

* `Text.commands` — the control characters below U+0080 that a terminal obeys.
* `Text.disarm` — a text with its control characters named.
-/

namespace TapeMachine.Text

/-- Bell, backspace, form feed, escape and delete. -/
def commands : List Char :=
  ['\x07', '\x08', '\x0c', '\x1b', '\x7f']

/-- Whether a character is a control character above the ASCII ones. -/
def isHighControl (c : Char) : Bool :=
  0x80 ≤ c.toNat && c.toNat ≤ 0x9f

/-- The escape that names a character by two hexadecimal digits. -/
def twoDigits (c : Char) : List Char :=
  ['\\', 'x', Nat.digitChar (c.toNat / 16), Nat.digitChar (c.toNat % 16)]

/-- A character, or the escape that names it if a terminal obeys it. -/
def disarmChar (c : Char) : List Char :=
  if c ∈ commands then twoDigits c
  else if isHighControl c then codePoint c
  else [c]

/-- A text with its control characters named. -/
def disarm (text : List Char) : List Char :=
  text.flatMap disarmChar

end TapeMachine.Text
