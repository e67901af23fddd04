import TapeMachine.Text.Graphic

/-!
# Quoted characters

How a message shows a character: between single quotes, with a backslash escape for the characters
that could not be seen or that would end the quotation.

## Main definitions

* `Text.codePoint` — the escape that names a character by its code point.
* `Text.escape` — a character as it stands between the quotes.
* `Text.quote` — a character with its quotes.
-/

namespace TapeMachine.Text

/-- The escape that names a character by its code point, in hexadecimal and without zeros in front. -/
def codePoint (c : Char) : List Char :=
  ['\\', 'u', '\x7b'] ++ Nat.toDigits 16 c.toNat ++ ['\x7d']

/-- A character as it stands between single quotes: the usual letter escapes, a backslash before a
quote or a backslash, the code point for what is not graphic, and else itself. -/
def escape (c : Char) : List Char :=
  if c = '\x00' then ['\\', '0']
  else if c = '\t' then ['\\', 't']
  else if c = '\r' then ['\\', 'r']
  else if c = '\n' then ['\\', 'n']
  else if c = '\'' then ['\\', '\'']
  else if c = '\\' then ['\\', '\\']
  else if isGraphic c then [c]
  else codePoint c

/-- A character between single quotes. -/
def quote (c : Char) : String :=
  String.ofList ('\'' :: escape c ++ ['\''])

end TapeMachine.Text
