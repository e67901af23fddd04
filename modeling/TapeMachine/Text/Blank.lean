/-!
# Blank characters

The characters of Unicode's property White_Space, and texts without the blanks at their ends.

## Main definitions

* `Text.isBlank` — whether a character is white space.
* `Text.trimStart`, `Text.trim` — a text without the blanks at its start, and at both ends.
-/

namespace TapeMachine.Text

/-- Whether a character has the property White_Space. -/
def isBlank (c : Char) : Bool :=
  let code := c.toNat
  (0x9 ≤ code && code ≤ 0xd) || code == 0x20 || code == 0x85 || code == 0xa0 || code == 0x1680 ||
    (0x2000 ≤ code && code ≤ 0x200a) || code == 0x2028 || code == 0x2029 || code == 0x202f ||
    code == 0x205f || code == 0x3000

/-- A text without the blanks at its start. -/
def trimStart (text : List Char) : List Char :=
  text.dropWhile isBlank

/-- A text without the blanks at both ends. -/
def trim (text : List Char) : List Char :=
  (trimStart (trimStart text).reverse).reverse

end TapeMachine.Text
