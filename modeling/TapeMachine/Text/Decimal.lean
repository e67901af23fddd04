/-!
# Decimal numbers

Writing a natural number in decimal, with or without zeros in front, and reading one back.  Reading
is strict: an optional plus sign, then ASCII digits and nothing else, and a number above the given
bound is refused.

## Main definitions

* `Decimal.digits`, `Decimal.padded` — the digits of a number, and the same filled up with zeros.
* `Decimal.width` — how many digits a number has.
* `Decimal.read?` — the number that a text spells, if it spells one within a bound.
-/

namespace TapeMachine.Decimal

/-- The decimal digits of a number. -/
def digits (n : Nat) : List Char :=
  Nat.toDigits 10 n

/-- How many decimal digits a number has. -/
def width (n : Nat) : Nat :=
  (digits n).length

/-- The decimal digits of a number, with zeros in front up to `places` digits. -/
def padded (places n : Nat) : List Char :=
  List.replicate (places - width n) '0' ++ digits n

/-- A number in decimal, as text. -/
def text (n : Nat) : String :=
  String.ofList (digits n)

theorem length_padded (places n : Nat) : (padded places n).length = max places (width n) := by
  simp only [padded, List.length_append, List.length_replicate, width]
  omega

/-- The number that `value` and then the digits of a text spell; `none` at a character that is no
digit. -/
def readDigits : Nat → List Char → Option Nat
  | value, [] => some value
  | value, c :: cs =>
    if c.isDigit then readDigits (10 * value + (c.toNat - '0'.toNat)) cs else none

/-- A text without the plus sign that it may start with. -/
def dropPlus : List Char → List Char
  | '+' :: rest => rest
  | text => text

/-- The number that a text spells: an optional plus sign, then at least one digit.  A number above
`bound` is refused. -/
def read? (bound : Nat) (text : List Char) : Option Nat :=
  match dropPlus text with
  | [] => none
  | c :: cs => (readDigits 0 (c :: cs)).filter (· ≤ bound)

end TapeMachine.Decimal
