import TapeMachine.Text.Decimal
import TapeMachine.Utf8

/-!
# Cells

A cell holds a natural number below a power of two: 8, 16 or 32 bits.  The width also decides how a
cell meets the outside.  An 8-bit cell is one byte of input or output.  A wider cell is a code point:
it is read as one character of UTF-8 input and written as one character of UTF-8 output.

## Main definitions

* `CellWidth` — the three widths.
* `CellWidth.modulus`, `CellWidth.maxValue` — the number of values, and the greatest of them.
* `CellWidth.encode`, `CellWidth.decode?` — the bytes a cell is written as, and the value that the next
  input bytes are read as.
* `CellWidth.decodeAll` — all values of an input.
-/

namespace TapeMachine

/-- How many bits a cell has. -/
inductive CellWidth
  /-- One byte. -/
  | bits8
  /-- Two bytes. -/
  | bits16
  /-- Four bytes. -/
  | bits32
  deriving DecidableEq, Repr, Inhabited

namespace CellWidth

/-- The number of bits. -/
def bits : CellWidth → Nat
  | bits8 => 8
  | bits16 => 16
  | bits32 => 32

/-- The width with a number of bits, if there is one. -/
def ofBits? : Nat → Option CellWidth
  | 8 => some bits8
  | 16 => some bits16
  | 32 => some bits32
  | _ => none

/-- The number of values that a cell can hold. -/
def modulus : CellWidth → Nat
  | bits8 => 256
  | bits16 => 65536
  | bits32 => 4294967296

/-- The greatest value that a cell can hold. -/
def maxValue (width : CellWidth) : Nat :=
  width.modulus - 1

/-- The width in words. -/
def text (width : CellWidth) : String :=
  Decimal.text width.bits ++ "-bit"

/-- The bytes that a cell is written as: the low byte of an 8-bit cell, and the character of a wider
one. -/
def encode : CellWidth → Nat → List UInt8
  | bits8, value => [UInt8.ofNat value]
  | _, value => Utf8.encode value

/-- The value that the next input is read as; `none` at its end.  No character is longer than four
bytes, so no more are looked at. -/
def decode? : CellWidth → List UInt8 → Option Decoded
  | bits8, input => input.head?.map fun byte => ⟨byte.toNat, 1⟩
  | _, input => Utf8.first? (input.take 4)

/-- The values that at most `count` readings find in an input. -/
def decodeUpTo (width : CellWidth) : Nat → List UInt8 → List Decoded
  | 0, _ => []
  | count + 1, input =>
    match width.decode? input with
    | none => []
    | some decoded => decoded :: decodeUpTo width count (input.drop decoded.used)

/-- The values that an input is read as, one after the other.  Each covers at least one byte, so there
are no more of them than bytes. -/
def decodeAll (width : CellWidth) (input : List UInt8) : List Decoded :=
  width.decodeUpTo input.length input

theorem modulus_pos (width : CellWidth) : 0 < width.modulus := by
  cases width <;> decide

theorem maxValue_add_one (width : CellWidth) : width.maxValue + 1 = width.modulus := by
  cases width <;> rfl

theorem ofBits?_eq_some_iff {bits : Nat} {width : CellWidth} :
    ofBits? bits = some width ↔ bits = width.bits := by
  constructor
  · intro h
    unfold ofBits? at h
    split at h <;> cases h <;> rfl
  · rintro rfl
    cases width <;> rfl

end CellWidth

end TapeMachine
