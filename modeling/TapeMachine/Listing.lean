import TapeMachine.Tape

/-!
# Listings of a tape

A listing shows all cells of a tape, a fixed number of them in each row.  A row starts with the index
of its first cell, then come the values, then the same cells as characters.  All columns have the same
place in every row: indices are filled up to the digits of the tape's size, values to the digits of the
greatest value of a cell, and a cell that the last row lacks is left blank in both columns.

## Main definitions

* `CellWidth.cellsPerRow` — how many cells a row shows.
* `Listing.row` — one row.
* `Tape.listing` — the whole listing.
-/

namespace TapeMachine

/-- How many cells of a width a row shows. -/
def CellWidth.cellsPerRow : CellWidth → Nat
  | bits8 => 12
  | bits16 => 8
  | bits32 => 4

namespace Listing

/-- The place of a cell among the values of a row: its value in `places` digits and a space, or as many
blanks where there is no cell. -/
def valueSlot (places : Nat) : Option Nat → List Char
  | some value => Decimal.padded places value ++ [' ']
  | none => List.replicate (places + 1) ' '

/-- The place of a cell among the characters of a row: itself if it is a visible ASCII character, a dot
if it is none, and a blank where there is no cell. -/
def glyphSlot : Option Nat → Char
  | some value => if 0x21 ≤ value ∧ value ≤ 0x7e then Char.ofNat value else '.'
  | none => ' '

/-- The digits of an index in the listing of a tape. -/
def addressPlaces (tape : Tape) : Nat :=
  Decimal.width tape.size

/-- The digits of a value in the listing of a tape. -/
def valuePlaces (tape : Tape) : Nat :=
  Decimal.width tape.width.maxValue

/-- The cell of a slot in a row, if the tape goes that far. -/
def cell? (tape : Tape) (row slot : Nat) : Option Nat :=
  tape.cells[row * tape.width.cellsPerRow + slot]?

/-- One row of a listing, with its line end. -/
def row (tape : Tape) (number : Nat) : List Char :=
  let slots := List.range tape.width.cellsPerRow
  Decimal.padded (addressPlaces tape) (number * tape.width.cellsPerRow) ++ [':', ' '] ++
    slots.flatMap (fun slot => valueSlot (valuePlaces tape) (cell? tape number slot)) ++
    slots.map (fun slot => glyphSlot (cell? tape number slot)) ++ ['\n']

/-- The number of rows that show all cells. -/
def rowCount (tape : Tape) : Nat :=
  (tape.size + (tape.width.cellsPerRow - 1)) / tape.width.cellsPerRow

/-- The characters of a listing. -/
def chars (tape : Tape) : List Char :=
  (List.range (rowCount tape)).flatMap (row tape)

end Listing

/-- The listing of a tape. -/
def Tape.listing (tape : Tape) : String :=
  String.ofList (Listing.chars tape)

end TapeMachine
