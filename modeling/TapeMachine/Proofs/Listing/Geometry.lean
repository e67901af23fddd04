import Mathlib.Algebra.Order.Floor.Div
import Mathlib.Data.Nat.Digits.Lemmas
import TapeMachine.Listing

/-!
# The geometry of a listing

Every row of a listing has the same columns at the same places, whatever the tape holds.  An index of a
row is no greater than the number of cells, and a value no greater than the greatest value of a cell, so
neither has more digits than its column has places; where there is no cell, blanks keep the columns that
stand behind in their places.

## Main definitions

* `Decimal.Fills` — a number in exactly so many decimal digits.
* `Listing.line` — a row without its line end.
* `Listing.Shows` — what stands where in a row.

## Main results

* `Decimal.fills_padded` — zeros in front fill a number up to its places.
* `Listing.slice_line`, `Listing.getElem?_line` — the columns of a row.
* `Listing.shows_line` — what stands where in the rows of a listing.
* `Tape.exists_lines_listing` — a listing has the geometry that is laid down for it.
-/

namespace TapeMachine

/-! ### Numbers in columns -/

namespace Decimal

/-- A text is a number in exactly `places` decimal digits. -/
structure Fills (places number : Nat) (text : List Char) : Prop where
  /-- It has as many characters as there are places. -/
  length_eq : text.length = places
  /-- All of them are digits. -/
  isDigit : ∀ c ∈ text, c.isDigit
  /-- Together they make up the number. -/
  ofDigitChars_eq : Nat.ofDigitChars 10 text 0 = number

variable {places number bound : Nat}

theorem width_pos (number : Nat) : 0 < width number :=
  Nat.length_toDigits_pos

theorem width_le_iff (hplaces : 0 < places) : width number ≤ places ↔ number < 10 ^ places :=
  Nat.length_toDigits_le_iff (by decide) hplaces

/-- A greater number has no fewer digits. -/
theorem width_le_width (h : number ≤ bound) : width number ≤ width bound :=
  (width_le_iff (width_pos bound)).mpr
    (Nat.lt_of_le_of_lt h ((width_le_iff (width_pos bound)).mp (Nat.le_refl _)))

/-- The digits that are written are those of the decimal expansion. -/
theorem width_eq_length_digits (h : number ≠ 0) : width number = (Nat.digits 10 number).length := by
  have hpos : 0 < (Nat.digits 10 number).length :=
    List.length_pos_of_ne_nil (Nat.digits_ne_nil_iff_ne_zero.mpr h)
  apply Nat.le_antisymm
  · rw [width_le_iff hpos, ← Nat.digits_length_le_iff (by decide)]
  · rw [Nat.digits_length_le_iff (by decide), ← width_le_iff (width_pos number)]

/-- **Zeros in front fill a number up to its places**, if it has no more digits. -/
theorem fills_padded (h : width number ≤ places) : Fills places number (padded places number) where
  length_eq := by rw [length_padded, Nat.max_eq_left h]
  isDigit := by
    intro c hc
    rcases List.mem_append.mp hc with hzero | hdigit
    · rw [List.eq_of_mem_replicate hzero]
      rfl
    · exact Nat.isDigit_of_mem_toDigits (by decide) (by decide) hdigit
  ofDigitChars_eq := by
    rw [padded, Nat.ofDigitChars_append, Nat.ofDigitChars_replicate_zero, Nat.mul_zero, digits,
      Nat.ofDigitChars_ten_toDigits]

end Decimal

theorem CellWidth.cellsPerRow_pos (width : CellWidth) : 0 < width.cellsPerRow := by
  cases width <;> decide

namespace Listing

variable {tape : Tape} {number slot : Nat}

/-! ### Parts of a row -/

/-- Where pieces of one length are put together, a slice of that length is one of the pieces. -/
theorem take_drop_flatMap {α β : Type} {f : α → List β} {length : Nat} {xs : List α}
    (h : ∀ x ∈ xs, (f x).length = length) {i : Nat} {x : α} (hx : xs[i]? = some x) :
    ((xs.flatMap f).drop (i * length)).take length = f x := by
  induction xs generalizing i with
  | nil => cases hx
  | cons head rest ih =>
    have hhead : (f head).length = length := h head List.mem_cons_self
    rw [List.flatMap_cons]
    cases i with
    | zero =>
      cases hx
      rw [Nat.zero_mul, List.drop_zero, List.take_left' hhead]
    | succ i =>
      have hdrop : (i + 1) * length = (f head).length + i * length := by
        rw [hhead, Nat.succ_mul, Nat.add_comm]
      rw [hdrop, List.drop_length_add_append]
      exact ih (fun y hy => h y (List.mem_cons_of_mem head hy)) hx

/-- What stands in front of the values of a row. -/
def heading (tape : Tape) (number : Nat) : List Char :=
  Decimal.padded (addressPlaces tape) (number * tape.width.cellsPerRow) ++ [':', ' ']

/-- The values of a row. -/
def values (tape : Tape) (number : Nat) : List Char :=
  (List.range tape.width.cellsPerRow).flatMap fun slot =>
    valueSlot (valuePlaces tape) (cell? tape number slot)

/-- The characters of a row. -/
def glyphs (tape : Tape) (number : Nat) : List Char :=
  (List.range tape.width.cellsPerRow).map fun slot => glyphSlot (cell? tape number slot)

/-- A row without its line end. -/
def line (tape : Tape) (number : Nat) : List Char :=
  heading tape number ++ (values tape number ++ glyphs tape number)

theorem row_eq (tape : Tape) (number : Nat) : row tape number = line tape number ++ ['\n'] := by
  rw [row, line, heading, values, glyphs]
  simp only [List.append_assoc]

theorem toList_listing (tape : Tape) :
    tape.listing.toList = ((List.range (rowCount tape)).map (line tape)).flatMap (· ++ ['\n']) := by
  rw [Tape.listing, String.toList_ofList, chars, List.flatMap_map]
  exact List.flatMap_congr fun number _ => row_eq tape number

theorem rowCount_eq (tape : Tape) : rowCount tape = tape.size ⌈/⌉ tape.width.cellsPerRow := by
  rw [rowCount, Nat.ceilDiv_eq_add_pred_div, Nat.add_sub_assoc tape.width.cellsPerRow_pos]

/-- Every row starts with a cell. -/
theorem mul_cellsPerRow_lt (h : number < rowCount tape) :
    number * tape.width.cellsPerRow < tape.size := by
  have hpos := tape.width.cellsPerRow_pos
  rw [rowCount, Nat.lt_iff_add_one_le, Nat.le_div_iff_mul_le hpos, Nat.succ_mul] at h
  omega

/-! ### Places -/

/-- The index of a row fits into its column. -/
theorem fills_address (h : number < rowCount tape) :
    Decimal.Fills (addressPlaces tape) (number * tape.width.cellsPerRow)
      (Decimal.padded (addressPlaces tape) (number * tape.width.cellsPerRow)) :=
  Decimal.fills_padded (Decimal.width_le_width (Nat.le_of_lt (mul_cellsPerRow_lt h)))

/-- A value of a cell fits into its column. -/
theorem fills_value (htape : tape.WellFormed) {value : Nat} (h : cell? tape number slot = some value) :
    Decimal.Fills (valuePlaces tape) value (Decimal.padded (valuePlaces tape) value) := by
  have hlt : value < tape.width.modulus := htape.lt_modulus value (Array.mem_of_getElem? h)
  have hmax := tape.width.maxValue_add_one
  exact Decimal.fills_padded (Decimal.width_le_width (by omega))

theorem length_heading (h : number < rowCount tape) :
    (heading tape number).length = addressPlaces tape + 2 := by
  rw [heading, List.length_append, (fills_address h).length_eq]
  rfl

theorem length_valueSlot (htape : tape.WellFormed) (number slot : Nat) :
    (valueSlot (valuePlaces tape) (cell? tape number slot)).length = valuePlaces tape + 1 := by
  cases hcell : cell? tape number slot with
  | none => exact List.length_replicate
  | some value =>
    rw [valueSlot, List.length_append, (fills_value htape hcell).length_eq]
    rfl

theorem length_values (htape : tape.WellFormed) (number : Nat) :
    (values tape number).length = tape.width.cellsPerRow * (valuePlaces tape + 1) := by
  simp only [values, List.length_flatMap, length_valueSlot htape, List.map_const', List.length_range,
    List.sum_replicate, smul_eq_mul]

theorem length_glyphs (tape : Tape) (number : Nat) :
    (glyphs tape number).length = tape.width.cellsPerRow := by
  rw [glyphs, List.length_map, List.length_range]

theorem length_line (htape : tape.WellFormed) (h : number < rowCount tape) :
    (line tape number).length = addressPlaces tape + 2 +
      tape.width.cellsPerRow * (valuePlaces tape + 1) + tape.width.cellsPerRow := by
  rw [line, List.length_append, List.length_append, length_heading h, length_values htape,
    length_glyphs]
  exact (Nat.add_assoc _ _ _).symm

/-- **The column of a value.** -/
theorem slice_line (htape : tape.WellFormed) (h : number < rowCount tape)
    (hslot : slot < tape.width.cellsPerRow) :
    ((line tape number).drop (addressPlaces tape + 2 + slot * (valuePlaces tape + 1))).take
      (valuePlaces tape + 1) = valueSlot (valuePlaces tape) (cell? tape number slot) := by
  -- the slots up to this one lie within the values
  have hwithin : slot * (valuePlaces tape + 1) + (valuePlaces tape + 1) ≤
      (values tape number).length := by
    rw [length_values htape, ← Nat.succ_mul]
    exact Nat.mul_le_mul_right _ hslot
  rw [line, ← length_heading h, List.drop_length_add_append,
    List.drop_append_of_le_length (by omega),
    List.take_append_of_le_length (by rw [List.length_drop]; omega)]
  exact take_drop_flatMap (fun slot _ => length_valueSlot htape number slot)
    (List.getElem?_range hslot)

/-- **The column of a character.** -/
theorem getElem?_line (htape : tape.WellFormed) (h : number < rowCount tape)
    (hslot : slot < tape.width.cellsPerRow) :
    (line tape number)[addressPlaces tape + 2 + tape.width.cellsPerRow * (valuePlaces tape + 1) +
      slot]? = some (glyphSlot (cell? tape number slot)) := by
  rw [line, ← length_values htape number, ← length_heading h, Nat.add_assoc,
    List.getElem?_append_right (Nat.le_add_right _ _), Nat.add_sub_cancel_left,
    List.getElem?_append_right (Nat.le_add_right _ _), Nat.add_sub_cancel_left, glyphs,
    List.getElem?_map, List.getElem?_range hslot, Option.map_some]

/-! ### Characters -/

/-- An ASCII character that takes up a place: a space, or one that can be seen. -/
def Printable (c : Char) : Prop :=
  0x20 ≤ c.toNat ∧ c.toNat ≤ 0x7e

instance (c : Char) : Decidable (Printable c) :=
  inferInstanceAs (Decidable (_ ∧ _))

theorem printable_of_isDigit {c : Char} (h : c.isDigit) : Printable c := by
  obtain ⟨hzero, hnine⟩ := Char.isDigit_iff_toNat.mp h
  have hle : (0x20 : Nat) ≤ '0'.toNat ∧ '9'.toNat ≤ 0x7e := by decide
  exact ⟨Nat.le_trans hle.1 hzero, Nat.le_trans hnine hle.2⟩

/-- A value that is the code of a visible character is shown as that character, and any other one as a
dot. -/
theorem glyphSlot_some (value : Nat) :
    if 0x21 ≤ value ∧ value ≤ 0x7e then (glyphSlot (some value)).toNat = value
    else glyphSlot (some value) = '.' := by
  split
  · next h =>
    have hvalid : value.isValidChar := .inl (by omega)
    rw [glyphSlot, if_pos h, Char.ofNat, dif_pos hvalid]
    rfl
  · next h => rw [glyphSlot, if_neg h]

theorem printable_glyphSlot (cell : Option Nat) : Printable (glyphSlot cell) := by
  cases cell with
  | none => decide
  | some value =>
    have hglyph := glyphSlot_some value
    split at hglyph
    · next h =>
      rw [Printable, hglyph]
      omega
    · next h =>
      rw [hglyph]
      decide

theorem printable_of_mem_valueSlot (htape : tape.WellFormed) {c : Char}
    (hc : c ∈ valueSlot (valuePlaces tape) (cell? tape number slot)) : Printable c := by
  cases hcell : cell? tape number slot with
  | none =>
    rw [hcell] at hc
    rw [List.eq_of_mem_replicate hc]
    decide
  | some value =>
    rw [hcell] at hc
    rcases List.mem_append.mp hc with hdigit | hspace
    · exact printable_of_isDigit ((fills_value htape hcell).isDigit c hdigit)
    · rw [List.mem_singleton.mp hspace]
      decide

theorem printable_of_mem_line (htape : tape.WellFormed) (h : number < rowCount tape) {c : Char}
    (hc : c ∈ line tape number) : Printable c := by
  rcases List.mem_append.mp hc with hheading | hcells
  · rcases List.mem_append.mp hheading with hdigit | hcolon
    · exact printable_of_isDigit ((fills_address h).isDigit c hdigit)
    · rcases List.mem_pair.mp hcolon with rfl | rfl <;> decide
  · rcases List.mem_append.mp hcells with hvalue | hglyph
    · obtain ⟨slot, -, hslot⟩ := List.mem_flatMap.mp hvalue
      exact printable_of_mem_valueSlot htape hslot
    · obtain ⟨slot, -, rfl⟩ := List.mem_map.mp hglyph
      exact printable_glyphSlot _

/-! ### Rows -/

/-- What stands where in the row of a number, where an address has `a` digits and a value `v`: the
address, the values of the cells, each with a space behind it, and the cells as characters. -/
structure Shows (tape : Tape) (a v number : Nat) (text : List Char) : Prop where
  /-- All rows are of one length. -/
  length_eq : text.length = a + 2 + tape.width.cellsPerRow * (v + 1) + tape.width.cellsPerRow
  /-- They consist of ASCII characters, and there is no line end among them. -/
  printable : ∀ c ∈ text, Printable c
  /-- A row starts with the index of its first cell. -/
  address : ∃ digits rest, text = digits ++ [':', ' '] ++ rest ∧
    Decimal.Fills a (number * tape.width.cellsPerRow) digits
  /-- The value of a cell stands in its column. -/
  value : ∀ slot < tape.width.cellsPerRow, ∀ value,
    tape.cells[number * tape.width.cellsPerRow + slot]? = some value →
      ∃ digits, (text.drop (a + 2 + slot * (v + 1))).take (v + 1) = digits ++ [' '] ∧
        Decimal.Fills v value digits
  /-- The column is blank where there is no cell. -/
  value_blank : ∀ slot < tape.width.cellsPerRow,
    tape.size ≤ number * tape.width.cellsPerRow + slot →
      (text.drop (a + 2 + slot * (v + 1))).take (v + 1) = List.replicate (v + 1) ' '
  /-- The character of a cell stands in its column: itself if it can be seen, and else a dot. -/
  glyph : ∀ slot < tape.width.cellsPerRow, ∀ value,
    tape.cells[number * tape.width.cellsPerRow + slot]? = some value →
      ∃ c, text[a + 2 + tape.width.cellsPerRow * (v + 1) + slot]? = some c ∧
        if 0x21 ≤ value ∧ value ≤ 0x7e then c.toNat = value else c = '.'
  /-- The column is blank where there is no cell. -/
  glyph_blank : ∀ slot < tape.width.cellsPerRow,
    tape.size ≤ number * tape.width.cellsPerRow + slot →
      text[a + 2 + tape.width.cellsPerRow * (v + 1) + slot]? = some ' '

/-- **What stands where in the rows of a listing.** -/
theorem shows_line (htape : tape.WellFormed) (h : number < rowCount tape) :
    Shows tape (addressPlaces tape) (valuePlaces tape) number (line tape number) where
  length_eq := length_line htape h
  printable _ hc := printable_of_mem_line htape h hc
  address := ⟨_, _, rfl, fills_address h⟩
  value slot hslot value hcell := by
    rw [slice_line htape h hslot, cell?, hcell]
    exact ⟨_, rfl, fills_value htape hcell⟩
  value_blank slot hslot hsize := by
    rw [slice_line htape h hslot, cell?, Array.getElem?_eq_none hsize]
    rfl
  glyph slot hslot value hcell := by
    rw [getElem?_line htape h hslot, cell?, hcell]
    exact ⟨_, rfl, glyphSlot_some value⟩
  glyph_blank slot hslot hsize := by
    rw [getElem?_line htape h hslot, cell?, Array.getElem?_eq_none hsize]
    rfl

end Listing

/-- **A listing has the geometry that is laid down for it.**  It consists of as many rows as it takes to
show all cells, each with a line end.  Where an address has as many digits as the number of cells, and a
value as many as the greatest value of a cell, every row has its address, its values and its characters
at the same places, and blanks where the last row lacks a cell. -/
theorem Tape.exists_lines_listing {tape : Tape} (h : tape.WellFormed) :
    ∃ lines : List (List Char), tape.listing.toList = lines.flatMap (· ++ ['\n']) ∧
      lines.length = tape.size ⌈/⌉ tape.width.cellsPerRow ∧
      ∀ number line, lines[number]? = some line →
        Listing.Shows tape (Nat.digits 10 tape.size).length
          (Nat.digits 10 tape.width.maxValue).length number line := by
  have haddress : Listing.addressPlaces tape = (Nat.digits 10 tape.size).length :=
    Decimal.width_eq_length_digits (Nat.ne_of_gt h.size_pos)
  have hvalue : Listing.valuePlaces tape = (Nat.digits 10 tape.width.maxValue).length := by
    refine Decimal.width_eq_length_digits ?_
    cases tape.width <;> decide
  refine ⟨_, Listing.toList_listing tape, ?_, fun number line hline => ?_⟩
  · rw [List.length_map, List.length_range, Listing.rowCount_eq]
  · obtain ⟨hlt, rfl⟩ := List.getElem?_eq_some_iff.mp hline
    rw [List.length_map, List.length_range] at hlt
    rw [List.getElem_map, List.getElem_range, ← haddress, ← hvalue]
    exact Listing.shows_line h hlt

/-- The second row of ten cells has two of them, and its index needs a zero in front. -/
theorem Tape.exists_lines_listing_of_ten_cells :
    (⟨.bits16, #[72, 0x20ac, 0x20, 0x7f, 9, 0xffff, 0, 0x21, 0x7e, 105], 3⟩ : Tape).WellFormed ∧
    ∃ lines : List (List Char),
      (⟨.bits16, #[72, 0x20ac, 0x20, 0x7f, 9, 0xffff, 0, 0x21, 0x7e, 105], 3⟩ : Tape).listing.toList =
        lines.flatMap (· ++ ['\n']) ∧ lines.length = 2 ∧
      ∀ number line, lines[number]? = some line →
        Listing.Shows ⟨.bits16, #[72, 0x20ac, 0x20, 0x7f, 9, 0xffff, 0, 0x21, 0x7e, 105], 3⟩ 2 5 number
          line := by
  have htape : Tape.WellFormed
      ⟨.bits16, #[72, 0x20ac, 0x20, 0x7f, 9, 0xffff, 0, 0x21, 0x7e, 105], 3⟩ := ⟨by decide, by decide⟩
  obtain ⟨lines, hlisting, hlength, hshows⟩ := Tape.exists_lines_listing htape
  refine ⟨htape, lines, hlisting, hlength, ?_⟩
  simpa [Tape.size, CellWidth.maxValue, CellWidth.modulus] using hshows

example : (⟨.bits32, #[97, 98, 0, 0, 0, 0xffffffff], 0⟩ : Tape).listing =
    "0: 0000000097 0000000098 0000000000 0000000000 ab..\n" ++
    "4: 0000000000 4294967295                       ..  \n" := by
  decide

end TapeMachine
