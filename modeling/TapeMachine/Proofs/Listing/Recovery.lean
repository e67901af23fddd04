import TapeMachine.Proofs.Lines
import TapeMachine.Proofs.Listing.Geometry
import TapeMachine.Proofs.Settings.Numbers

/-!
# Reading a listing back

A listing nowhere says how wide the cells are and how many there are, but its geometry does.  An address
ends at the first colon of a row, because there are only digits in front of it; the width is the one whose
cells take up what is left of the row, which differs for the three widths; and a column without a value is
one where the tape has no cell.  So all of a tape but its pointer can be read off its listing.

## Main definitions

* `CellWidth.ofRowPlaces?` — the width of the cells in a row of a length.
* `Listing.readLine`, `Listing.read?` — the values in a row, and the width and the values in a listing.

## Main results

* `Listing.Shows.readLine_eq` — the values in a row are those of its cells.
* `Listing.read?_listing` — what is read off a listing is what it shows.
* `Tape.listing_eq_iff` — a listing loses nothing but the pointer.
-/

namespace TapeMachine

namespace CellWidth

/-- The number of characters that the cells of a row take up, as values and as characters. -/
def rowPlaces (width : CellWidth) : Nat :=
  width.cellsPerRow * (Decimal.width width.maxValue + 1) + width.cellsPerRow

/-- The width whose cells take up so many characters of a row. -/
def ofRowPlaces? (places : Nat) : Option CellWidth :=
  [bits8, bits16, bits32].find? fun width => width.rowPlaces == places

/-- No two widths take up as many. -/
theorem ofRowPlaces?_rowPlaces (width : CellWidth) : ofRowPlaces? width.rowPlaces = some width := by
  cases width <;> decide

end CellWidth

namespace Decimal

variable {places number bound : Nat} {text : List Char}

/-- A number in a column is read back. -/
theorem Fills.read?_eq (h : Fills places number text) (hplaces : 0 < places) (hbound : number ≤ bound) :
    read? bound text = some number := by
  have hne : text ≠ [] := List.ne_nil_of_length_pos (h.length_eq ▸ hplaces)
  exact read?_eq_some_iff.mpr ⟨⟨text, .inl rfl, hne, h.isDigit, h.ofDigitChars_eq⟩, hbound⟩

/-- A blank column holds no number. -/
theorem read?_replicate_space (hplaces : 0 < places) :
    read? bound (List.replicate places ' ') = none := by
  obtain ⟨n, rfl⟩ := Nat.exists_eq_succ_of_ne_zero (Nat.ne_of_gt hplaces)
  rfl

end Decimal

namespace Listing

/-! ### The reader -/

/-- Where the cells of a row start: behind the address, a colon and a space. -/
def cellsStart (line : Line) : Nat :=
  (line.takeWhile (· != ':')).length + 2

/-- The values in the columns of a row. -/
def readLine (width : CellWidth) (line : Line) : List Nat :=
  let places := Decimal.width width.maxValue
  (List.range width.cellsPerRow).filterMap fun slot =>
    Decimal.read? width.maxValue ((line.drop (cellsStart line + slot * (places + 1))).take places)

/-- The width of the cells and their values, as a listing shows them; `none` if the first row is as long
as no row of a listing. -/
def read? (text : String) : Option (CellWidth × List Nat) :=
  let lines := Text.splitLines text.toList
  lines.head?.bind fun first =>
    (CellWidth.ofRowPlaces? (first.length - cellsStart first)).map fun width =>
      (width, lines.flatMap (readLine width))

/-! ### Cells in rows -/

/-- The cells of a tape from an index on, at most so many of them. -/
theorem filterMap_range_getElem? (cells : List Nat) (start count : Nat) :
    (List.range count).filterMap (fun slot => cells[start + slot]?) =
      (cells.drop start).take count := by
  induction count with
  | zero => rfl
  | succ count ih =>
    rw [List.range_succ, List.filterMap_append, ih, List.take_add_one, List.getElem?_drop]
    cases hcell : cells[start + count]? <;> simp [hcell]

/-- Row after row there are the cells in the order in which they stand on the tape. -/
theorem flatMap_range_rows (cells : List Nat) (rows perRow : Nat) :
    (List.range rows).flatMap (fun number => (cells.drop (number * perRow)).take perRow) =
      cells.take (rows * perRow) := by
  induction rows with
  | zero => rw [Nat.zero_mul]; rfl
  | succ rows ih =>
    rw [List.range_succ, List.flatMap_append, ih, List.flatMap_singleton, Nat.succ_mul, List.take_add]

/-! ### One row -/

namespace Shows

variable {tape : Tape} {a v number : Nat} {line : List Char}

/-- There is no colon in front of the one behind the address. -/
theorem cellsStart_eq (h : Shows tape a v number line) : cellsStart line = a + 2 := by
  obtain ⟨digits, rest, rfl, hdigits⟩ := h.address
  have hcolon : ∀ c ∈ digits, (c != ':') = true := by
    intro c hc
    rw [bne_iff_ne]
    rintro rfl
    exact absurd (hdigits.isDigit ':' hc) (by decide)
  rw [cellsStart, List.append_assoc, List.takeWhile_append_of_pos hcolon, List.length_append,
    hdigits.length_eq]
  rfl

/-- The rest of a row is taken up by its cells. -/
theorem length_sub_cellsStart (h : Shows tape a (valuePlaces tape) number line) :
    line.length - cellsStart line = tape.width.rowPlaces := by
  rw [h.cellsStart_eq, h.length_eq, Nat.add_assoc, Nat.add_sub_cancel_left]
  rfl

/-- A column holds the value of its cell, and none where there is no cell. -/
theorem read?_column (htape : tape.WellFormed) (h : Shows tape a (valuePlaces tape) number line)
    {slot : Nat} (hslot : slot < tape.width.cellsPerRow) :
    Decimal.read? tape.width.maxValue
      ((line.drop (a + 2 + slot * (valuePlaces tape + 1))).take (valuePlaces tape)) =
        tape.cells[number * tape.width.cellsPerRow + slot]? := by
  have hpos : 0 < valuePlaces tape := Decimal.width_pos _
  -- the column without the space behind it
  have hcolumn : ∀ {column : List Char},
      (line.drop (a + 2 + slot * (valuePlaces tape + 1))).take (valuePlaces tape + 1) = column →
        (line.drop (a + 2 + slot * (valuePlaces tape + 1))).take (valuePlaces tape) =
          column.take (valuePlaces tape) := by
    rintro column rfl
    rw [List.take_take, Nat.min_eq_left (Nat.le_succ _)]
  cases hcell : tape.cells[number * tape.width.cellsPerRow + slot]? with
  | none =>
    have hsize := Array.getElem?_eq_none_iff.mp hcell
    rw [hcolumn (h.value_blank slot hslot hsize), List.take_replicate, Nat.min_eq_left (Nat.le_succ _)]
    exact Decimal.read?_replicate_space hpos
  | some value =>
    obtain ⟨digits, hdigits, hfills⟩ := h.value slot hslot value hcell
    have hlt : value < tape.width.modulus := htape.lt_modulus value (Array.mem_of_getElem? hcell)
    have hmax := tape.width.maxValue_add_one
    rw [hcolumn hdigits, List.take_left' hfills.length_eq]
    exact hfills.read?_eq hpos (by omega)

/-- **The values in a row are those of its cells.** -/
theorem readLine_eq (htape : tape.WellFormed) (h : Shows tape a (valuePlaces tape) number line) :
    readLine tape.width line =
      (tape.cells.toList.drop (number * tape.width.cellsPerRow)).take tape.width.cellsPerRow := by
  rw [← filterMap_range_getElem?, readLine]
  refine List.filterMap_congr fun slot hslot => ?_
  rw [h.cellsStart_eq, Array.getElem?_toList]
  exact h.read?_column htape (List.mem_range.mp hslot)

/-- A row is a line. -/
theorem isLine (h : Shows tape a v number line) : '\n' ∉ line ∧ line.getLast? ≠ some '\r' := by
  constructor
  · intro hmem
    exact absurd (h.printable '\n' hmem) (by decide)
  · intro hlast
    exact absurd (h.printable '\r' (List.mem_of_getLast? hlast)) (by decide)

end Shows

/-! ### The whole listing -/

variable {tape : Tape}

/-- The lines of a listing are its rows. -/
theorem splitLines_listing (htape : tape.WellFormed) :
    Text.splitLines tape.listing.toList = (List.range (rowCount tape)).map (line tape) := by
  rw [toList_listing]
  refine Text.splitLines_flatMap fun row hrow => ?_
  obtain ⟨number, hnumber, rfl⟩ := List.mem_map.mp hrow
  exact (shows_line htape (List.mem_range.mp hnumber)).isLine

/-- There is a first row, because there is a first cell. -/
theorem rowCount_pos (htape : tape.WellFormed) : 0 < rowCount tape := by
  have hpos := tape.width.cellsPerRow_pos
  have hsize := htape.size_pos
  exact Nat.div_pos (by omega) hpos

/-- The rows show all cells. -/
theorem size_le_rowCount_mul (tape : Tape) :
    tape.size ≤ rowCount tape * tape.width.cellsPerRow := by
  rw [rowCount_eq, Nat.mul_comm]
  exact le_smul_ceilDiv tape.width.cellsPerRow_pos

/-- **What is read off a listing is what it shows**: the width and the cells of its tape. -/
theorem read?_listing (htape : tape.WellFormed) :
    read? tape.listing = some (tape.width, tape.cells.toList) := by
  have hfirst := shows_line htape (rowCount_pos htape)
  have hhead : ((List.range (rowCount tape)).map (line tape)).head? = some (line tape 0) := by
    obtain ⟨rows, hrows⟩ := Nat.exists_eq_succ_of_ne_zero (Nat.ne_of_gt (rowCount_pos htape))
    rw [hrows, List.range_succ_eq_map]
    rfl
  have hvalues : (List.range (rowCount tape)).flatMap (fun number =>
      readLine tape.width (line tape number)) = tape.cells.toList := by
    have hrows : ∀ number ∈ List.range (rowCount tape), readLine tape.width (line tape number) =
        (tape.cells.toList.drop (number * tape.width.cellsPerRow)).take tape.width.cellsPerRow :=
      fun number hnumber => (shows_line htape (List.mem_range.mp hnumber)).readLine_eq htape
    rw [List.flatMap_congr hrows, flatMap_range_rows]
    exact List.take_of_length_le (size_le_rowCount_mul tape)
  simp only [read?, splitLines_listing htape, hhead, Option.bind_some, hfirst.length_sub_cellsStart,
    CellWidth.ofRowPlaces?_rowPlaces, Option.map_some, List.flatMap_map, hvalues]

end Listing

/-- **A listing loses nothing but the pointer.**  The width and the cells of a tape can be read off its
listing.  So two tapes have the same listing exactly if they have the same width, as many cells and the
same values in them. -/
theorem Tape.listing_eq_iff {tape tape' : Tape} (h : tape.WellFormed) (h' : tape'.WellFormed) :
    Listing.read? tape.listing = some (tape.width, tape.cells.toList) ∧
    (tape.listing = tape'.listing ↔
      tape.width = tape'.width ∧ tape.size = tape'.size ∧ tape.cells = tape'.cells) := by
  refine ⟨Listing.read?_listing h, fun hlisting => ?_, ?_⟩
  · have hread : some (tape.width, tape.cells.toList) = some (tape'.width, tape'.cells.toList) := by
      rw [← Listing.read?_listing h, hlisting, Listing.read?_listing h']
    obtain ⟨hwidth, hcells⟩ := Prod.mk.inj (Option.some.inj hread)
    have heq : tape.cells = tape'.cells := Array.toList_inj.mp hcells
    exact ⟨hwidth, congrArg Array.size heq, heq⟩
  · rintro ⟨hwidth, -, hcells⟩
    obtain ⟨width, cells, pointer⟩ := tape
    obtain ⟨width', cells', pointer'⟩ := tape'
    cases hwidth
    cases hcells
    rfl

/-- Tapes of one cell, of 8 and of 32 bits, and one of 8 bits with a cell more: what can be read off the
listings is not the same. -/
theorem Tape.listing_eq_iff_of_one_cell :
    ((⟨.bits8, #[58], 0⟩ : Tape).WellFormed ∧ (⟨.bits32, #[58], 0⟩ : Tape).WellFormed ∧
      (⟨.bits8, #[58, 58], 1⟩ : Tape).WellFormed) ∧
    Listing.read? (⟨.bits8, #[58], 0⟩ : Tape).listing = some (.bits8, [58]) ∧
    (⟨.bits8, #[58], 0⟩ : Tape).listing ≠ (⟨.bits32, #[58], 0⟩ : Tape).listing ∧
    (⟨.bits8, #[58], 0⟩ : Tape).listing ≠ (⟨.bits8, #[58, 58], 1⟩ : Tape).listing := by
  have hnarrow : (⟨.bits8, #[58], 0⟩ : Tape).WellFormed := ⟨by decide, by decide⟩
  have hwide : (⟨.bits32, #[58], 0⟩ : Tape).WellFormed := ⟨by decide, by decide⟩
  have hlonger : (⟨.bits8, #[58, 58], 1⟩ : Tape).WellFormed := ⟨by decide, by decide⟩
  obtain ⟨hread, hiff⟩ := Tape.listing_eq_iff hnarrow hwide
  obtain ⟨-, hiff'⟩ := Tape.listing_eq_iff hnarrow hlonger
  refine ⟨⟨hnarrow, hwide, hlonger⟩, hread, fun heq => ?_, fun heq => ?_⟩
  · exact absurd (hiff.mp heq).1 (by decide)
  · exact absurd (hiff'.mp heq).2.1 (by decide)

end TapeMachine
