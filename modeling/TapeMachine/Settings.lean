import TapeMachine.Tape
import TapeMachine.Text.Blank

/-!
# Settings

The shape of a tape is put together from several layers, each of which may set the width of the cells,
their number, both or neither.  A layer that stands over another one wins where both set something.
What no layer sets has a default.  Only the layer that comes out on top is checked, so a bad value
under a good one does no harm.

## Main definitions

* `Setting` — the two things that can be set, with their names and their ranges.
* `Settings` — one layer.
* `SettingsError` — why settings make no tape.
* `Settings.above` — one layer over another.
* `Settings.resolve` — the shape that a layer and the defaults give.
-/

namespace TapeMachine

/-- What can be set of a tape. -/
inductive Setting
  /-- The number of bits of a cell. -/
  | cellBits
  /-- The number of cells. -/
  | memorySize
  deriving DecidableEq, Repr, Inhabited

/-- Why settings make no tape. -/
inductive SettingsError
  /-- No cell has this number of bits. -/
  | unsupportedCellBits (bits : Nat)
  /-- A tape has at least one cell. -/
  | zeroMemorySize
  /-- What is given under a name is not a number, or too great a one. -/
  | invalidNumber (name value : String)
  deriving DecidableEq, Repr

/-- The error in words. -/
def SettingsError.message : SettingsError → String
  | unsupportedCellBits bits =>
    "unsupported cell width " ++ Decimal.text bits ++ " (only 8, 16 and 32 bits available)"
  | zeroMemorySize => "memory size must be a positive integer"
  | invalidNumber name value => "invalid value for " ++ name ++ ": '" ++ value ++ "'"

namespace Setting

/-- The name of a setting in a file. -/
def key : Setting → String
  | cellBits => "cell_bits"
  | memorySize => "memory_size"

/-- The name of the environment variable for a setting. -/
def variableName : Setting → String
  | cellBits => "BF_CELL_BITS"
  | memorySize => "BF_MEMORY_SIZE"

/-- The greatest number that a setting can be given: one of 32 bits, and one of 64. -/
def bound : Setting → Nat
  | cellBits => 0xffffffff
  | memorySize => 0xffffffffffffffff

/-- The number for a setting that nothing sets. -/
def default : Setting → Nat
  | cellBits => 8
  | memorySize => 30000

/-- The number that a text gives a setting, blanks around it apart.  An error shows the text as it is,
under the name that it was given. -/
def parse (setting : Setting) (name value : String) : Except SettingsError Nat :=
  match Decimal.read? setting.bound (Text.trim value.toList) with
  | some number => .ok number
  | none => .error (.invalidNumber name value)

/-- Whether a tape can have a setting: the width must be one of the three, and the number of cells not
zero. -/
def check (number : Nat) : Setting → Except SettingsError Unit
  | cellBits =>
    match CellWidth.ofBits? number with
    | some _ => .ok ()
    | none => .error (.unsupportedCellBits number)
  | memorySize => if number = 0 then .error .zeroMemorySize else .ok ()

end Setting

/-- One layer of settings. -/
structure Settings where
  /-- The number of bits of a cell, if it is set. -/
  cellBits : Option Nat := none
  /-- The number of cells, if it is set. -/
  memorySize : Option Nat := none
  deriving DecidableEq, Repr, Inhabited

namespace Settings

/-- What a layer gives a setting. -/
def get (settings : Settings) : Setting → Option Nat
  | .cellBits => settings.cellBits
  | .memorySize => settings.memorySize

/-- One layer over another: what the upper one does not set is taken from the lower one. -/
def above (upper lower : Settings) : Settings :=
  ⟨upper.cellBits.or lower.cellBits, upper.memorySize.or lower.memorySize⟩

/-- The shape that a layer gives, with the defaults for what it does not set.  The width is checked
first. -/
def resolve (settings : Settings) : Except SettingsError Shape :=
  let bits := settings.cellBits.getD Setting.cellBits.default
  let size := settings.memorySize.getD Setting.memorySize.default
  match CellWidth.ofBits? bits with
  | none => .error (.unsupportedCellBits bits)
  | some width => if h : 0 < size then .ok ⟨width, size, h⟩ else .error .zeroMemorySize

@[simp] theorem get_above (upper lower : Settings) (setting : Setting) :
    (upper.above lower).get setting = (upper.get setting).or (lower.get setting) := by
  cases setting <;> rfl

end Settings

end TapeMachine
