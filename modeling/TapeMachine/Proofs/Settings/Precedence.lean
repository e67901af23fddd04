import TapeMachine.Proofs.Settings.Numbers
import TapeMachine.Settings.Load

/-!
# Which layer gives a setting

The flags stand over the environment, the environment over the settings file, and the file over the
defaults.  A bad value in the environment is an error, but only where no flag stands over it; then it
comes before everything that can be wrong with the values themselves.

Here the layers are described without the functions that put them together: `Chosen` says which number
a setting is given and by which layer, `Faulty` says which value of the environment is an error, and
`Verdict` puts what can go wrong in order.

## Main definitions

* `Settings.Chosen`, `Settings.Faulty` — what the layers give one setting.
* `Settings.Verdict` — what comes of all the settings together.

## Main results

* `Settings.underFlags_congr` — under a flag, the environment is not looked at.
* `Settings.exists_underFlags_eq_ok` — without a faulty value, there is a layer for the environment, and
  with it the numbers are the chosen ones.
* `Settings.exists_verdict` — there always is a verdict.
* `Settings.load_shape_eq_iff_verdict` — what is loaded is the verdict.
-/

namespace TapeMachine.Settings

/-- The number that a setting is given: that of the uppermost layer that has one. -/
inductive Chosen (flags : Settings) (lookup : String → Option String) (file : Settings)
    (setting : Setting) : Nat → Prop
  /-- The flags come first. -/
  | flag {number : Nat} (hflag : flags.get setting = some number) :
      Chosen flags lookup file setting number
  /-- The environment comes next. -/
  | environment {value : String} {number : Nat} (hflag : flags.get setting = none)
      (hvalue : lookup setting.variableName = some value) (hreads : setting.Reads value number) :
      Chosen flags lookup file setting number
  /-- The settings file comes after the environment. -/
  | file {number : Nat} (hflag : flags.get setting = none)
      (hvalue : lookup setting.variableName = none) (hfile : file.get setting = some number) :
      Chosen flags lookup file setting number
  /-- What no layer gives has a default. -/
  | default (hflag : flags.get setting = none) (hvalue : lookup setting.variableName = none)
      (hfile : file.get setting = none) : Chosen flags lookup file setting setting.default

/-- The variable of a setting that no flag gives holds a value that is no number for it. -/
def Faulty (flags : Settings) (lookup : String → Option String) (setting : Setting) (value : String) :
    Prop :=
  flags.get setting = none ∧ lookup setting.variableName = some value ∧
    ∀ number, ¬ setting.Reads value number

/-- What comes of the settings.  The errors are in order: the environment before the numbers, and the
width of a cell before the number of cells. -/
inductive Verdict (flags : Settings) (lookup : String → Option String) (file : Settings) :
    Except SettingsError Shape → Prop
  /-- The variable for the width is faulty. -/
  | faultyCellBits {value : String} (hbits : Faulty flags lookup .cellBits value) :
      Verdict flags lookup file (.error (.invalidNumber "BF_CELL_BITS" value))
  /-- The variable for the number of cells is faulty, and that for the width is not. -/
  | faultyMemorySize {value : String} (hbits : ∀ value, ¬ Faulty flags lookup .cellBits value)
      (hsize : Faulty flags lookup .memorySize value) :
      Verdict flags lookup file (.error (.invalidNumber "BF_MEMORY_SIZE" value))
  /-- The width that is chosen is none of the three. -/
  | unsupportedCellBits {bits : Nat} (hsound : ∀ setting value, ¬ Faulty flags lookup setting value)
      (hbits : Chosen flags lookup file .cellBits bits) (hother : bits ∉ [8, 16, 32]) :
      Verdict flags lookup file (.error (.unsupportedCellBits bits))
  /-- The number of cells that is chosen is zero, for a width that there is. -/
  | zeroMemorySize {bits : Nat} (hsound : ∀ setting value, ¬ Faulty flags lookup setting value)
      (hbits : Chosen flags lookup file .cellBits bits) (hwidth : bits ∈ [8, 16, 32])
      (hsize : Chosen flags lookup file .memorySize 0) :
      Verdict flags lookup file (.error .zeroMemorySize)
  /-- The shape is the one that is chosen. -/
  | shape {shape : Shape} (hsound : ∀ setting value, ¬ Faulty flags lookup setting value)
      (hbits : Chosen flags lookup file .cellBits shape.width.bits)
      (hsize : Chosen flags lookup file .memorySize shape.size) :
      Verdict flags lookup file (.ok shape)

variable {flags file settings : Settings} {lookup lookup' : String → Option String}
  {text : Option String} {setting : Setting} {value : String} {bits : Nat}

/-! ### One setting -/

theorem askFor_of_faulty (h : Faulty flags lookup setting value) :
    (askFor setting (flags.get setting) lookup).result =
      .error (.invalidNumber setting.variableName value) := by
  obtain ⟨hflag, hvalue, hreads⟩ := h
  have hparse : setting.parse setting.variableName value =
      .error (.invalidNumber setting.variableName value) := Setting.parse_eq_error_iff.mpr ⟨hreads, rfl⟩
  simp [askFor, hflag, hvalue, hparse, Except.map]

theorem chosen_iff_of_flag {number number' : Nat} (hflag : flags.get setting = some number) :
    Chosen flags lookup file setting number' ↔ number = number' := by
  constructor
  · intro hchosen
    cases hchosen with
    | flag hflag' => exact Option.some.inj (hflag.symm.trans hflag')
    | environment hflag' => simp [hflag] at hflag'
    | file hflag' => simp [hflag] at hflag'
    | default hflag' => simp [hflag] at hflag'
  · rintro rfl
    exact .flag hflag

theorem chosen_iff_of_reads {number number' : Nat} (hflag : flags.get setting = none)
    (hvalue : lookup setting.variableName = some value) (hreads : setting.Reads value number) :
    Chosen flags lookup file setting number' ↔ number = number' := by
  constructor
  · intro hchosen
    cases hchosen with
    | flag hflag' => simp [hflag] at hflag'
    | environment _ hvalue' hreads' =>
      obtain rfl := Option.some.inj (hvalue.symm.trans hvalue')
      exact hreads.unique hreads'
    | file _ hvalue' => simp [hvalue] at hvalue'
    | default _ hvalue' => simp [hvalue] at hvalue'
  · rintro rfl
    exact .environment hflag hvalue hreads

theorem chosen_iff_of_file {number : Nat} (hflag : flags.get setting = none)
    (hvalue : lookup setting.variableName = none) :
    Chosen flags lookup file setting number ↔ (file.get setting).getD setting.default = number := by
  constructor
  · intro hchosen
    cases hchosen with
    | flag hflag' => simp [hflag] at hflag'
    | environment _ hvalue' => simp [hvalue] at hvalue'
    | file _ _ hfile => rw [hfile, Option.getD_some]
    | default _ _ hfile => rw [hfile, Option.getD_none]
  · rintro rfl
    cases hfile : file.get setting with
    | none => exact .default hflag hvalue hfile
    | some number => exact .file hflag hvalue hfile

/-- What the environment gives a setting, put between the flags and the file, makes up the number that is
chosen. -/
theorem exists_askFor_eq_ok (h : ∀ value, ¬ Faulty flags lookup setting value) :
    ∃ given, (askFor setting (flags.get setting) lookup).result = .ok given ∧
      ∀ file number, Chosen flags lookup file setting number ↔
        (((flags.get setting).or given).or (file.get setting)).getD setting.default = number := by
  cases hflag : flags.get setting with
  | some number =>
    refine ⟨none, rfl, fun file number' => ?_⟩
    rw [Option.or_none, Option.some_or, Option.getD_some, chosen_iff_of_flag hflag]
  | none =>
    cases hvalue : lookup setting.variableName with
    | none =>
      refine ⟨none, by rw [askFor, hvalue], fun file number => ?_⟩
      rw [Option.none_or, Option.none_or, chosen_iff_of_file hflag hvalue]
    | some value =>
      -- the value is a number, since it would be faulty otherwise
      obtain ⟨number, hreads⟩ : ∃ number, setting.Reads value number :=
        Classical.not_forall_not.mp fun hreads => h value ⟨hflag, hvalue, hreads⟩
      have hparse : setting.parse setting.variableName value = .ok number :=
        Setting.parse_eq_ok_iff.mpr hreads
      refine ⟨some number, by simp [askFor, hvalue, hparse, Except.map], fun file number' => ?_⟩
      rw [Option.none_or, Option.some_or, Option.getD_some, chosen_iff_of_reads hflag hvalue hreads]

theorem exists_chosen (file : Settings) (h : ∀ value, ¬ Faulty flags lookup setting value) :
    ∃ number, Chosen flags lookup file setting number := by
  obtain ⟨given, -, hchosen⟩ := exists_askFor_eq_ok h
  exact ⟨_, (hchosen file _).mpr rfl⟩

/-! ### The environment -/

theorem askFor_congr {flag : Option Nat}
    (h : flag = none → lookup' setting.variableName = lookup setting.variableName) :
    askFor setting flag lookup' = askFor setting flag lookup := by
  cases flag with
  | some number => rfl
  | none => rw [askFor, askFor, h rfl]

/-- Under a flag, the environment is not looked at. -/
theorem underFlags_congr
    (h : ∀ setting, flags.get setting = none →
      lookup' setting.variableName = lookup setting.variableName) :
    underFlags flags lookup' = underFlags flags lookup := by
  have hbits : askFor .cellBits flags.cellBits lookup' = askFor .cellBits flags.cellBits lookup :=
    askFor_congr (h .cellBits)
  have hsize : askFor .memorySize flags.memorySize lookup' =
      askFor .memorySize flags.memorySize lookup := askFor_congr (h .memorySize)
  rw [underFlags, underFlags, hbits, hsize]

theorem underFlags_of_faulty_cellBits (h : Faulty flags lookup .cellBits value) :
    (underFlags flags lookup).result = .error (.invalidNumber "BF_CELL_BITS" value) := by
  have hbits : (askFor .cellBits flags.cellBits lookup).result =
      .error (.invalidNumber "BF_CELL_BITS" value) := askFor_of_faulty h
  rw [underFlags, hbits]

theorem underFlags_of_faulty_memorySize (hbits : ∀ value, ¬ Faulty flags lookup .cellBits value)
    (hsize : Faulty flags lookup .memorySize value) :
    (underFlags flags lookup).result = .error (.invalidNumber "BF_MEMORY_SIZE" value) := by
  obtain ⟨given, hgiven, -⟩ := exists_askFor_eq_ok hbits
  have hgiven : (askFor .cellBits flags.cellBits lookup).result = .ok given := hgiven
  have hsize : (askFor .memorySize flags.memorySize lookup).result =
      .error (.invalidNumber "BF_MEMORY_SIZE" value) := askFor_of_faulty hsize
  simp only [underFlags, hgiven, hsize, Except.map]

/-- Without a faulty value, there is a layer for the environment, and with it the numbers are the chosen
ones. -/
theorem exists_underFlags_eq_ok (h : ∀ setting value, ¬ Faulty flags lookup setting value) :
    ∃ environment, (underFlags flags lookup).result = .ok environment ∧
      ∀ file setting number, Chosen flags lookup file setting number →
        (((flags.above environment).above file).get setting).getD setting.default = number := by
  obtain ⟨bits, hbits, hchosenBits⟩ := exists_askFor_eq_ok (h .cellBits)
  obtain ⟨size, hsize, hchosenSize⟩ := exists_askFor_eq_ok (h .memorySize)
  have hbits : (askFor .cellBits flags.cellBits lookup).result = .ok bits := hbits
  have hsize : (askFor .memorySize flags.memorySize lookup).result = .ok size := hsize
  refine ⟨⟨bits, size⟩, by simp only [underFlags, hbits, hsize, Except.map], ?_⟩
  intro file setting number hchosen
  rw [get_above, get_above]
  cases setting with
  | cellBits => exact (hchosenBits file number).mp hchosen
  | memorySize => exact (hchosenSize file number).mp hchosen

/-! ### The shape -/

theorem mem_widths_iff : bits ∈ [8, 16, 32] ↔ ∃ width : CellWidth, bits = width.bits := by
  constructor
  · simp only [List.mem_cons, List.not_mem_nil, or_false]
    rintro (rfl | rfl | rfl)
    · exact ⟨.bits8, rfl⟩
    · exact ⟨.bits16, rfl⟩
    · exact ⟨.bits32, rfl⟩
  · rintro ⟨width, rfl⟩
    cases width <;> decide

theorem ofBits?_eq_none_iff : CellWidth.ofBits? bits = none ↔ bits ∉ [8, 16, 32] := by
  rw [mem_widths_iff, Option.eq_none_iff_forall_ne_some, not_exists]
  simp only [ne_eq, CellWidth.ofBits?_eq_some_iff]

theorem resolve_of_unsupported
    (hbits : (settings.get .cellBits).getD Setting.cellBits.default = bits)
    (hother : bits ∉ [8, 16, 32]) : settings.resolve = .error (.unsupportedCellBits bits) := by
  have hbits : settings.cellBits.getD Setting.cellBits.default = bits := hbits
  simp only [resolve, hbits, ofBits?_eq_none_iff.mpr hother]

theorem resolve_of_width {width : CellWidth}
    (hbits : (settings.get .cellBits).getD Setting.cellBits.default = width.bits) :
    settings.resolve =
      if h : 0 < (settings.get .memorySize).getD Setting.memorySize.default then
        .ok ⟨width, (settings.get .memorySize).getD Setting.memorySize.default, h⟩
      else .error .zeroMemorySize := by
  have hwidth : CellWidth.ofBits? (settings.cellBits.getD Setting.cellBits.default) = some width :=
    CellWidth.ofBits?_eq_some_iff.mpr hbits
  simp only [resolve, hwidth]
  rfl

theorem load_shape_of_error {error : SettingsError}
    (h : (underFlags flags lookup).result = .error error) :
    (load flags lookup text).shape = .error error := by
  rw [load, h]

theorem load_shape_of_ok {environment : Settings}
    (h : (underFlags flags lookup).result = .ok environment) :
    (load flags lookup text).shape =
      ((flags.above environment).above (fileLayer (text.map FileReading.ofText))).resolve := by
  rw [load, h]

/-- What the verdict is, is loaded. -/
theorem load_shape_of_verdict {result : Except SettingsError Shape}
    (h : Verdict flags lookup (fileLayer (text.map FileReading.ofText)) result) :
    (load flags lookup text).shape = result := by
  -- an error of the environment keeps the layers from being put together; otherwise they are checked
  cases h with
  | faultyCellBits hbits => exact load_shape_of_error (underFlags_of_faulty_cellBits hbits)
  | faultyMemorySize hbits hsize =>
    exact load_shape_of_error (underFlags_of_faulty_memorySize hbits hsize)
  | unsupportedCellBits hsound hbits hother =>
    obtain ⟨environment, henvironment, hchosen⟩ := exists_underFlags_eq_ok hsound
    rw [load_shape_of_ok henvironment]
    exact resolve_of_unsupported (hchosen _ _ _ hbits) hother
  | zeroMemorySize hsound hbits hwidth hsize =>
    obtain ⟨environment, henvironment, hchosen⟩ := exists_underFlags_eq_ok hsound
    obtain ⟨width, rfl⟩ := mem_widths_iff.mp hwidth
    rw [load_shape_of_ok henvironment, resolve_of_width (hchosen _ _ _ hbits), dif_neg]
    rw [hchosen _ _ _ hsize]
    exact Nat.lt_irrefl 0
  | shape hsound hbits hsize =>
    obtain ⟨environment, henvironment, hchosen⟩ := exists_underFlags_eq_ok hsound
    rw [load_shape_of_ok henvironment, resolve_of_width (hchosen _ _ _ hbits)]
    simp only [hchosen _ _ _ hsize]
    exact dif_pos (Shape.size_pos _)

/-- There always is a verdict. -/
theorem exists_verdict (flags : Settings) (lookup : String → Option String) (file : Settings) :
    ∃ result, Verdict flags lookup file result := by
  by_cases hbits : ∃ value, Faulty flags lookup .cellBits value
  · obtain ⟨value, hbits⟩ := hbits
    exact ⟨_, .faultyCellBits hbits⟩
  have hbits : ∀ value, ¬ Faulty flags lookup .cellBits value := not_exists.mp hbits
  by_cases hsize : ∃ value, Faulty flags lookup .memorySize value
  · obtain ⟨value, hsize⟩ := hsize
    exact ⟨_, .faultyMemorySize hbits hsize⟩
  have hsound : ∀ setting value, ¬ Faulty flags lookup setting value := by
    intro setting
    cases setting with
    | cellBits => exact hbits
    | memorySize => exact not_exists.mp hsize
  obtain ⟨bits, hchosenBits⟩ := exists_chosen file (hsound .cellBits)
  obtain ⟨size, hchosenSize⟩ := exists_chosen file (hsound .memorySize)
  by_cases hwidth : bits ∈ [8, 16, 32]
  · obtain ⟨width, rfl⟩ := mem_widths_iff.mp hwidth
    cases size with
    | zero => exact ⟨_, .zeroMemorySize hsound hchosenBits hwidth hchosenSize⟩
    | succ size => exact ⟨.ok ⟨width, size + 1, size.succ_pos⟩, .shape hsound hchosenBits hchosenSize⟩
  · exact ⟨_, .unsupportedCellBits hsound hchosenBits hwidth⟩

/-- **What is loaded follows the layers.**  The variable of a setting that a flag gives does not matter,
whatever it holds.  The shape, or the error in its place, is the verdict: a faulty variable comes first,
the one for the width before the other, and shows its text as it is; then the numbers are chosen, each by
itself, and the width is checked before the number of cells.  A variable whose text is not Unicode is one
that `lookup` does not have. -/
theorem load_shape_eq_iff_verdict (flags : Settings) (lookup : String → Option String)
    (text : Option String) :
    (∀ lookup' : String → Option String,
      (∀ setting, flags.get setting = none →
        lookup' setting.variableName = lookup setting.variableName) →
      load flags lookup' text = load flags lookup text) ∧
    ∀ result, (load flags lookup text).shape = result ↔
      Verdict flags lookup (fileLayer (text.map FileReading.ofText)) result := by
  constructor
  · intro lookup' hlookup
    rw [load, load, underFlags_congr hlookup]
  · intro result
    constructor
    · rintro rfl
      obtain ⟨result, hverdict⟩ := exists_verdict flags lookup (fileLayer (text.map FileReading.ofText))
      rwa [load_shape_of_verdict hverdict]
    · exact load_shape_of_verdict

/-- A text that is no number does no harm under a flag, and the number of cells is that of the file. -/
theorem load_shape_eq_iff_verdict_of_shadowed_variable :
    load { cellBits := some 16 } (fun name => if name = "BF_CELL_BITS" then some "x" else none)
        (some "[tape]\nmemory_size = 5") =
      load { cellBits := some 16 } (fun _ => none) (some "[tape]\nmemory_size = 5") ∧
    Verdict { cellBits := some 16 } (fun _ => none)
      (fileLayer ((some "[tape]\nmemory_size = 5").map FileReading.ofText))
      (.ok ⟨.bits16, 5, by decide⟩) := by
  have hloaded := load_shape_eq_iff_verdict { cellBits := some 16 } (fun _ => none)
    (some "[tape]\nmemory_size = 5")
  refine ⟨hloaded.1 _ ?_, (hloaded.2 _).mp rfl⟩
  intro setting hflag
  cases setting with
  | cellBits => cases hflag
  | memorySize => rfl

/-- The same text without a flag over it is the error, whatever the rest gives. -/
example : (load {} (fun name => if name = "BF_CELL_BITS" then some " x" else some "0")
    none).shape = .error (.invalidNumber "BF_CELL_BITS" " x") := by
  rfl

end TapeMachine.Settings
