import TapeMachine.Proofs.Settings.Precedence
import TapeMachine.Proofs.Settings.Slices

/-!
# A settings file does no harm

A value of the settings file counts only if it is a number that a tape can have, so whatever the file
holds, the layer that comes of it can be used.  An error is therefore the fault of the layers above, and
it is the same error without the file.  Where the layers above give a setting, the file does not change
it; where they do not, it is a number that the file assigns, or the default.

## Main definitions

* `Setting.Usable` — the numbers that a tape can have.
* `Settings.Provided` — a setting is given by a layer above the file.
* `Settings.Harmless` — a layer that can be used.
* `Settings.InTapeSection`, `Settings.AssignedIn` — what a file assigns to a setting.

## Main results

* `Settings.fileLayer_get_of_text` — what a file gives a setting is assigned there and can be used.
* `Settings.Verdict.error_congr` — among layers that can be used, all lead to the same error.
* `Settings.load_with_file` — with a settings file and without one.
-/

namespace TapeMachine

/-- A tape can have this number as the setting. -/
def Setting.Usable (number : Nat) : Setting → Prop
  | .cellBits => number ∈ [8, 16, 32]
  | .memorySize => 0 < number

/-- What a setting is in a shape. -/
def Shape.get (shape : Shape) : Setting → Nat
  | .cellBits => shape.width.bits
  | .memorySize => shape.size

namespace Settings

/-- A flag or the environment gives the setting. -/
def Provided (flags : Settings) (lookup : String → Option String) (setting : Setting) : Prop :=
  flags.get setting ≠ none ∨ lookup setting.variableName ≠ none

/-- Behind these lines the section that counts goes on: it is the one that the last header names. -/
def InTapeSection (lines : List FileLine) : Prop :=
  ∃ older newer, lines = older ++ .header tapeSection :: newer ∧ ∀ name, .header name ∉ newer

/-- A line of the section that counts assigns a number to the setting. -/
def AssignedIn (text : String) (setting : Setting) (number : Nat) : Prop :=
  ∃ before value after,
    (Text.splitLines text.toList).map FileLine.ofLine =
      before ++ .assignment setting.key.toList value :: after ∧
    InTapeSection before ∧ setting.Reads (String.ofList value) number

/-- A layer that sets nothing but what a tape can have. -/
def Harmless (file : Settings) : Prop :=
  ∀ setting number, file.get setting = some number → setting.Usable number

variable {flags file file' : Settings} {lookup : String → Option String} {setting : Setting}
  {number : Nat} {key value : List Char}

/-! ### What a file gives -/

theorem check_eq_ok_iff : setting.check number = .ok () ↔ setting.Usable number := by
  cases setting with
  | cellBits =>
    rw [Setting.check, Setting.Usable, mem_widths_iff]
    cases hwidth : CellWidth.ofBits? number with
    | none =>
      constructor
      · intro h
        cases h
      · rintro ⟨width, rfl⟩
        rw [CellWidth.ofBits?_eq_some_iff.mpr rfl] at hwidth
        cases hwidth
    | some width => exact iff_of_true rfl ⟨width, CellWidth.ofBits?_eq_some_iff.mp hwidth⟩
  | memorySize =>
    rw [Setting.check, Setting.Usable]
    split <;> simp <;> omega

theorem InTapeSection.cons {lines : List FileLine} (h : InTapeSection lines) (line : FileLine) :
    InTapeSection (line :: lines) := by
  obtain ⟨older, newer, rfl, hnewer⟩ := h
  exact ⟨line :: older, newer, rfl, hnewer⟩

/-- An assignment that counts stands in the section that counts, which a header starts, unless the lines
are inside it from the start. -/
theorem exists_of_mem_assignments : ∀ {lines : List FileLine} {inside : Bool},
    (key, value) ∈ assignments inside lines → ∃ before after,
      lines = before ++ .assignment key value :: after ∧
      (InTapeSection before ∨ inside = true ∧ ∀ name, .header name ∉ before) := by
  intro lines
  induction lines with
  | nil =>
    intro inside h
    cases inside <;> cases h
  | cons line lines ih =>
    intro inside h
    cases line with
    | header name =>
      rw [assignments] at h
      obtain ⟨before, after, rfl, hsection⟩ := ih h
      refine ⟨.header name :: before, after, rfl, .inl ?_⟩
      rcases hsection with hsection | ⟨hname, hbefore⟩
      · exact hsection.cons _
      · rw [beq_iff_eq.mp hname]
        exact ⟨[], before, rfl, hbefore⟩
    | assignment key' value' =>
      have htail : (key, value) ∈ assignments inside lines → ∃ before after,
          .assignment key' value' :: lines = before ++ .assignment key value :: after ∧
          (InTapeSection before ∨ inside = true ∧ ∀ name, .header name ∉ before) := by
        intro hmem
        obtain ⟨before, after, rfl, hsection⟩ := ih hmem
        refine ⟨.assignment key' value' :: before, after, rfl, ?_⟩
        rcases hsection with hsection | ⟨hinside, hbefore⟩
        · exact .inl (hsection.cons _)
        · exact .inr ⟨hinside, by simp [hbefore]⟩
      cases inside with
      | false => exact htail h
      | true =>
        rcases List.mem_cons.mp h with hhead | hmem
        · cases hhead
          exact ⟨[], lines, rfl, .inr ⟨rfl, by simp⟩⟩
        · exact htail hmem
    | other =>
      rw [assignments] at h
      obtain ⟨before, after, rfl, hsection⟩ := ih h
      refine ⟨.other :: before, after, rfl, ?_⟩
      rcases hsection with hsection | ⟨hinside, hbefore⟩
      · exact .inl (hsection.cons _)
      · exact .inr ⟨hinside, by simp [hbefore]⟩

theorem mem_of_lastValue? {pairs : List (List Char × List Char)} (h : lastValue? key pairs = some value) :
    (key, value) ∈ pairs := by
  obtain ⟨older, newer, hpairs, -⟩ := List.lookup_eq_some_iff.mp h
  rw [← List.mem_reverse, hpairs]
  exact List.mem_append_right older List.mem_cons_self

/-- What is read for a setting is assigned to it and can be used. -/
theorem exists_of_readSetting {pairs : List (List Char × List Char)}
    (h : accepted? (readSetting pairs setting) = some number) :
    (∃ value, (setting.key.toList, value) ∈ pairs ∧ setting.Reads (String.ofList value) number) ∧
      setting.Usable number := by
  rw [readSetting] at h
  cases hvalue : lastValue? setting.key.toList pairs with
  | none => simp [hvalue, accepted?] at h
  | some value =>
    cases hparse : setting.parse setting.key (String.ofList value) with
    | error error => simp [hvalue, hparse, accepted?] at h
    | ok number' =>
      cases hcheck : setting.check number' with
      | error error => simp [hvalue, hparse, hcheck, accepted?] at h
      | ok _ =>
        obtain rfl : number' = number := by simpa [hvalue, hparse, hcheck, accepted?] using h
        exact ⟨⟨value, mem_of_lastValue? hvalue, Setting.parse_eq_ok_iff.mp hparse⟩,
          check_eq_ok_iff.mp hcheck⟩

theorem get_ofText (text : String) (setting : Setting) :
    (FileReading.ofText text).settings.get setting =
      accepted? (readSetting (assignments false
        ((Text.splitLines text.toList).map FileLine.ofLine)) setting) := by
  cases setting <;> rfl

/-- **What a file gives a setting is assigned there and can be used.** -/
theorem fileLayer_get_of_text {text : String}
    (h : (fileLayer (some (FileReading.ofText text))).get setting = some number) :
    AssignedIn text setting number ∧ setting.Usable number := by
  have hread : (FileReading.ofText text).settings.get setting = some number := h
  rw [get_ofText] at hread
  obtain ⟨⟨value, hmem, hreads⟩, husable⟩ := exists_of_readSetting hread
  obtain ⟨before, after, hlines, hsection | ⟨hinside, -⟩⟩ := exists_of_mem_assignments hmem
  · exact ⟨⟨before, value, after, hlines, hsection, hreads⟩, husable⟩
  · cases hinside

/-! ### Layers that do no harm -/

theorem harmless_fileLayer (text : Option String) :
    Harmless (fileLayer (text.map FileReading.ofText)) := by
  intro setting number h
  cases text with
  | none => cases setting <;> cases h
  | some text => exact (fileLayer_get_of_text h).2

theorem usable_default (setting : Setting) : setting.Usable setting.default := by
  cases setting <;> simp [Setting.Usable, Setting.default]

namespace Chosen

/-- What a layer above the file gives is chosen whatever the file holds. -/
theorem of_provided (h : Chosen flags lookup file setting number)
    (hprovided : Provided flags lookup setting) : Chosen flags lookup file' setting number := by
  cases h with
  | flag hflag => exact .flag hflag
  | environment hflag hvalue hreads => exact .environment hflag hvalue hreads
  | file hflag hvalue => exact absurd hprovided (by simp [Provided, hflag, hvalue])
  | default hflag hvalue => exact absurd hprovided (by simp [Provided, hflag, hvalue])

/-- What no layer above the file gives is the file's, or the default. -/
theorem of_not_provided (h : Chosen flags lookup file setting number)
    (hprovided : ¬ Provided flags lookup setting) :
    number = setting.default ∨ file.get setting = some number := by
  cases h with
  | flag hflag => exact absurd (.inl (by simp [hflag])) hprovided
  | environment _ hvalue => exact absurd (.inr (by simp [hvalue])) hprovided
  | file _ _ hfile => exact .inr hfile
  | default => exact .inl rfl

/-- A number that no tape can have is given by a layer above a file that does no harm. -/
theorem provided_of_not_usable (h : Chosen flags lookup file setting number) (hfile : Harmless file)
    (hunusable : ¬ setting.Usable number) : Provided flags lookup setting := by
  refine Classical.not_not.mp fun hprovided => hunusable ?_
  rcases h.of_not_provided hprovided with rfl | hget
  · exact usable_default setting
  · exact hfile setting number hget

/-- What a layer above the file gives is one number, whatever the files hold. -/
theorem eq_of_provided {number' : Nat} (h : Chosen flags lookup file setting number)
    (h' : Chosen flags lookup file' setting number') (hprovided : Provided flags lookup setting) :
    number = number' := by
  cases h with
  | flag hflag => exact (chosen_iff_of_flag hflag).mp h'
  | environment hflag hvalue hreads => exact (chosen_iff_of_reads hflag hvalue hreads).mp h'
  | file hflag hvalue => exact absurd hprovided (by simp [Provided, hflag, hvalue])
  | default hflag hvalue => exact absurd hprovided (by simp [Provided, hflag, hvalue])

end Chosen

/-- Where one file leads to a number that can be used, every file does that does no harm. -/
theorem exists_chosen_usable (hsound : ∀ value, ¬ Faulty flags lookup setting value)
    (h : Chosen flags lookup file setting number) (husable : setting.Usable number)
    (hfile' : Harmless file') :
    ∃ number', Chosen flags lookup file' setting number' ∧ setting.Usable number' := by
  obtain ⟨number', h'⟩ := exists_chosen file' hsound
  refine ⟨number', h', Classical.not_not.mp fun hunusable => hunusable ?_⟩
  -- otherwise a layer above has given it, and then it is the number of the first file
  have hprovided := h'.provided_of_not_usable hfile' hunusable
  rwa [← h.eq_of_provided h' hprovided]

/-- **Among layers that can be used, all lead to the same error.** -/
theorem Verdict.error_congr {error : SettingsError} (h : Verdict flags lookup file (.error error))
    (hfile : Harmless file) (hfile' : Harmless file') : Verdict flags lookup file' (.error error) := by
  cases h with
  | faultyCellBits hbits => exact .faultyCellBits hbits
  | faultyMemorySize hbits hsize => exact .faultyMemorySize hbits hsize
  | unsupportedCellBits hsound hbits hother =>
    have hprovided := hbits.provided_of_not_usable hfile hother
    exact .unsupportedCellBits hsound (hbits.of_provided hprovided) hother
  | zeroMemorySize hsound hbits hwidth hsize =>
    obtain ⟨bits, hbits', hwidth'⟩ := exists_chosen_usable (hsound .cellBits) hbits hwidth hfile'
    have hprovided := hsize.provided_of_not_usable hfile (Nat.lt_irrefl 0)
    exact .zeroMemorySize hsound hbits' hwidth' (hsize.of_provided hprovided)

theorem Verdict.chosen {shape : Shape} (h : Verdict flags lookup file (.ok shape)) (setting : Setting) :
    Chosen flags lookup file setting (shape.get setting) := by
  cases h with
  | shape _ hbits hsize =>
    cases setting with
    | cellBits => exact hbits
    | memorySize => exact hsize

/-- What is loaded is what the layers lead to. -/
theorem verdict_load (flags : Settings) (lookup : String → Option String) (text : Option String) :
    Verdict flags lookup (fileLayer (text.map FileReading.ofText)) (load flags lookup text).shape := by
  obtain ⟨result, hverdict⟩ := exists_verdict flags lookup (fileLayer (text.map FileReading.ofText))
  rwa [load_shape_of_verdict hverdict]

/-- **With a settings file and without one.**  The same errors come up, whatever the file holds.  If a
shape comes out, it has what the flags and the environment give; what they do not give is the default
without the file, and with it the default or a number that the file assigns and a tape can have.  And
every file can be read: by its bytes, no cut is out of range or inside a character. -/
theorem load_with_file (flags : Settings) (lookup : String → Option String) (text : String) :
    (∀ error, (load flags lookup (some text)).shape = .error error ↔
      (load flags lookup none).shape = .error error) ∧
    (∀ shape shape', (load flags lookup (some text)).shape = .ok shape →
      (load flags lookup none).shape = .ok shape' → ∀ setting,
        (Provided flags lookup setting → shape.get setting = shape'.get setting) ∧
        (¬ Provided flags lookup setting → shape'.get setting = setting.default ∧
          (shape.get setting = setting.default ∨
            AssignedIn text setting (shape.get setting) ∧ setting.Usable (shape.get setting)))) ∧
    FileReading.bySlices? text = some (FileReading.ofText text) := by
  have hwith := verdict_load flags lookup (some text)
  have hwithout := verdict_load flags lookup none
  refine ⟨fun error => ⟨fun h => ?_, fun h => ?_⟩, ?_, FileReading.bySlices?_eq text⟩
  · rw [h] at hwith
    exact load_shape_of_verdict
      (hwith.error_congr (harmless_fileLayer (some text)) (harmless_fileLayer none))
  · rw [h] at hwithout
    exact load_shape_of_verdict
      (hwithout.error_congr (harmless_fileLayer none) (harmless_fileLayer (some text)))
  · intro shape shape' hshape hshape' setting
    rw [hshape] at hwith
    rw [hshape'] at hwithout
    refine ⟨fun hprovided => ?_, fun hprovided => ⟨?_, ?_⟩⟩
    · exact (hwith.chosen setting).eq_of_provided (hwithout.chosen setting) hprovided
    · rcases (hwithout.chosen setting).of_not_provided hprovided with hdefault | hget
      · exact hdefault
      · cases setting <;> cases hget
    · rcases (hwith.chosen setting).of_not_provided hprovided with hdefault | hget
      · exact .inl hdefault
      · exact .inr (fileLayer_get_of_text hget)

end Settings

end TapeMachine
