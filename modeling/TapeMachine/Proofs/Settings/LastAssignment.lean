import Mathlib.Data.List.Induction
import TapeMachine.Proofs.Settings.Assignments
import TapeMachine.Proofs.Settings.Harmless
import TapeMachine.Proofs.Settings.LineForms

/-!
# What a settings file means

A settings file is read from the top down, with a memory of the section and of the assignments so far.
What it means can be said without such a reading, by looking at all of the file at once.  A line is in
scope if the nearest header above it names the section that counts; of the lines in scope that assign to
a key, the last one stands, whatever was assigned above it.  A value that does not stand is not fallen
back to.

## Main definitions

* `Settings.InScope` — the lines above a line put it in scope.
* `Settings.AssignsAt`, `Settings.LastAssigned` — the assignments of a file, and the ones that stand.
* `Settings.Gives` — what a file gives a setting, and what it refuses.

## Main results

* `Settings.goesOn_eq_true_iff` — the reading is inside the section exactly where a line is in scope.
* `Settings.lastValue?_eq_some_iff` — what the reading holds of a key is what was last assigned to it.
* `Settings.FileReading.ofText_eq_iff` — a file is read as it is meant.
-/

namespace TapeMachine.Settings

/-- Below these lines the section that counts goes on: the nearest header names it. -/
def InScope (above : List Line) : Prop :=
  ∃ before header between, above = before ++ header :: between ∧ IsHeader header tapeSection ∧
    ∀ line ∈ between, ∀ name, ¬ IsHeader line name

/-- A line in scope assigns the value to the key. -/
def AssignsAt (lines : List Line) (n : Nat) (key value : List Char) : Prop :=
  ∃ line, lines[n]? = some line ∧ InScope (lines.take n) ∧ Assigns line key value

/-- The last line in scope that assigns to the key assigns it the value. -/
def LastAssigned (lines : List Line) (key value : List Char) : Prop :=
  ∃ n, AssignsAt lines n key value ∧ ∀ m value', AssignsAt lines m key value' → m ≤ n

/-- What the lines of a file give a setting, and with which errors they refuse its value. -/
inductive Gives (lines : List Line) : Setting → Option Nat → List SettingsError → Prop
  /-- No line in scope assigns to the setting. -/
  | unset {setting : Setting} (h : ∀ n value, ¬ AssignsAt lines n setting.key.toList value) :
      Gives lines setting none []
  /-- The last value is a number that a tape can have. -/
  | taken {setting : Setting} {value : List Char} {number : Nat}
      (h : LastAssigned lines setting.key.toList value)
      (hreads : setting.Reads (String.ofList value) number) (husable : setting.Usable number) :
      Gives lines setting (some number) []
  /-- The last value is no number of the range. -/
  | invalidNumber {setting : Setting} {value : List Char}
      (h : LastAssigned lines setting.key.toList value)
      (hreads : ∀ number, ¬ setting.Reads (String.ofList value) number) :
      Gives lines setting none [.invalidNumber setting.key (String.ofList value)]
  /-- The last value is a number of bits that no cell has. -/
  | unsupportedCellBits {value : List Char} {bits : Nat}
      (h : LastAssigned lines "cell_bits".toList value)
      (hreads : Setting.cellBits.Reads (String.ofList value) bits) (hother : bits ∉ [8, 16, 32]) :
      Gives lines .cellBits none [.unsupportedCellBits bits]
  /-- The last value is zero, and no tape is without cells. -/
  | zeroMemorySize {value : List Char} (h : LastAssigned lines "memory_size".toList value)
      (hreads : Setting.memorySize.Reads (String.ofList value) 0) :
      Gives lines .memorySize none [.zeroMemorySize]

variable {lines : List Line} {line : Line} {key value : List Char} {n : Nat} {setting : Setting}

/-! ### One more line -/

theorem inScope_concat_iff : InScope (lines ++ [line]) ↔
    IsHeader line tapeSection ∨ (∀ name, ¬ IsHeader line name) ∧ InScope lines := by
  constructor
  · rintro ⟨before, header, between, hlines, hheader, hbetween⟩
    rcases List.eq_nil_or_concat between with rfl | ⟨between, last, rfl⟩
    · obtain ⟨-, hline⟩ := List.append_inj' hlines rfl
      cases hline
      exact .inl hheader
    · rw [List.concat_eq_append, ← List.cons_append, ← List.append_assoc] at hlines
      obtain ⟨rfl, hline⟩ := List.append_inj' hlines rfl
      cases hline
      obtain ⟨hbetween, hlast⟩ := List.forall_mem_append.mp (List.concat_eq_append ▸ hbetween)
      exact .inr ⟨hlast line List.mem_cons_self, before, header, between, rfl, hheader, hbetween⟩
  · rintro (hheader | ⟨hline, before, header, between, rfl, hheader, hbetween⟩)
    · exact ⟨lines, line, [], rfl, hheader, by simp⟩
    · refine ⟨before, header, between ++ [line], by simp, hheader, ?_⟩
      exact List.forall_mem_append.mpr ⟨hbetween, List.forall_mem_singleton.mpr hline⟩

theorem assignsAt_concat_iff : AssignsAt (lines ++ [line]) n key value ↔
    AssignsAt lines n key value ∨ n = lines.length ∧ InScope lines ∧ Assigns line key value := by
  rcases Nat.lt_trichotomy n lines.length with hlt | rfl | hgt
  · have htake : (lines ++ [line]).take n = lines.take n :=
      List.take_append_of_le_length (Nat.le_of_lt hlt)
    simp [AssignsAt, List.getElem?_append_left hlt, htake, Nat.ne_of_lt hlt]
  · simp [AssignsAt]
  · have hnone : (lines ++ [line])[n]? = none := List.getElem?_eq_none (by simp; omega)
    simp [AssignsAt, hnone, List.getElem?_eq_none (Nat.le_of_lt hgt), Nat.ne_of_gt hgt]

theorem AssignsAt.lt (h : AssignsAt lines n key value) : n < lines.length := by
  obtain ⟨line, hline, -⟩ := h
  exact (List.getElem?_eq_some_iff.mp hline).1

/-- A line behind all others stands if it assigns to the key in scope; otherwise what stood before does. -/
theorem lastAssigned_concat_iff : LastAssigned (lines ++ [line]) key value ↔
    InScope lines ∧ Assigns line key value ∨
      (∀ value', ¬ (InScope lines ∧ Assigns line key value')) ∧ LastAssigned lines key value := by
  constructor
  · rintro ⟨n, hn, hlast⟩
    rcases assignsAt_concat_iff.mp hn with hbefore | ⟨rfl, hnew⟩
    · refine .inr ⟨fun value' hnew => ?_, n, hbefore, fun m value' hm => ?_⟩
      · have hle := hlast _ value' (assignsAt_concat_iff.mpr (.inr ⟨rfl, hnew⟩))
        exact absurd hbefore.lt (Nat.not_lt_of_le hle)
      · exact hlast m value' (assignsAt_concat_iff.mpr (.inl hm))
    · exact .inl hnew
  · rintro (hnew | ⟨hnone, n, hn, hlast⟩)
    · refine ⟨lines.length, assignsAt_concat_iff.mpr (.inr ⟨rfl, hnew⟩), fun m value' hm => ?_⟩
      rcases assignsAt_concat_iff.mp hm with hbefore | ⟨rfl, -⟩
      · exact Nat.le_of_lt hbefore.lt
      · exact Nat.le_refl _
    · refine ⟨n, assignsAt_concat_iff.mpr (.inl hn), fun m value' hm => ?_⟩
      rcases assignsAt_concat_iff.mp hm with hbefore | ⟨-, hnew⟩
      · exact hlast m value' hbefore
      · exact absurd hnew (hnone value')

/-! ### The reading -/

/-- **The reading is inside the section exactly where a line is in scope.** -/
theorem goesOn_eq_true_iff : goesOn false (lines.map FileLine.ofLine) = true ↔ InScope lines := by
  induction lines using List.reverseRecOn with
  | nil => simp [InScope]
  | append_singleton lines line ih =>
    rw [List.map_append, List.map_singleton, goesOn_concat, inScope_concat_iff, ← ih]
    simp only [← FileLine.ofLine_eq_header_iff]
    cases FileLine.ofLine line <;> simp [FileLine.goesOn]

/-- The assignment of a line counts if the line is in scope. -/
theorem lastValue?_pairs_ofLine_eq_some_iff :
    lastValue? key ((FileLine.ofLine line).pairs (goesOn false (lines.map FileLine.ofLine))) =
      some value ↔ InScope lines ∧ Assigns line key value := by
  rw [lastValue?_pairs_eq_some_iff, goesOn_eq_true_iff, FileLine.ofLine_eq_assignment_iff]

/-- **What the reading holds of a key is what was last assigned to it.** -/
theorem lastValue?_eq_some_iff :
    lastValue? key (assignments false (lines.map FileLine.ofLine)) = some value ↔
      LastAssigned lines key value := by
  induction lines using List.reverseRecOn with
  | nil => simp [LastAssigned, AssignsAt]
  | append_singleton lines line ih =>
    rw [List.map_append, List.map_singleton, assignments_concat, lastValue?_append,
      Option.or_eq_some_iff, ih, lastAssigned_concat_iff, Option.eq_none_iff_forall_ne_some]
    simp only [ne_eq, lastValue?_pairs_ofLine_eq_some_iff]

theorem lastValue?_eq_none_iff :
    lastValue? key (assignments false (lines.map FileLine.ofLine)) = none ↔
      ∀ n value, ¬ AssignsAt lines n key value := by
  induction lines using List.reverseRecOn with
  | nil => simp [AssignsAt]
  | append_singleton lines line ih =>
    rw [List.map_append, List.map_singleton, assignments_concat, lastValue?_append,
      Option.or_eq_none_iff, ih, Option.eq_none_iff_forall_ne_some]
    simp only [ne_eq, lastValue?_pairs_ofLine_eq_some_iff, assignsAt_concat_iff]
    constructor
    · rintro ⟨hnew, hbefore⟩ n value (h | ⟨-, h⟩)
      · exact hbefore n value h
      · exact hnew value h
    · intro h
      exact ⟨fun value hnew => h _ value (.inr ⟨rfl, hnew⟩), fun n value hn => h n value (.inl hn)⟩

/-! ### One setting -/

theorem check_cellBits_eq_error {bits : Nat} (h : bits ∉ [8, 16, 32]) :
    Setting.cellBits.check bits = .error (.unsupportedCellBits bits) := by
  rw [Setting.check, ofBits?_eq_none_iff.mpr h]

/-- What the lines give a setting is what is read for it. -/
theorem readSetting_of_gives {number : Option Nat} {errors : List SettingsError}
    (h : Gives lines setting number errors) :
    accepted? (readSetting (assignments false (lines.map FileLine.ofLine)) setting) = number ∧
      refusal setting (readSetting (assignments false (lines.map FileLine.ofLine)) setting) =
        errors.map (Prod.mk setting) := by
  rw [readSetting]
  cases h with
  | unset h =>
    rw [lastValue?_eq_none_iff.mpr h]
    exact ⟨rfl, rfl⟩
  | taken h hreads husable =>
    rw [lastValue?_eq_some_iff.mpr h]
    simp only [Setting.parse_eq_ok_iff.mpr hreads, check_eq_ok_iff.mpr husable]
    exact ⟨rfl, rfl⟩
  | invalidNumber h hreads =>
    rw [lastValue?_eq_some_iff.mpr h]
    simp only [Setting.parse_eq_error_iff.mpr ⟨hreads, rfl⟩]
    exact ⟨rfl, rfl⟩
  | unsupportedCellBits h hreads hother =>
    rw [Setting.key, lastValue?_eq_some_iff.mpr h]
    simp only [Setting.parse_eq_ok_iff.mpr hreads, check_cellBits_eq_error hother]
    exact ⟨rfl, rfl⟩
  | zeroMemorySize h hreads =>
    rw [Setting.key, lastValue?_eq_some_iff.mpr h]
    simp only [Setting.parse_eq_ok_iff.mpr hreads, Setting.check]
    exact ⟨rfl, rfl⟩

/-- The lines always give a setting a number or nothing. -/
theorem exists_gives (lines : List Line) (setting : Setting) :
    ∃ number errors, Gives lines setting number errors := by
  cases hvalue : lastValue? setting.key.toList (assignments false (lines.map FileLine.ofLine)) with
  | none => exact ⟨none, [], .unset (lastValue?_eq_none_iff.mp hvalue)⟩
  | some value =>
    have hlast := lastValue?_eq_some_iff.mp hvalue
    by_cases hreads : ∃ number, setting.Reads (String.ofList value) number
    · obtain ⟨number, hreads⟩ := hreads
      by_cases husable : setting.Usable number
      · exact ⟨_, _, .taken hlast hreads husable⟩
      · cases setting with
        | cellBits => exact ⟨_, _, .unsupportedCellBits hlast hreads husable⟩
        | memorySize =>
          obtain rfl : number = 0 := Nat.eq_zero_of_not_pos husable
          exact ⟨_, _, .zeroMemorySize hlast hreads⟩
    · exact ⟨_, _, .invalidNumber hlast (not_exists.mp hreads)⟩

/-- **A file is read as it is meant.**  Each setting is given what the last line in scope that assigns to
it gives, or nothing if there is none; a value that no tape can have leaves the setting unset and is
refused once, whatever was assigned before it.  The refusals of the width come first. -/
theorem FileReading.ofText_eq_iff (text : String) (reading : FileReading) :
    FileReading.ofText text = reading ↔ ∃ bits bitsErrors size sizeErrors,
      Gives (Text.splitLines text.toList) .cellBits bits bitsErrors ∧
      Gives (Text.splitLines text.toList) .memorySize size sizeErrors ∧
      reading = ⟨⟨bits, size⟩,
        bitsErrors.map (Prod.mk .cellBits) ++ sizeErrors.map (Prod.mk .memorySize)⟩ := by
  have hread : ∀ {bits bitsErrors size sizeErrors},
      Gives (Text.splitLines text.toList) .cellBits bits bitsErrors →
      Gives (Text.splitLines text.toList) .memorySize size sizeErrors →
      FileReading.ofText text = ⟨⟨bits, size⟩,
        bitsErrors.map (Prod.mk .cellBits) ++ sizeErrors.map (Prod.mk .memorySize)⟩ := by
    intro bits bitsErrors size sizeErrors hbits hsize
    obtain ⟨hnumber, hrefusal⟩ := readSetting_of_gives hbits
    obtain ⟨hnumber', hrefusal'⟩ := readSetting_of_gives hsize
    simp only [FileReading.ofText, hnumber, hrefusal, hnumber', hrefusal']
  constructor
  · rintro rfl
    obtain ⟨bits, bitsErrors, hbits⟩ := exists_gives (Text.splitLines text.toList) .cellBits
    obtain ⟨size, sizeErrors, hsize⟩ := exists_gives (Text.splitLines text.toList) .memorySize
    exact ⟨bits, bitsErrors, size, sizeErrors, hbits, hsize, hread hbits hsize⟩
  · rintro ⟨bits, bitsErrors, size, sizeErrors, hbits, hsize, rfl⟩
    exact hread hbits hsize

/-- What was assigned before a value that does not stand is not fallen back to. -/
example : FileReading.ofText "[tape]\ncell_bits=8\ncell_bits=x" =
    ⟨⟨none, none⟩, [(.cellBits, .invalidNumber "cell_bits" "x")]⟩ := rfl

end TapeMachine.Settings
