import TapeMachine.Proofs.Settings.Slices

/-!
# The assignments of a settings file, line by line

The lines of a settings file are read with one bit of memory, which says whether the section that counts
goes on.  Each line changes that bit or not, and gives an assignment or not, so the assignments of some
lines and then others are those of the first and then those of the others.  What a file gives a setting
depends only on the last assignment to it.

## Main definitions

* `Settings.FileLine.goesOn`, `Settings.FileLine.pairs` — what one line does.
* `Settings.FileLine.Idle` — a line that does nothing to the settings.
* `Settings.goesOn` — whether the section that counts goes on behind some lines.

## Main results

* `Settings.assignments_append` — the assignments of some lines and then others.
* `Settings.lastValue?_append` — the last assignment to a key.
* `Settings.FileReading.ofLines_congr` — only the last assignments to the settings matter.
-/

namespace TapeMachine.Settings

/-- Whether the section that counts goes on behind a line, if it did before. -/
def FileLine.goesOn (inside : Bool) : FileLine → Bool
  | .header name => name == tapeSection
  | .assignment _ _ => inside
  | .other => inside

/-- The assignment of a line, if it has one that counts. -/
def FileLine.pairs (inside : Bool) : FileLine → List (List Char × List Char)
  | .assignment key value => if inside then [(key, value)] else []
  | .header _ => []
  | .other => []

/-- Whether the section that counts goes on behind some lines. -/
def goesOn (inside : Bool) (lines : List FileLine) : Bool :=
  lines.foldl FileLine.goesOn inside

/-- A line that neither starts a section nor assigns to a setting. -/
def FileLine.Idle (line : FileLine) : Prop :=
  (∀ name, line ≠ .header name) ∧
    ∀ (setting : Setting) (value : List Char), line ≠ .assignment setting.key.toList value

variable {inside : Bool} {line line' : FileLine} {lines lines' : List FileLine}
  {pairs pairs' : List (List Char × List Char)} {key value : List Char} {setting : Setting}

/-! ### Lines one after the other -/

@[simp] theorem assignments_nil (inside : Bool) : assignments inside [] = [] := by
  cases inside <;> rfl

theorem assignments_cons (inside : Bool) (line : FileLine) (lines : List FileLine) :
    assignments inside (line :: lines) =
      line.pairs inside ++ assignments (line.goesOn inside) lines := by
  cases line <;> cases inside <;> rfl

@[simp] theorem goesOn_nil (inside : Bool) : goesOn inside [] = inside := rfl

@[simp] theorem goesOn_cons (inside : Bool) (line : FileLine) (lines : List FileLine) :
    goesOn inside (line :: lines) = goesOn (line.goesOn inside) lines := rfl

theorem goesOn_concat (inside : Bool) (line : FileLine) (lines : List FileLine) :
    goesOn inside (lines ++ [line]) = line.goesOn (goesOn inside lines) := by
  rw [goesOn, List.foldl_append]
  rfl

/-- **The assignments of some lines and then others.** -/
theorem assignments_append (inside : Bool) (lines lines' : List FileLine) :
    assignments inside (lines ++ lines') =
      assignments inside lines ++ assignments (goesOn inside lines) lines' := by
  induction lines generalizing inside with
  | nil => simp
  | cons line lines ih =>
    rw [List.cons_append, assignments_cons, assignments_cons, ih, goesOn_cons, List.append_assoc]

theorem assignments_concat (inside : Bool) (line : FileLine) (lines : List FileLine) :
    assignments inside (lines ++ [line]) =
      assignments inside lines ++ line.pairs (goesOn inside lines) := by
  rw [assignments_append, assignments_cons, assignments_nil, List.append_nil]

/-- Where no header names the section that counts, nothing is assigned from outside it. -/
theorem assignments_of_outside (h : ∀ line ∈ lines, line ≠ .header tapeSection) :
    assignments false lines = [] ∧ goesOn false lines = false := by
  induction lines with
  | nil => exact ⟨rfl, rfl⟩
  | cons line lines ih =>
    obtain ⟨hline, hlines⟩ := List.forall_mem_cons.mp h
    have hstays : line.pairs false = [] ∧ line.goesOn false = false := by
      cases line with
      | header name =>
        refine ⟨rfl, beq_eq_false_iff_ne.mpr ?_⟩
        rintro rfl
        exact hline rfl
      | assignment key value => exact ⟨rfl, rfl⟩
      | other => exact ⟨rfl, rfl⟩
    rw [assignments_cons, goesOn_cons, hstays.1, hstays.2]
    exact ih hlines

/-! ### The last assignment -/

@[simp] theorem lastValue?_nil (key : List Char) : lastValue? key [] = none := rfl

/-- **The last assignment to a key** is among those that come later, or among those before. -/
theorem lastValue?_append (key : List Char) (pairs pairs' : List (List Char × List Char)) :
    lastValue? key (pairs ++ pairs') = (lastValue? key pairs').or (lastValue? key pairs) := by
  rw [lastValue?, List.reverse_append, List.lookup_append]
  rfl

theorem lastValue?_pairs_eq_some_iff : lastValue? key (line.pairs inside) = some value ↔
    inside = true ∧ line = .assignment key value := by
  cases line with
  | header name => simp [FileLine.pairs]
  | other => simp [FileLine.pairs]
  | assignment key' value' =>
    cases inside with
    | false => simp [FileLine.pairs]
    | true =>
      by_cases hkey : key = key'
      · simp [FileLine.pairs, lastValue?, hkey]
      · have hother : (key == key') = false := beq_eq_false_iff_ne.mpr hkey
        simp [FileLine.pairs, lastValue?, hother, Ne.symm hkey]

theorem FileLine.Idle.goesOn (h : line.Idle) (inside : Bool) : line.goesOn inside = inside := by
  cases line with
  | header name => exact absurd rfl (h.1 name)
  | assignment key value => rfl
  | other => rfl

theorem FileLine.Idle.lastValue?_pairs (h : line.Idle) (inside : Bool) (setting : Setting) :
    lastValue? setting.key.toList (line.pairs inside) = none := by
  refine Option.eq_none_iff_forall_ne_some.mpr fun value hvalue => ?_
  exact h.2 setting value (lastValue?_pairs_eq_some_iff.mp hvalue).2

theorem FileLine.idle_other : FileLine.other.Idle :=
  ⟨fun _ h => (by cases h), fun _ _ h => (by cases h)⟩

theorem readSetting_congr
    (h : lastValue? setting.key.toList pairs = lastValue? setting.key.toList pairs') :
    readSetting pairs setting = readSetting pairs' setting := by
  rw [readSetting, readSetting, h]

/-- **Only the last assignments to the settings matter.** -/
theorem FileReading.ofLines_congr
    (h : ∀ setting : Setting, lastValue? setting.key.toList (assignments false lines) =
      lastValue? setting.key.toList (assignments false lines')) :
    FileReading.ofLines lines = FileReading.ofLines lines' := by
  simp only [FileReading.ofLines, readSetting_congr (h _)]

/-- A line may stand for another one that does the same to the settings. -/
theorem FileReading.ofLines_replace (hgoes : ∀ inside, line.goesOn inside = line'.goesOn inside)
    (hvalue : ∀ (inside : Bool) (setting : Setting),
      lastValue? setting.key.toList (line.pairs inside) =
        lastValue? setting.key.toList (line'.pairs inside)) (before after : List FileLine) :
    FileReading.ofLines (before ++ line :: after) = FileReading.ofLines (before ++ line' :: after) := by
  refine ofLines_congr fun setting => ?_
  simp only [assignments_append, assignments_cons, lastValue?_append, hgoes, hvalue]

theorem FileReading.ofLines_replace_of_idle (h : line.Idle) (h' : line'.Idle)
    (before after : List FileLine) :
    FileReading.ofLines (before ++ line :: after) = FileReading.ofLines (before ++ line' :: after) :=
  ofLines_replace (fun inside => (h.goesOn inside).trans (h'.goesOn inside).symm)
    (fun inside setting =>
      (h.lastValue?_pairs inside setting).trans (h'.lastValue?_pairs inside setting).symm)
    before after

theorem FileReading.ofText_eq_ofLines (text : String) : FileReading.ofText text =
    FileReading.ofLines ((Text.splitLines text.toList).map FileLine.ofLine) := rfl

end TapeMachine.Settings
