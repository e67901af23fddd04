import TapeMachine.Proofs.Blanks
import TapeMachine.Text.Lines

/-!
# Lines that are put together again

A text that is put together from lines, with a line feed behind each of them, is cut into the same lines,
as long as no line holds a line feed itself or ends with a carriage return, which would be taken for a
part of the line end.  Where the blanks at the ends of a line do not matter, that carriage return does
not either.

## Main definitions

* `Text.Joined` — a text that is put together from lines, with either line end behind each.

## Main results

* `Text.splitLines_append` — the first line of a text.
* `Text.splitLines_flatMap` — the lines of a text that was put together from lines.
* `Text.exists_splitLines_append` — the first line of a text, blanks at its ends apart.
* `Text.splitLines_append_of_endsLine` — a text is cut where a line ends.
-/

namespace TapeMachine.Text

/-- What may stand behind a line. -/
def lineEnds : List (List Char) :=
  [['\n'], ['\r', '\n']]

/-- A text that is put together from lines, with a line end behind each of them; the last line may do
without. -/
inductive Joined : List Line → List Char → Prop
  /-- No lines. -/
  | nil : Joined [] []
  /-- A last line without a line end. -/
  | last {line : Line} (h : '\n' ∉ line) : Joined [line] line
  /-- A line with its end, and the lines behind it. -/
  | cons {line : Line} {lineEnd text : List Char} {lines : List Line} (h : '\n' ∉ line)
      (hend : lineEnd ∈ lineEnds) (hlines : Joined lines text) :
      Joined (line :: lines) (line ++ lineEnd ++ text)

/-- A line that does not end with a carriage return ends as it is. -/
theorem endLine_reverse {line : Line} (h : line.getLast? ≠ some '\r') : endLine line.reverse = line := by
  unfold endLine
  split
  · next before heq =>
    have hline : line = before.reverse ++ ['\r'] := by
      rw [← List.reverse_reverse line, heq, List.reverse_cons]
    rw [hline, List.getLast?_concat] at h
    exact absurd rfl h
  · exact List.reverse_reverse line

/-- What is cut is a line up to the first line feed. -/
theorem splitLinesFrom_append {line : List Char} (h : '\n' ∉ line) (text : List Char) :
    ∀ current, splitLinesFrom current (line ++ '\n' :: text) =
      endLine (line.reverse ++ current) :: splitLines text := by
  induction line with
  | nil =>
    intro current
    rfl
  | cons c line ih =>
    intro current
    have hc : c ≠ '\n' := (List.ne_of_not_mem_cons h).symm
    rw [List.cons_append, splitLinesFrom, ih (List.not_mem_of_not_mem_cons h), List.reverse_cons,
      List.append_assoc]
    · rfl
    · exact hc

theorem splitLines_append_lineFeed {line : List Char} (h : '\n' ∉ line) (text : List Char) :
    splitLines (line ++ '\n' :: text) = endLine line.reverse :: splitLines text := by
  rw [splitLines, splitLinesFrom_append h, List.append_nil]

/-- **The first line of a text** that starts with a line and its end. -/
theorem splitLines_append {line : Line} (h : '\n' ∉ line) (hend : line.getLast? ≠ some '\r')
    (text : List Char) : splitLines (line ++ '\n' :: text) = line :: splitLines text := by
  rw [splitLines_append_lineFeed h, endLine_reverse hend]

/-- **A text that was put together from lines is cut into these lines.** -/
theorem splitLines_flatMap {lines : List Line}
    (h : ∀ line ∈ lines, '\n' ∉ line ∧ line.getLast? ≠ some '\r') :
    splitLines (lines.flatMap (· ++ ['\n'])) = lines := by
  induction lines with
  | nil => rfl
  | cons line lines ih =>
    obtain ⟨hline, hend⟩ := h line List.mem_cons_self
    rw [List.flatMap_cons, List.append_assoc, List.singleton_append, splitLines_append hline hend,
      ih fun other hother => h other (List.mem_cons_of_mem line hother)]

/-! ### Lines whose blanks do not matter -/

theorem blanks_carriageReturn : Blanks ['\r'] := by
  decide

theorem trim_endLine (current : List Char) : trim (endLine current) = trim current.reverse := by
  unfold endLine
  split
  · next before =>
    rw [List.reverse_cons, (padded_append_right blanks_carriageReturn _).trim_eq]
  · rfl

/-- **The first line of a text**, blanks at its ends apart, is the one in front of the first line end. -/
theorem exists_splitLines_append {line lineEnd : List Char} (h : '\n' ∉ line) (hend : lineEnd ∈ lineEnds)
    (text : List Char) : ∃ line', trim line' = trim line ∧
      splitLines (line ++ lineEnd ++ text) = line' :: splitLines text := by
  simp only [lineEnds, List.mem_cons, List.not_mem_nil, or_false] at hend
  rcases hend with rfl | rfl
  · refine ⟨endLine line.reverse, by rw [trim_endLine, List.reverse_reverse], ?_⟩
    rw [List.append_assoc, List.singleton_append, splitLines_append_lineFeed h]
  · have hfeed : '\n' ∉ line ++ ['\r'] := by simp [h]
    refine ⟨endLine (line ++ ['\r']).reverse, ?_, ?_⟩
    · rw [trim_endLine, List.reverse_reverse, (padded_append_right blanks_carriageReturn _).trim_eq]
    · rw [← splitLines_append_lineFeed hfeed]
      simp

/-- A text without line ends is one line, unless it is empty. -/
theorem splitLines_of_notMem {line : List Char} (h : '\n' ∉ line) :
    splitLines line = if line = [] then [] else [line] := by
  have hfrom : ∀ current, splitLinesFrom current line =
      if current.reverse ++ line = [] then [] else [current.reverse ++ line] := by
    induction line with
    | nil =>
      intro current
      cases current <;> simp [splitLinesFrom]
    | cons c line ih =>
      intro current
      have hc : c ≠ '\n' := (List.ne_of_not_mem_cons h).symm
      rw [splitLinesFrom, ih (List.not_mem_of_not_mem_cons h), List.reverse_cons, List.append_assoc,
        List.singleton_append]
      exact hc
  exact hfrom []

theorem splitLinesFrom_append_lineFeed (front text : List Char) : ∀ current,
    splitLinesFrom current (front ++ '\n' :: text) =
      splitLinesFrom current (front ++ ['\n']) ++ splitLines text := by
  induction front with
  | nil =>
    intro current
    rfl
  | cons c front ih =>
    intro current
    by_cases hc : c = '\n'
    · subst hc
      simp only [List.cons_append, splitLinesFrom, ih]
    · rw [List.cons_append, List.cons_append, splitLinesFrom, splitLinesFrom, ih]
      · exact hc
      · exact hc

/-- **A text is cut where a line ends**: the lines behind that place do not depend on those in front. -/
theorem splitLines_append_of_endsLine {front : List Char}
    (h : front = [] ∨ front.getLast? = some '\n') (text : List Char) :
    splitLines (front ++ text) = splitLines front ++ splitLines text := by
  rcases h with rfl | h
  · rfl
  · obtain ⟨front, rfl⟩ := List.getLast?_eq_some_iff.mp h
    rw [List.append_assoc, List.singleton_append]
    exact splitLinesFrom_append_lineFeed front text []

end TapeMachine.Text
