import TapeMachine.Machine
import TapeMachine.Proofs.Lines
import TapeMachine.Proofs.Places

/-!
# Line ends

Lines are written one below the other with a line end behind each, and each may have either line end; the
last line may do without, unless it is empty, as there would be nothing left of it.  Whatever the choice, the
text is cut into the lines again, so it is the same program: its brackets have the same places, and it runs
alike.

No line of a program that was read from a text holds a line feed.  Its characters are those of the lines,
and each of them has one place.

## Main definitions

* `Text.Written` — a text in which lines are written one below the other.

## Main results

* `Text.splitLines_of_written` — the text is cut into the lines.
* `Text.lineFeed_notMem_of_mem_splitLines` — no line of a text holds a line feed.
* `Source.ofText_of_written` — line ends do not matter, and places are exact.
-/

namespace TapeMachine

namespace Text

/-- A text in which lines are written one below the other, with either line end behind each of them; the last
one may do without, if it is not empty. -/
inductive Written : List Line → List Char → Prop
  /-- No lines. -/
  | nil : Written [] []
  /-- A last line without a line end. -/
  | last {line : Line} (h : line ≠ []) : Written [line] line
  /-- A line with its end, and the lines behind it. -/
  | cons {line : Line} {lineEnd text : List Char} {lines : List Line} (hend : lineEnd ∈ lineEnds)
      (hlines : Written lines text) : Written (line :: lines) (line ++ lineEnd ++ text)

variable {line : Line} {lineEnd text : List Char} {lines : List Line}

/-- The first line of a text, whichever line end it has. -/
theorem splitLines_append_lineEnd (h : '\n' ∉ line) (hreturn : line.getLast? ≠ some '\r')
    (hend : lineEnd ∈ lineEnds) (text : List Char) :
    splitLines (line ++ lineEnd ++ text) = line :: splitLines text := by
  simp only [lineEnds, List.mem_cons, List.not_mem_nil, or_false] at hend
  rcases hend with rfl | rfl
  · rw [List.append_assoc]
    exact splitLines_append h hreturn text
  · -- the carriage return is the last character that is read of the line, and then dropped
    have hfeed : '\n' ∉ line ++ ['\r'] := by simp [h]
    have hdropped : endLine (line ++ ['\r']).reverse = line := by
      rw [List.reverse_concat, endLine, List.reverse_reverse]
    have hcut := splitLines_append_lineFeed hfeed text
    rw [hdropped, List.append_assoc] at hcut
    rw [List.append_assoc]
    exact hcut

/-- **Lines that are written one below the other are read back.** -/
theorem splitLines_of_written (h : Written lines text)
    (hlines : ∀ line ∈ lines, '\n' ∉ line ∧ line.getLast? ≠ some '\r') : splitLines text = lines := by
  induction h with
  | nil => rfl
  | @last line hne =>
    rw [splitLines_of_notMem (hlines line List.mem_cons_self).1, if_neg hne]
  | @cons line lineEnd text lines hend _ ih =>
    obtain ⟨hfeed, hreturn⟩ := hlines line List.mem_cons_self
    rw [splitLines_append_lineEnd hfeed hreturn hend,
      ih fun other hother => hlines other (List.mem_cons_of_mem line hother)]

theorem mem_of_mem_endLine {current : List Char} {c : Char} (h : c ∈ endLine current) : c ∈ current := by
  unfold endLine at h
  split at h
  · exact List.mem_cons_of_mem _ (List.mem_reverse.mp h)
  · exact List.mem_reverse.mp h

theorem lineFeed_notMem_of_mem_splitLinesFrom : ∀ {current : List Char}, '\n' ∉ current →
    ∀ line ∈ splitLinesFrom current text, '\n' ∉ line := by
  induction text with
  | nil =>
    intro current h line hline
    cases current with
    | nil => cases hline
    | cons c current =>
      rw [List.mem_singleton.mp hline, List.mem_reverse]
      exact h
  | cons c text ih =>
    intro current h line hline
    by_cases hc : c = '\n'
    · subst hc
      rcases List.mem_cons.mp hline with rfl | hline
      · exact fun hmem => h (mem_of_mem_endLine hmem)
      · exact ih List.not_mem_nil line hline
    · rw [splitLinesFrom] at hline
      · exact ih (List.not_mem_cons_of_ne_of_not_mem (Ne.symm hc) h) line hline
      · exact hc

/-- **No line of a text holds a line feed.** -/
theorem lineFeed_notMem_of_mem_splitLines (text : List Char) : ∀ line ∈ splitLines text, '\n' ∉ line :=
  lineFeed_notMem_of_mem_splitLinesFrom List.not_mem_nil

end Text

namespace Source

/-- **Line ends do not matter, and places are exact.**  A text in which lines are written one below the other
is the program of these lines, whichever line ends it has: it is refused at the same place, and it runs alike
under the eyes of any observer.  In the program of any text no line holds a line feed, the characters are those
of the lines one after the other, and each of them has exactly one place. -/
theorem ofText_of_written (text : String) :
    (∀ lines : List String, Text.Written (lines.map String.toList) text.toList →
      (∀ line ∈ lines, '\n' ∉ line.toList ∧ line.toList.getLast? ≠ some '\r') →
      ofText text = ofLines lines ∧
      (ofText text).syntaxError? = (ofLines lines).syntaxError? ∧
      ∀ (σ : Type) (watch : σ → Event → σ) (seen : σ) (fuel : Nat) (tape : Tape) (input : List UInt8),
        (ofText text).observe watch seen fuel tape input =
          (ofLines lines).observe watch seen fuel tape input) ∧
    (∀ line ∈ (ofText text).lines, '\n' ∉ line) ∧
    (ofText text).chars = (ofText text).lines.flatten ∧
    ∀ k < (ofText text).chars.length, ∃! place,
      (ofText text).charAt? place = (ofText text).chars[k]? ∧ (ofText text).index place = k := by
  refine ⟨fun lines hwritten hlines => ?_, Text.lineFeed_notMem_of_mem_splitLines _, rfl,
    fun k hk => existsUnique_place hk⟩
  have hcut : Text.splitLines text.toList = lines.map String.toList := by
    refine Text.splitLines_of_written hwritten fun line hline => ?_
    obtain ⟨line, hmem, rfl⟩ := List.mem_map.mp hline
    exact hlines line hmem
  have hsame : ofText text = ofLines lines := by rw [ofText, ofLines, hcut]
  refine ⟨hsame, ?_, fun σ watch seen fuel tape input => ?_⟩
  · rw [hsame]
  · rw [hsame]

/-- Both line ends, an empty line, a carriage return in the middle of a line, and no end behind the last
one. -/
theorem ofText_of_written_of_mixed_ends :
    Text.Written (["[é", "", "-\r]"].map String.toList) "[é\r\n\n-\r]".toList ∧
    (∀ line ∈ ["[é", "", "-\r]"], '\n' ∉ line.toList ∧ line.toList.getLast? ≠ some '\r') ∧
    ofText "[é\r\n\n-\r]" = ofLines ["[é", "", "-\r]"] := by
  have hwritten : Text.Written (["[é", "", "-\r]"].map String.toList) "[é\r\n\n-\r]".toList := by
    have hlast : Text.Written ["-\r]".toList] "-\r]".toList := .last (by decide)
    have hlines : ['\n'] ∈ Text.lineEnds ∧ ['\r', '\n'] ∈ Text.lineEnds := by decide
    exact .cons hlines.2 (.cons hlines.1 hlast)
  have hlines : ∀ line ∈ ["[é", "", "-\r]"], '\n' ∉ line.toList ∧ line.toList.getLast? ≠ some '\r' := by
    decide
  exact ⟨hwritten, hlines, ((ofText_of_written _).1 _ hwritten hlines).1⟩

end Source

end TapeMachine
