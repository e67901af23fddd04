import TapeMachine.Proofs.Bracket.Verdict
import TapeMachine.Report.Failure

/-!
# The caret under the bracket

A program that is refused is reported with a part of the line that holds the bracket, and a caret under
it.  The place of the bracket is counted in characters from the start of its line, and so is the part
that is shown; the caret stands as far from the start as the gutter and the characters in front of the
bracket are long.  The bracket always is in its line, so the part that is shown has it and the caret is
under it, wherever in the line it stands.

## Main definitions

* `SyntaxError.bracket` — the bracket for which a program is refused.

## Main results

* `Source.charAt?_of_syntaxError` — the bracket stands where the error says.
* `Excerpt.getElem?_gutter_append_around` — what is shown above the caret.
* `Source.report?_of_syntaxError` — the whole report, and the bracket above the caret.
-/

namespace TapeMachine

/-- The bracket for which a program is refused. -/
def SyntaxError.bracket : SyntaxError → Char
  | .unexpectedClosing _ => ']'
  | .unclosedOpening _ => '['

namespace Excerpt

variable {text : Line} {position : Nat} {c : Char}

theorem toList_text_append (line : Nat) : (Decimal.text line ++ " | ").toList = gutter line := by
  rw [String.toList_append, Decimal.text, String.toList_ofList, gutter]

theorem around_eq (text : Line) (position : Nat) : around text position =
    (text.take (min (position + 33) text.length)).drop (position - 32) := by
  rw [around, ← List.take_eq_take_min]
  rfl

theorem length_around_le (text : Line) (position : Nat) : (around text position).length ≤ 65 := by
  rw [around_eq, List.length_drop, List.length_take]
  omega

/-- A position in a line always has a window. -/
theorem window?_of_lt (h : position < text.length) :
    window? text position = some (around text position) := by
  rw [window?, if_pos (.inl h)]

/-- An excerpt without colours, of a position in its line. -/
theorem render?_false (headline : List Char) (line : Nat) (h : position < text.length) :
    render? false headline line text (position + 1) = some (headline ++ ['\n'] ++ gutter line ++
      around text position ++ ['\n'] ++
      List.replicate ((gutter line).length + min position reach) ' ' ++ ['^', '\n']) := by
  rw [render?, Nat.add_sub_cancel, window?_of_lt h, Option.map_some]
  simp only [Paint.apply_false, List.append_assoc, List.cons_append, List.nil_append]

/-- **What is shown above the caret** is the character at the position. -/
theorem getElem?_gutter_append_around (line : Nat) (h : text[position]? = some c) :
    (gutter line ++ around text position)[(gutter line).length + min position reach]? = some c := by
  have hplace : position - reach + min position reach = position := by omega
  rw [List.getElem?_append_right (Nat.le_add_right _ _), Nat.add_sub_cancel_left, around,
    List.getElem?_drop, hplace, List.getElem?_take_of_lt (by omega), h]

end Excerpt

theorem RunError.message_rejected (error : SyntaxError) :
    (rejected error).message = "Syntax error: " ++ error.message := rfl

theorem Report.headline_rejected (name : Option String) (error : SyntaxError) :
    Report.headline name (.rejected error) =
      name.elim "" (· ++ ": ") ++ "Syntax error: " ++ error.message := by
  cases name with
  | none => rw [headline, RunError.message_rejected, Option.elim_none, String.empty_append]
  | some name => rw [headline, RunError.message_rejected, Option.elim_some, ← String.append_assoc]

namespace Source

variable {source : Source} {error : SyntaxError}

/-- **The bracket stands where the error says.** -/
theorem charAt?_of_syntaxError (h : source.syntaxError? = some error) :
    source.charAt? error.place = some error.bracket := by
  cases error with
  | unexpectedClosing place => exact (isLeast_of_unexpectedClosing h).1
  | unclosedOpening place => exact (isLeast_of_unclosedOpening h).1

/-- **The report of a refused program.**  Below the message, behind the name of who reports it, is the line
of the bracket behind a gutter with its number: the characters from the 32nd in front of the bracket up
to the 32nd behind it, as far as the line goes.  Below that is a caret under the bracket. -/
theorem report?_of_syntaxError (h : source.syntaxError? = some error) (name : Option String) :
    ∃ line window spaces, source.line? error.place.line = some line ∧
      (RunError.rejected error).report? false name source = some (String.ofList
        ((name.elim "" (· ++ ": ") ++ "Syntax error: " ++ error.message).toList ++ ['\n'] ++
          (Decimal.text error.place.line ++ " | ").toList ++ window ++ ['\n'] ++
          List.replicate spaces ' ' ++ ['^', '\n'])) ∧
      window = (line.take (min (error.place.column + 32) line.length)).drop
        (error.place.column - 33) ∧
      window.length ≤ 65 ∧
      ((Decimal.text error.place.line ++ " | ").toList ++ window)[spaces]? = some error.bracket := by
  obtain ⟨n, m, line, hplace, hline, hchar⟩ := charAt?_eq_some_iff.mp (charAt?_of_syntaxError h)
  have hinside : m < line.length := (List.getElem?_eq_some_iff.mp hchar).1
  have hplaced : source.line? error.place.line = some line := by
    rw [hplace]
    exact hline
  have hcolumn : error.place.column = m + 1 := by rw [hplace]
  refine ⟨line, Excerpt.around line m,
    (Excerpt.gutter error.place.line).length + min m Excerpt.reach, hplaced, ?_, ?_,
    Excerpt.length_around_le line m, ?_⟩
  · rw [RunError.report?, hplaced, Option.getD_some, hcolumn, Excerpt.render?_false _ _ hinside,
      Report.headline_rejected, Excerpt.toList_text_append, Option.map_some]
  · rw [Excerpt.around_eq, hcolumn, Nat.add_right_comm, Nat.add_sub_add_right]
  · rw [Excerpt.toList_text_append]
    exact Excerpt.getElem?_gutter_append_around _ hchar

/-- A bracket in the middle of a line that is longer than the window, behind characters of two bytes. -/
theorem report?_of_syntaxError_of_long_line :
    (Source.mk [['é'], List.replicate 40 'é' ++ ']' :: List.replicate 40 'é']).syntaxError? =
      some (.unexpectedClosing ⟨2, 41⟩) ∧
    ∃ line window spaces,
      (Source.mk [['é'], List.replicate 40 'é' ++ ']' :: List.replicate 40 'é']).line? 2 = some line ∧
      (RunError.rejected (.unexpectedClosing ⟨2, 41⟩)).report? false (some "bf")
          (Source.mk [['é'], List.replicate 40 'é' ++ ']' :: List.replicate 40 'é']) =
        some (String.ofList (((some "bf").elim "" (· ++ ": ") ++ "Syntax error: " ++
          (SyntaxError.unexpectedClosing ⟨2, 41⟩).message).toList ++ ['\n'] ++
          (Decimal.text 2 ++ " | ").toList ++ window ++ ['\n'] ++ List.replicate spaces ' ' ++
          ['^', '\n'])) ∧
      window = (line.take (min (41 + 32) line.length)).drop (41 - 33) ∧ window.length ≤ 65 ∧
      ((Decimal.text 2 ++ " | ").toList ++ window)[spaces]? = some ']' := by
  have herror : (Source.mk [['é'], List.replicate 40 'é' ++ ']' :: List.replicate 40 'é']).syntaxError? =
      some (.unexpectedClosing ⟨2, 41⟩) := by decide
  exact ⟨herror, report?_of_syntaxError herror (some "bf")⟩

end Source

end TapeMachine
