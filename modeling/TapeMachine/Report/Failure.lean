import TapeMachine.Machine
import TapeMachine.Report.Excerpt

/-!
# Reports of failed runs

A program that is refused is reported with the line that holds the bracket; a line that the program
does not have is shown empty.  An error inside the machine has no place in the program and is reported
in one line.

## Main definitions

* `Report.headline` — the first line of a report, behind the name of the program that reports.
* `RunError.report?` — the whole report.
-/

namespace TapeMachine

/-- The first line of a report: the error in words, behind the name of who reports it. -/
def Report.headline (name : Option String) (error : RunError) : String :=
  match name with
  | some name => name ++ ": " ++ error.message
  | none => error.message

/-- The report of an error in a program; `none` where the excerpt has no window. -/
def RunError.report? (error : RunError) (colour : Bool) (name : Option String) (source : Source) :
    Option String :=
  let headline := (Report.headline name error).toList
  match error with
  | rejected error =>
    let place := error.place
    (Excerpt.render? colour headline place.line ((source.line? place.line).getD []) place.column).map
      String.ofList
  | internal _ => some (String.ofList (Paint.alarm.apply colour headline ++ ['\n']))

end TapeMachine
