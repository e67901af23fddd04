import TapeMachine.Source
import TapeMachine.Text.Decimal

/-!
# Balanced brackets

A program may run when every bracket in it has a partner.  The check reads the characters once and
keeps only how many brackets are open and where the outermost of them stands.  It stops at the first
closing bracket that closes nothing; brackets still open at the end are reported by the outermost
one.

## Main definitions

* `SyntaxError` — the bracket for which a program is refused.
* `Bracket.scan` — the check, from any point of the stream on.
* `Source.syntaxError?` — the check of a whole program.
-/

namespace TapeMachine

/-- The bracket for which a program is refused. -/
inductive SyntaxError
  /-- A closing bracket with nothing to close. -/
  | unexpectedClosing (place : Location)
  /-- An opening bracket that is never closed. -/
  | unclosedOpening (place : Location)
  deriving DecidableEq, Repr

namespace SyntaxError

/-- Where the refused bracket stands. -/
def place : SyntaxError → Location
  | unexpectedClosing place => place
  | unclosedOpening place => place

/-- What is wrong, without the place. -/
def headline : SyntaxError → String
  | unexpectedClosing _ => "Unexpected Closing Bracket"
  | unclosedOpening _ => "Unclosed Opening Bracket"

/-- The error in words. -/
def message (error : SyntaxError) : String :=
  error.headline ++ " at [line: " ++ Decimal.text error.place.line ++ " | char: " ++
    Decimal.text error.place.column ++ "]"

end SyntaxError

/-- Reads on with `depth` brackets open, the outermost of them at `outermost`. -/
def Bracket.scan : Nat → Location → List (Location × Char) → Option SyntaxError
  | 0, _, [] => none
  | _ + 1, outermost, [] => some (.unclosedOpening outermost)
  | depth, outermost, (here, c) :: rest =>
    if c = '[' then scan (depth + 1) (if depth = 0 then here else outermost) rest
    else if c = ']' then
      match depth with
      | 0 => some (.unexpectedClosing here)
      | depth + 1 => scan depth outermost rest
    else scan depth outermost rest

namespace Source

/-- The bracket for which a program is refused; `none` if it may run. -/
def syntaxError? (source : Source) : Option SyntaxError :=
  Bracket.scan 0 ⟨0, 0⟩ source.located

/-- The result of the check in words. -/
def verdict (source : Source) : String :=
  match source.syntaxError? with
  | none => "Valid Code"
  | some error => error.message

end Source

end TapeMachine
