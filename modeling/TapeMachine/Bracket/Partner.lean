import TapeMachine.Text.Decimal
import TapeMachine.Text.Quoted

/-!
# The partner of a bracket

The partner of a bracket is found by scanning away from it and counting the brackets on the way: to
the right of an opening bracket, to the left of a closing one.  The scan is the same in both
directions, with the roles of the two brackets exchanged.

## Main definitions

* `PartnerError` — why a position has no partner.
* `Bracket.gap?` — how many characters lie between a bracket and its partner.
* `Bracket.partner?` — the partner of the bracket at an index of a stream of characters.
-/

namespace TapeMachine

/-- Why a position has no partner. -/
inductive PartnerError
  /-- The character at the index is not a bracket, or there is none. -/
  | notABracket (index : Nat) (found : Option Char)
  /-- The bracket at the index is not closed, or was not opened. -/
  | unmatched (index : Nat)
  deriving DecidableEq, Repr

namespace PartnerError

/-- How a message shows what was found at a position. -/
def showFound : Option Char → String
  | none => "None"
  | some c => "Some(" ++ Text.quote c ++ ")"

/-- The error in words. -/
def message : PartnerError → String
  | notABracket index found =>
    "tried to resolve a partner for a non-bracket position " ++ Decimal.text index ++ " (" ++
      showFound found ++ ")"
  | unmatched index => "bracket at position " ++ Decimal.text index ++ " has no partner"

end PartnerError

namespace Bracket

/-- `gap? rise fall depth passed cs` is `passed` plus the number of characters of `cs` in front of
the `fall` that closes a bracket when `depth` further ones are open in it: each `rise` opens one more
and each `fall` closes one.  It is `none` when no `fall` closes the bracket. -/
def gap? (rise fall : Char) : Nat → Nat → List Char → Option Nat
  | _, _, [] => none
  | depth, passed, c :: cs =>
    if c = rise then gap? rise fall (depth + 1) (passed + 1) cs
    else if c = fall then
      match depth with
      | 0 => some passed
      | depth + 1 => gap? rise fall depth (passed + 1) cs
    else gap? rise fall depth (passed + 1) cs

/-- The index of the partner of the bracket at `index`. -/
def partner? (flat : List Char) (index : Nat) : Except PartnerError Nat :=
  match flat[index]? with
  | some '[' =>
    match gap? '[' ']' 0 0 (flat.drop (index + 1)) with
    | some gap => .ok (index + 1 + gap)
    | none => .error (.unmatched index)
  | some ']' =>
    match gap? ']' '[' 0 0 (flat.take index).reverse with
    | some gap => .ok (index - 1 - gap)
    | none => .error (.unmatched index)
  | found => .error (.notABracket index found)

end Bracket

end TapeMachine
