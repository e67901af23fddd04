import TapeMachine.Bracket.Partner

/-!
# The jump table

One pass over a stream of characters pairs all its brackets: an opening bracket waits until the
closing bracket that finds it innermost.  The table keeps the partner of every index, so the machine
need not scan when it jumps.

## Main definitions

* `JumpTable` — the partner of every index.
* `JumpTable.ofChars` — the table of a stream, or the bracket that has no partner.
* `JumpTable.partner?`, `JumpTable.pairs` — a partner, and the number of pairs.
-/

namespace TapeMachine

/-- The partner of every index of a stream of characters. -/
structure JumpTable where
  /-- At the index of a bracket the index of its partner, and `none` elsewhere. -/
  partners : Array (Option Nat)
  deriving DecidableEq, Repr, Inhabited

namespace JumpTable

/-- Notes that the brackets at two indices are partners. -/
def pair (table : JumpTable) (i j : Nat) : JumpTable :=
  ⟨(table.partners.setIfInBounds i (some j)).setIfInBounds j (some i)⟩

/-- Reads on at `index` with the opening brackets at the indices `waiting`, innermost first.  A
closing bracket that finds none waiting has no partner, nor has the innermost one that still waits at
the end. -/
def pairFrom : Nat → List Nat → JumpTable → List Char → Except PartnerError JumpTable
  | _, [], table, [] => .ok table
  | _, innermost :: _, _, [] => .error (.unmatched innermost)
  | index, waiting, table, c :: cs =>
    if c = '[' then pairFrom (index + 1) (index :: waiting) table cs
    else if c = ']' then
      match waiting with
      | [] => .error (.unmatched index)
      | innermost :: outer => pairFrom (index + 1) outer (table.pair innermost index) cs
    else pairFrom (index + 1) waiting table cs

/-- The table of a stream of characters, or the bracket that has no partner. -/
def ofChars (flat : List Char) : Except PartnerError JumpTable :=
  pairFrom 0 [] ⟨Array.replicate flat.length none⟩ flat

/-- The partner of the bracket at an index; `none` if there is no bracket. -/
def partner? (table : JumpTable) (index : Nat) : Option Nat :=
  table.partners[index]?.join

/-- The number of pairs of brackets. -/
def pairs (table : JumpTable) : Nat :=
  table.partners.countP Option.isSome / 2

end JumpTable

end TapeMachine
