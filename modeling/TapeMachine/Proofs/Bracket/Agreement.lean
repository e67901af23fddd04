import TapeMachine.Proofs.Bracket.Table
import TapeMachine.Proofs.Bracket.Verdict

/-!
# The check and the jump table agree

The check walks the lines with a depth, and the table is built from the stream with a stack.  They
refuse the same programs.  A stray bracket is the same for both, one naming its place and the other
its index.  Among brackets that are never closed the check names the first and the table the last, so
these differ as soon as there are two.

## Main results

* `Source.exists_unexpectedClosing_iff` — the check names the first stray bracket.
* `Source.syntaxError?_agrees_with_table` — the check and the table side by side.
-/

namespace TapeMachine

open TapeMachine.Bracket

namespace Source

variable {source : Source} {k : Nat}

/-- The check reports the stray bracket at `k` exactly when it is the first one. -/
theorem exists_unexpectedClosing_iff :
    (∃ place, source.syntaxError? = some (.unexpectedClosing place) ∧ source.index place = k) ↔
      IsLeast {k | Stray source.chars k} k := by
  constructor
  · rintro ⟨place, hplace, rfl⟩
    exact (isLeast_of_unexpectedClosing hplace).2
  · intro hleast
    cases herror : source.syntaxError? with
    | none => exact absurd hleast.1 (syntaxError?_eq_none_iff.mp herror).not_stray
    | some error =>
      cases error with
      | unexpectedClosing place =>
        exact ⟨place, rfl, (isLeast_of_unexpectedClosing herror).2.unique hleast⟩
      | unclosedOpening place =>
        exact absurd hleast.1 ((isLeast_of_unclosedOpening herror).2.1 k)

/-- **The check and the table side by side.**  A program is accepted exactly when its stream has a
table.  The check reports a stray bracket exactly when the table names its index.  When the check
reports an unclosed bracket, the table names one at or behind it; the scan fails at both, and they are
the same exactly when there is no other. -/
theorem syntaxError?_agrees_with_table (source : Source) :
    (source.syntaxError? = none ↔ ∃ table, JumpTable.ofChars source.chars = .ok table) ∧
    (∀ k, (∃ place, source.syntaxError? = some (.unexpectedClosing place) ∧
        source.index place = k) ↔
      JumpTable.ofChars source.chars = .error (.unmatched k) ∧ source.chars[k]? = some ']') ∧
    ∀ place, source.syntaxError? = some (.unclosedOpening place) →
      ∃ k', JumpTable.ofChars source.chars = .error (.unmatched k') ∧ source.index place ≤ k' ∧
        source.chars[source.index place]? = some '[' ∧ source.chars[k']? = some '[' ∧
        partner? source.chars (source.index place) = .error (.unmatched (source.index place)) ∧
        partner? source.chars k' = .error (.unmatched k') ∧
        (source.index place = k' ↔ ∃! i, Unclosed source.chars i) := by
  refine ⟨?_, fun k => ?_, fun place hplace => ?_⟩
  · rw [syntaxError?_eq_none_iff, JumpTable.exists_ofChars_eq_ok_iff]
  · rw [exists_unexpectedClosing_iff, JumpTable.ofChars_eq_error_iff]
    constructor
    · intro hleast
      exact ⟨.inl hleast, hleast.1.1⟩
    · rintro ⟨hleast | ⟨-, hgreatest⟩, hclosing⟩
      · exact hleast
      · have hchar := hgreatest.1.1
        simp [hclosing] at hchar
  · obtain ⟨-, hstray, hleast, -⟩ := isLeast_of_unclosedOpening hplace
    cases htable : JumpTable.ofChars source.chars with
    | ok table =>
      have hbalanced := JumpTable.balanced_of_ofChars htable
      exact absurd hleast.1 hbalanced.not_unclosed
    | error error =>
      obtain ⟨k', rfl, hstray' | ⟨-, hgreatest⟩⟩ :=
        JumpTable.isLeast_or_isGreatest_of_ofChars htable
      · exact absurd hstray'.1 (hstray k')
      · refine ⟨k', rfl, hgreatest.2 hleast.1, hleast.1.1, hgreatest.1.1,
          Unclosed.partner?_eq hleast.1, Unclosed.partner?_eq hgreatest.1, ?_⟩
        constructor
        · -- every unclosed bracket lies between the first one and the last one
          intro heq
          refine ⟨k', hgreatest.1, fun i hi => Nat.le_antisymm (hgreatest.2 hi) ?_⟩
          exact heq ▸ hleast.2 hi
        · intro hunique
          exact hunique.unique hleast.1 hgreatest.1

/-- Two brackets are never closed, and an empty line and a longer character stand before the second. -/
example : (ofLines ["+[", "", "é[[]"]).syntaxError? = some (.unclosedOpening ⟨1, 2⟩) ∧
    JumpTable.ofChars (ofLines ["+[", "", "é[[]"]).chars = .error (.unmatched 3) := by decide

end Source

end TapeMachine
