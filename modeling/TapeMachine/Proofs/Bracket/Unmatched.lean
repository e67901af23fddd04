import Mathlib.Order.Bounds.Basic
import TapeMachine.Proofs.Bracket.Scanning

/-!
# Brackets without a partner

A bracket that has no partner is *stray* if it closes and *unclosed* if it opens.  The three shapes
of a stream say which of them there are.  A balanced stream has none.  A stream that goes wrong at a
closing bracket has its first stray bracket there.  A stream that goes wrong at an opening bracket
has no stray bracket at all, and its first unclosed bracket there.

## Main definitions

* `Bracket.Stray flat k`, `Bracket.Unclosed flat k` — the bracket at `k` has no partner.

## Main results

* `Bracket.stray_iff`, `Bracket.unclosed_iff` — the scan fails at these brackets.
* `Bracket.isLeast_stray`, `Bracket.isLeast_unclosed` — where a stream goes wrong first.
* `Bracket.isGreatest_unclosed_append`, `Bracket.isGreatest_unclosed_of_balanced` — its last unclosed
  bracket is the last one of what stands behind.
* `Bracket.Opens.not_stray` — where only opening brackets are wrong, nothing is stray.
-/

namespace TapeMachine

namespace Bracket

/-- The bracket at `k` closes nothing. -/
def Stray (flat : List Char) (k : Nat) : Prop :=
  flat[k]? = some ']' ∧ ∀ i, ¬ Matched flat i k

/-- The bracket at `k` is never closed. -/
def Unclosed (flat : List Char) (k : Nat) : Prop :=
  flat[k]? = some '[' ∧ ∀ j, ¬ Matched flat k j

variable {flat before after : List Char} {k : Nat}

/-! ### The scan fails at these brackets -/

/-- **A closing bracket is stray exactly when the scan fails at it.** -/
theorem stray_iff :
    Stray flat k ↔ flat[k]? = some ']' ∧ ∃ error, partner? flat k = .error error := by
  refine and_congr_right fun hclosing => ?_
  have hright : ∀ j, ¬ Matched flat k j := fun j => not_matched_of_closing hclosing
  simp [exists_partner?_eq_error_iff, hright]

/-- **An opening bracket is unclosed exactly when the scan fails at it.** -/
theorem unclosed_iff :
    Unclosed flat k ↔ flat[k]? = some '[' ∧ ∃ error, partner? flat k = .error error := by
  refine and_congr_right fun hopening => ?_
  have hleft : ∀ i, ¬ Matched flat i k := fun i => not_matched_of_opening hopening
  simp [exists_partner?_eq_error_iff, hleft]

theorem Stray.partner?_eq (h : Stray flat k) : partner? flat k = .error (.unmatched k) := by
  obtain ⟨hclosing, error, herror⟩ := stray_iff.mp h
  exact partner?_eq_unmatched (.inr hclosing) herror

theorem Unclosed.partner?_eq (h : Unclosed flat k) : partner? flat k = .error (.unmatched k) := by
  obtain ⟨hopening, error, herror⟩ := unclosed_iff.mp h
  exact partner?_eq_unmatched (.inl hopening) herror

/-! ### Balanced streams -/

theorem Balanced.not_stray (h : Balanced flat) : ¬ Stray flat k := by
  rintro ⟨hchar, hnone⟩
  obtain ⟨i, hi⟩ := (h.exists_matched k).2 hchar
  exact hnone i hi

theorem Balanced.not_unclosed (h : Balanced flat) : ¬ Unclosed flat k := by
  rintro ⟨hchar, hnone⟩
  obtain ⟨j, hj⟩ := (h.exists_matched k).1 hchar
  exact hnone j hj

/-! ### Longer streams -/

theorem Matched.append_right {i j : Nat} (h : Matched flat i j) (after : List Char) :
    Matched (flat ++ after) i j := by
  simpa using h.within [] after

theorem Matched.append_left {i j : Nat} (h : Matched flat i j) (before : List Char) :
    Matched (before ++ flat) (before.length + i) (before.length + j) := by
  simpa using h.within before []

theorem Stray.of_append (h : Stray (before ++ flat) (before.length + k)) : Stray flat k := by
  obtain ⟨hchar, hnone⟩ := h
  rw [List.getElem?_append_right (Nat.le_add_right _ _), Nat.add_sub_cancel_left] at hchar
  exact ⟨hchar, fun i hi => hnone _ (hi.append_left before)⟩

/-- A balanced part has no stray bracket, whatever follows it. -/
theorem Stray.length_le (hbefore : Balanced before) (h : Stray (before ++ after) k) :
    before.length ≤ k := by
  by_contra hlt
  obtain ⟨hchar, hnone⟩ := h
  rw [List.getElem?_append_left (Nat.lt_of_not_le hlt)] at hchar
  exact hbefore.not_stray ⟨hchar, fun i hi => hnone i (hi.append_right after)⟩

theorem Unclosed.length_le (hbefore : Balanced before) (h : Unclosed (before ++ after) k) :
    before.length ≤ k := by
  by_contra hlt
  obtain ⟨hchar, hnone⟩ := h
  rw [List.getElem?_append_left (Nat.lt_of_not_le hlt)] at hchar
  exact hbefore.not_unclosed ⟨hchar, fun j hj => hnone j (hj.append_right after)⟩

theorem unclosed_iff_gap : Unclosed flat k ↔
    flat[k]? = some '[' ∧ gap? '[' ']' 0 0 (flat.drop (k + 1)) = none := by
  refine and_congr_right fun hchar => ?_
  constructor
  · intro hnone
    rw [Option.eq_none_iff_forall_ne_some]
    intro gap hgap
    exact hnone _ ((matched_iff_gap_right hchar).mpr ⟨gap, hgap, rfl⟩)
  · intro hgap j hj
    obtain ⟨gap, hsome, -⟩ := (matched_iff_gap_right hchar).mp hj
    rw [hgap] at hsome
    cases hsome

/-- What stands in front of a bracket does not help to close it. -/
theorem unclosed_append_iff :
    Unclosed (before ++ flat) (before.length + k) ↔ Unclosed flat k := by
  rw [unclosed_iff_gap, unclosed_iff_gap, List.getElem?_append_right (Nat.le_add_right _ _),
    Nat.add_sub_cancel_left, Nat.add_assoc, List.drop_append, List.drop_of_length_le (by omega)]
  simp

theorem unclosed_cons_iff {c : Char} : Unclosed (c :: flat) (k + 1) ↔ Unclosed flat k := by
  have happend := @unclosed_append_iff flat [c] k
  rwa [List.length_singleton, Nat.add_comm] at happend

/-! ### Where a stream goes wrong -/

/-- **The first stray bracket.**  A bracket that closes nothing behind a balanced part is the first
one that closes nothing. -/
theorem isLeast_stray (hbefore : Balanced before) (after : List Char) :
    IsLeast {k | Stray (before ++ ']' :: after) k} before.length := by
  refine ⟨⟨by simp, fun i hi => ?_⟩, fun k hk => hk.length_le hbefore⟩
  -- a partner would stand in the balanced part, and has its partner there
  have hlt : i < before.length := by
    obtain ⟨_, inner, _, -, -, rfl, hlength⟩ := hi
    omega
  have hchar := hi.getElem?_opening
  rw [List.getElem?_append_left hlt] at hchar
  obtain ⟨j, hj⟩ := (hbefore.exists_matched i).1 hchar
  have hj' := hi.right_unique (hj.append_right (']' :: after))
  have hin := (List.getElem?_eq_some_iff.mp hj.getElem?_closing).1
  omega

/-- **Where only opening brackets are wrong, nothing is stray.** -/
theorem Opens.not_stray (h : Opens flat) : ∀ {k : Nat}, ¬ Stray flat k := by
  induction h with
  | inside hflat => exact hflat.not_stray
  | @opening inner flat hinner _ ih =>
    intro k hk
    have hle := hk.length_le hinner
    obtain ⟨n, rfl⟩ := Nat.exists_eq_add_of_le hle
    have hrest := hk.of_append
    -- it is not the opening bracket itself, and behind that there is none
    cases n with
    | zero => simpa using hrest.1
    | succ n =>
      rw [Nat.add_comm n 1] at hrest
      exact ih (@Stray.of_append flat ['['] n hrest)

/-- **The first unclosed bracket.**  A bracket that is not closed behind a balanced part is the first
one that is not closed. -/
theorem isLeast_unclosed (hbefore : Balanced before) (hafter : Opens after) :
    IsLeast {k | Unclosed (before ++ '[' :: after) k} before.length := by
  refine ⟨?_, fun k hk => hk.length_le hbefore⟩
  have hunclosed : Unclosed ('[' :: after) 0 :=
    unclosed_iff_gap.mpr ⟨rfl, gap?_of_opens hafter 0 0⟩
  exact unclosed_append_iff (k := 0).mpr hunclosed

/-! ### The last unclosed bracket -/

theorem isGreatest_unclosed_cons {c : Char} (h : IsGreatest {k | Unclosed flat k} k) :
    IsGreatest {k | Unclosed (c :: flat) k} (k + 1) := by
  refine ⟨unclosed_cons_iff.mpr h.1, fun n hn => ?_⟩
  cases n with
  | zero => exact Nat.zero_le _
  | succ n =>
    have hle := h.2 (unclosed_cons_iff.mp hn)
    omega

theorem isGreatest_unclosed_append (before : List Char) (h : IsGreatest {k | Unclosed flat k} k) :
    IsGreatest {k | Unclosed (before ++ flat) k} (before.length + k) := by
  refine ⟨unclosed_append_iff.mpr h.1, fun n hn => ?_⟩
  rcases Nat.lt_or_ge n before.length with hlt | hge
  · omega
  · obtain ⟨m, rfl⟩ := Nat.exists_eq_add_of_le hge
    have hle := h.2 (unclosed_append_iff.mp hn)
    omega

theorem isGreatest_unclosed_of_balanced (hafter : Balanced after) :
    IsGreatest {k | Unclosed ('[' :: after) k} 0 := by
  refine ⟨(isLeast_unclosed .nil (.inside hafter)).1, fun n hn => ?_⟩
  cases n with
  | zero => exact Nat.le_refl 0
  | succ n => exact absurd (unclosed_cons_iff.mp hn) hafter.not_unclosed

end Bracket

end TapeMachine
