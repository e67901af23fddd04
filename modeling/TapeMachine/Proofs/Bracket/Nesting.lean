import TapeMachine.Proofs.Bracket.Dyck
import TapeMachine.Proofs.Bracket.Scanning

/-!
# Partners in any stream

A stream need not be balanced for its brackets to have partners: a scan stops at the partner long
before it comes to the place where the stream goes wrong.  Which brackets are partners can be said
without a scan.  The opening one comes first, and the brackets between the two are a Dyck word.  So the
scans from the two brackets of a pair lead to each other, and of two pairs either one lies inside the
other or they lie side by side.

## Main results

* `Bracket.matched_iff` — partners by what stands at two places and between them.
* `Bracket.Matched.lt_of_lt` — a pair that begins inside another one ends inside it.
* `Bracket.partner?_eq_ok_iff_dyckWord` — what the scan finds, in both directions.
* `Bracket.partner?_eq_cases` — the three answers of the scan, each with the places that get it.
-/

namespace TapeMachine

namespace Bracket

variable {flat : List Char} {i j : Nat}

/-! ### Partners by what stands between them -/

theorem Matched.lt (h : Matched flat i j) : i < j := by
  obtain ⟨before, inner, after, -, -, rfl, rfl⟩ := h
  omega

theorem Matched.balanced (h : Matched flat i j) : Balanced ((flat.take j).drop (i + 1)) := by
  obtain ⟨before, inner, after, rfl, hinner, rfl, rfl⟩ := h
  have hcut : ((before ++ '[' :: (inner ++ ']' :: after)).take
      (before.length + 1 + inner.length)).drop (before.length + 1) = inner := by
    rw [List.drop_take, Nat.add_sub_cancel_left]
    simp
  rw [hcut]
  exact hinner

/-- **Two brackets are partners when the opening one comes first and what stands between them is
balanced.** -/
theorem matched_iff : Matched flat i j ↔ i < j ∧ flat[i]? = some '[' ∧ flat[j]? = some ']' ∧
    Balanced ((flat.take j).drop (i + 1)) := by
  constructor
  · intro h
    exact ⟨h.lt, h.getElem?_opening, h.getElem?_closing, h.balanced⟩
  · rintro ⟨hlt, hopening, hclosing, hinner⟩
    have hj : j < flat.length := (List.getElem?_eq_some_iff.mp hclosing).1
    have hfront : (flat.take j)[i]? = some '[' := by rw [List.getElem?_take_of_lt hlt, hopening]
    have hsplit := eq_take_append_cons_drop hclosing
    rw [eq_take_append_cons_drop hfront] at hsplit
    refine ⟨(flat.take j).take i, (flat.take j).drop (i + 1), flat.drop (j + 1), ?_, hinner, ?_, ?_⟩
    · rw [List.append_assoc, List.cons_append] at hsplit
      exact hsplit
    · rw [List.length_take, List.length_take]
      omega
    · rw [List.length_take, List.length_drop, List.length_take]
      omega

/-! ### Pairs do not cross -/

/-- A bracket between two partners has its partner between them. -/
theorem Matched.exists_within {k : Nat} (h : Matched flat i j) (hik : i < k) (hkj : k < j) :
    (flat[k]? = some '[' → ∃ l, l < j ∧ Matched flat k l) ∧
      (flat[k]? = some ']' → ∃ l, i < l ∧ Matched flat l k) := by
  obtain ⟨before, inner, after, rfl, hinner, rfl, rfl⟩ := h
  obtain ⟨n, rfl⟩ : ∃ n, k = (before ++ ['[']).length + n :=
    ⟨k - (before.length + 1), by simp; omega⟩
  have hflat : before ++ '[' :: (inner ++ ']' :: after) =
      (before ++ ['[']) ++ (inner ++ ']' :: after) := by simp
  have hn : n < inner.length := by
    rw [List.length_append, List.length_singleton] at hkj
    omega
  have hchar : (before ++ '[' :: (inner ++ ']' :: after))[(before ++ ['[']).length + n]? =
      inner[n]? := by
    rw [hflat, List.getElem?_append_right (Nat.le_add_right _ _), Nat.add_sub_cancel_left,
      List.getElem?_append_left hn]
  obtain ⟨hopening, hclosing⟩ := hinner.exists_matched n
  rw [hchar, hflat]
  constructor
  · intro hc
    obtain ⟨m, hm⟩ := hopening hc
    have hlt : m < inner.length := (List.getElem?_eq_some_iff.mp hm.getElem?_closing).1
    refine ⟨_, ?_, hm.within (before ++ ['[']) (']' :: after)⟩
    rw [List.length_append, List.length_singleton]
    omega
  · intro hc
    obtain ⟨m, hm⟩ := hclosing hc
    refine ⟨_, ?_, hm.within (before ++ ['[']) (']' :: after)⟩
    rw [List.length_append, List.length_singleton]
    omega

/-- **A pair that begins inside another one ends inside it.** -/
theorem Matched.lt_of_lt {i' j' : Nat} (h : Matched flat i j) (h' : Matched flat i' j')
    (hi : i < i') (hj : i' < j) : j' < j := by
  obtain ⟨l, hlt, hl⟩ := (h.exists_within hi hj).1 h'.getElem?_opening
  rw [h'.right_unique hl]
  exact hlt

/-- A pair that ends inside another one begins inside it. -/
theorem Matched.lt_of_gt {i' j' : Nat} (h : Matched flat i j) (h' : Matched flat i' j')
    (hi : i < j') (hj : j' < j) : i < i' := by
  obtain ⟨l, hlt, hl⟩ := (h.exists_within hi hj).2 h'.getElem?_closing
  rw [h'.left_unique hl]
  exact hlt

/-! ### What the scan finds -/

theorem partner?_eq_ok_iff_min_max : partner? flat i = .ok j ↔ Matched flat (min i j) (max i j) := by
  rw [partner?_eq_ok_iff]
  rcases Nat.le_total i j with hle | hle
  · have hback : ¬ Matched flat j i := fun h => absurd h.lt (Nat.not_lt.mpr hle)
    rw [Nat.min_eq_left hle, Nat.max_eq_right hle, or_iff_left hback]
  · have hforth : ¬ Matched flat i j := fun h => absurd h.lt (Nat.not_lt.mpr hle)
    rw [Nat.min_eq_right hle, Nat.max_eq_left hle, or_iff_right hforth]

/-- **The scan finds the bracket of the other kind across which the brackets are a Dyck word**, with
the opening one of the two in front. -/
theorem partner?_eq_ok_iff_dyckWord : partner? flat i = .ok j ↔
    flat[min i j]? = some '[' ∧ flat[max i j]? = some ']' ∧
      ∃ word : DyckWord, word.toList = steps ((flat.take (max i j)).drop (min i j + 1)) := by
  rw [partner?_eq_ok_iff_min_max, matched_iff, balanced_iff_exists_dyckWord]
  constructor
  · intro h
    exact h.2
  · rintro ⟨hopening, hclosing, hinner⟩
    have hne : min i j ≠ max i j := by
      -- no character is both brackets
      intro heq
      rw [heq, hclosing] at hopening
      exact absurd hopening (by decide)
    exact ⟨Nat.lt_of_le_of_ne (by omega) hne, hopening, hclosing, hinner⟩

theorem partner?_comm : partner? flat i = .ok j ↔ partner? flat j = .ok i := by
  rw [partner?_eq_ok_iff, partner?_eq_ok_iff, or_comm]

/-- The scan from a bracket inside a pair stays inside the pair. -/
theorem partner?_within {i' j' : Nat} (h : partner? flat i = .ok j) (h' : partner? flat i' = .ok j')
    (hi : min i j < i') (hj : i' < max i j) : min i j < j' ∧ j' < max i j := by
  have hpair := partner?_eq_ok_iff_min_max.mp h
  rcases partner?_eq_ok_iff.mp h' with hright | hleft
  · exact ⟨hi.trans hright.lt, hpair.lt_of_lt hright hi hj⟩
  · exact ⟨hpair.lt_of_gt hleft hi hj, hleft.lt.trans hj⟩

/-! ### Where the scan finds nothing -/

theorem partner?_eq_notABracket_iff {index : Nat} {found : Option Char} :
    partner? flat i = .error (.notABracket index found) ↔
      index = i ∧ found = flat[i]? ∧ flat[i]? ≠ some '[' ∧ flat[i]? ≠ some ']' := by
  constructor
  · intro h
    by_cases hbracket : flat[i]? = some '[' ∨ flat[i]? = some ']'
    · -- at a bracket the scan fails for another reason
      have hunmatched := partner?_eq_unmatched hbracket h
      rw [h] at hunmatched
      cases hunmatched
    · rw [not_or] at hbracket
      rw [partner?_of_ne_bracket hbracket.1 hbracket.2] at h
      cases h
      exact ⟨rfl, rfl, hbracket⟩
  · rintro ⟨rfl, rfl, hopening, hclosing⟩
    exact partner?_of_ne_bracket hopening hclosing

theorem partner?_eq_unmatched_iff {index : Nat} : partner? flat i = .error (.unmatched index) ↔
    index = i ∧ (flat[i]? = some '[' ∨ flat[i]? = some ']') ∧ ∀ j, partner? flat i ≠ .ok j := by
  constructor
  · intro h
    have hbracket : flat[i]? = some '[' ∨ flat[i]? = some ']' := by
      by_contra hnone
      rw [not_or] at hnone
      rw [partner?_of_ne_bracket hnone.1 hnone.2] at h
      cases h
    have hindex := partner?_eq_unmatched hbracket h
    rw [h] at hindex
    cases hindex
    exact ⟨rfl, hbracket, fun j => by rw [h]; exact nofun⟩
  · rintro ⟨rfl, hbracket, hnone⟩
    cases hpartner : partner? flat index with
    | ok j => exact absurd hpartner (hnone j)
    | error error => rw [← hpartner, partner?_eq_unmatched hbracket hpartner]

/-- **The three answers of the scan.**  It finds a bracket exactly when one of the two places has an
opening bracket, the other one behind it has a closing one, and the brackets between them are a Dyck
word.  So it leads from each of two partners to the other, and from a bracket inside a pair to a bracket
inside this pair.  It refuses a place exactly when no bracket stands there, and says what it found.  At
every other bracket it says that there is no partner. -/
theorem partner?_eq_cases (flat : List Char) (i : Nat) :
    (∀ j, partner? flat i = .ok j ↔
      flat[min i j]? = some '[' ∧ flat[max i j]? = some ']' ∧
        ∃ word : DyckWord, word.toList = steps ((flat.take (max i j)).drop (min i j + 1))) ∧
    (∀ j, partner? flat i = .ok j ↔ partner? flat j = .ok i) ∧
    (∀ j i' j', partner? flat i = .ok j → partner? flat i' = .ok j' →
      min i j < i' → i' < max i j → min i j < j' ∧ j' < max i j) ∧
    (∀ index found, partner? flat i = .error (.notABracket index found) ↔
      index = i ∧ found = flat[i]? ∧ flat[i]? ≠ some '[' ∧ flat[i]? ≠ some ']') ∧
    ∀ index, partner? flat i = .error (.unmatched index) ↔
      index = i ∧ (flat[i]? = some '[' ∨ flat[i]? = some ']') ∧ ∀ j, partner? flat i ≠ .ok j := by
  refine ⟨fun j => partner?_eq_ok_iff_dyckWord, fun j => partner?_comm, ?_, ?_, ?_⟩
  · intro j i' j' h h' hi hj
    exact partner?_within h h' hi hj
  · intro index found
    exact partner?_eq_notABracket_iff
  · intro index
    exact partner?_eq_unmatched_iff

/-- A pair of an unbalanced stream, seen from its first place. -/
example : partner? "[x[]]]".toList 0 = .ok 4 ∧ partner? "[x[]]]".toList 4 = .ok 0 ∧
    partner? "[x[]]]".toList 5 = .error (.unmatched 5) := by decide

end Bracket

end TapeMachine
