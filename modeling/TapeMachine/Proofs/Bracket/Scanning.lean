import TapeMachine.Bracket.Partner
import TapeMachine.Proofs.Bracket.Balanced

/-!
# What the scan for a partner finds

The scan counts brackets and knows nothing of the grammar.  Started behind an opening bracket it
passes over every balanced part and stops at the first closing bracket behind one, so what it has
passed is balanced.  Started in front of a closing bracket it reads the stream backwards with the
brackets exchanged, and a balanced stream read that way is balanced again; so both directions are
settled by the one to the right.

## Main definitions

* `Bracket.mirror` — a stream read backwards with the brackets exchanged.

## Main results

* `Bracket.gap?_eq_some_iff`, `Bracket.gap?_reverse_eq_some_iff` — the scan measures a balanced gap.
* `Bracket.partner?_eq_ok_iff` — the scan finds the partner of a bracket, and nothing else.
* `Bracket.Matched.right_unique`, `Bracket.Matched.left_unique` — a bracket has one partner.
-/

namespace TapeMachine

namespace Bracket

/-! ### One character -/

section

variable (depth passed : Nat) (flat : List Char)

@[simp] theorem gap?_opening : gap? '[' ']' depth passed ('[' :: flat) =
    gap? '[' ']' (depth + 1) (passed + 1) flat := by
  simp [gap?]

@[simp] theorem gap?_closing_zero : gap? '[' ']' 0 passed (']' :: flat) = some passed := by
  simp [gap?]

@[simp] theorem gap?_closing_succ : gap? '[' ']' (depth + 1) passed (']' :: flat) =
    gap? '[' ']' depth (passed + 1) flat := by
  simp [gap?]

theorem gap?_comment {c : Char} (hopening : c ≠ '[') (hclosing : c ≠ ']') :
    gap? '[' ']' depth passed (c :: flat) = gap? '[' ']' depth (passed + 1) flat := by
  simp [gap?, hopening, hclosing]

end

/-! ### To the right -/

/-- The scan passes over a balanced stream. -/
theorem gap?_append_of_balanced {flat : List Char} (h : Balanced flat) :
    ∀ (depth passed : Nat) (rest : List Char), gap? '[' ']' depth passed (flat ++ rest) =
      gap? '[' ']' depth (passed + flat.length) rest := by
  induction h with
  | nil => simp
  | @comment c flat hopening hclosing _ ih =>
    intro depth passed rest
    rw [List.cons_append, gap?_comment _ _ _ hopening hclosing, ih, List.length_cons]
    congr 1
    omega
  | @pair inner flat _ _ ihinner ihflat =>
    intro depth passed rest
    rw [List.cons_append, List.append_assoc, List.cons_append, gap?_opening, ihinner,
      gap?_closing_succ, ihflat]
    congr 1
    simp only [List.length_cons, List.length_append]
    omega

theorem gap?_of_balanced {flat : List Char} (h : Balanced flat) (depth passed : Nat) :
    gap? '[' ']' depth passed flat = none := by
  have hpass := gap?_append_of_balanced h depth passed []
  rwa [List.append_nil, gap?] at hpass

theorem gap?_of_opens {flat : List Char} (h : Opens flat) :
    ∀ depth passed : Nat, gap? '[' ']' depth passed flat = none := by
  induction h with
  | inside hflat => exact gap?_of_balanced hflat
  | opening hinner _ ih =>
    intro depth passed
    rw [gap?_append_of_balanced hinner, gap?_opening, ih]

/-- **To the right the scan measures the balanced gap in front of a closing bracket.** -/
theorem gap?_eq_some_iff {flat : List Char} {gap : Nat} : gap? '[' ']' 0 0 flat = some gap ↔
    ∃ inner after, flat = inner ++ ']' :: after ∧ Balanced inner ∧ inner.length = gap := by
  constructor
  · intro h
    cases shape flat with
    | balanced hflat => rw [gap?_of_balanced hflat] at h; cases h
    | @stray before hbefore after =>
      rw [gap?_append_of_balanced hbefore, gap?_closing_zero, Nat.zero_add] at h
      exact ⟨before, after, rfl, hbefore, Option.some.inj h⟩
    | unclosed hbefore hafter =>
      rw [gap?_of_opens (.opening hbefore hafter)] at h
      cases h
  · rintro ⟨inner, after, rfl, hinner, rfl⟩
    rw [gap?_append_of_balanced hinner, gap?_closing_zero, Nat.zero_add]

/-! ### To the left -/

/-- The other bracket; a comment character stays what it is. -/
def turn : Char → Char
  | '[' => ']'
  | ']' => '['
  | c => c

@[simp] theorem turn_opening : turn '[' = ']' := rfl

@[simp] theorem turn_closing : turn ']' = '[' := rfl

theorem turn_comment {c : Char} (hopening : c ≠ '[') (hclosing : c ≠ ']') : turn c = c := by
  unfold turn
  split <;> simp_all

@[simp] theorem turn_turn (c : Char) : turn (turn c) = c := by
  cases c using char_cases with
  | opening => rfl
  | closing => rfl
  | comment c hopening hclosing => simp [turn_comment hopening hclosing]

/-- A stream read from its end, with the two brackets exchanged. -/
def mirror (flat : List Char) : List Char :=
  (flat.map turn).reverse

@[simp] theorem mirror_mirror (flat : List Char) : mirror (mirror flat) = flat := by
  have hturn : turn ∘ turn = id := funext turn_turn
  simp [mirror, hturn]

@[simp] theorem mirror_append (flat flat' : List Char) :
    mirror (flat ++ flat') = mirror flat' ++ mirror flat := by
  simp [mirror]

@[simp] theorem mirror_cons (c : Char) (flat : List Char) :
    mirror (c :: flat) = mirror flat ++ [turn c] := by
  simp [mirror]

@[simp] theorem length_mirror (flat : List Char) : (mirror flat).length = flat.length := by
  simp [mirror]

/-- A balanced stream is balanced when it is read from its end. -/
theorem Balanced.mirror {flat : List Char} (h : Balanced flat) : Balanced (mirror flat) := by
  induction h with
  | nil => exact .nil
  | comment hopening hclosing _ ih =>
    rw [mirror_cons, turn_comment hopening hclosing]
    exact ih.append (.comment hopening hclosing .nil)
  | @pair inner flat _ _ ihinner ihflat =>
    have hpair := ihflat.append (.pair ihinner .nil)
    simpa using hpair

/-- The scan to the left is the scan to the right over the exchanged brackets. -/
theorem gap?_map_turn (flat : List Char) : ∀ depth passed : Nat,
    gap? ']' '[' depth passed flat = gap? '[' ']' depth passed (flat.map turn) := by
  induction flat with
  | nil =>
    intro depth passed
    rfl
  | cons c flat ih =>
    intro depth passed
    rw [List.map_cons]
    cases c using char_cases with
    | opening => cases depth <;> simp [gap?, ih]
    | closing => simp [gap?, ih]
    | comment c hopening hclosing =>
      rw [turn_comment hopening hclosing, gap?_comment _ _ _ hopening hclosing, ← ih]
      simp [gap?, hopening, hclosing]

/-- **To the left the scan measures the balanced gap behind an opening bracket.** -/
theorem gap?_reverse_eq_some_iff {flat : List Char} {gap : Nat} :
    gap? ']' '[' 0 0 flat.reverse = some gap ↔
      ∃ before inner, flat = before ++ '[' :: inner ∧ Balanced inner ∧ inner.length = gap := by
  have hmirror : flat.reverse.map turn = mirror flat := by simp [mirror]
  rw [gap?_map_turn, hmirror, gap?_eq_some_iff]
  constructor
  · rintro ⟨inner, after, hflat, hinner, rfl⟩
    refine ⟨mirror after, mirror inner, ?_, hinner.mirror, length_mirror inner⟩
    have hback := congrArg mirror hflat
    simpa using hback
  · rintro ⟨before, inner, rfl, hinner, rfl⟩
    exact ⟨mirror inner, mirror before, by simp, hinner.mirror, length_mirror inner⟩

/-! ### The partner of a bracket -/

section

variable {flat : List Char} {i j : Nat}

/-- What stands in front of a place, at it and behind it. -/
theorem eq_take_append_cons_drop {k : Nat} {c : Char} (h : flat[k]? = some c) :
    flat = flat.take k ++ c :: flat.drop (k + 1) := by
  obtain ⟨hlt, hget⟩ := List.getElem?_eq_some_iff.mp h
  rw [← hget, List.getElem_cons_drop, List.take_append_drop]

theorem matched_iff_gap_right (hi : flat[i]? = some '[') : Matched flat i j ↔
    ∃ gap, gap? '[' ']' 0 0 (flat.drop (i + 1)) = some gap ∧ j = i + 1 + gap := by
  constructor
  · rintro ⟨before, inner, after, rfl, hinner, rfl, rfl⟩
    refine ⟨inner.length, gap?_eq_some_iff.mpr ⟨inner, after, ?_, hinner, rfl⟩, rfl⟩
    simp
  · rintro ⟨_, hgap, rfl⟩
    obtain ⟨inner, after, hdrop, hinner, rfl⟩ := gap?_eq_some_iff.mp hgap
    have hlt : i < flat.length := (List.getElem?_eq_some_iff.mp hi).1
    refine ⟨flat.take i, inner, after, ?_, hinner, ?_, ?_⟩
    · rw [← hdrop]
      exact eq_take_append_cons_drop hi
    · rw [List.length_take_of_le (Nat.le_of_lt hlt)]
    · rw [List.length_take_of_le (Nat.le_of_lt hlt)]

theorem matched_iff_gap_left (hj : flat[j]? = some ']') : Matched flat i j ↔
    ∃ gap, gap? ']' '[' 0 0 (flat.take j).reverse = some gap ∧ i + 1 + gap = j := by
  constructor
  · rintro ⟨before, inner, after, rfl, hinner, rfl, rfl⟩
    refine ⟨inner.length, gap?_reverse_eq_some_iff.mpr ⟨before, inner, ?_, hinner, rfl⟩, rfl⟩
    have hsplit : before ++ '[' :: (inner ++ ']' :: after) =
        (before ++ '[' :: inner) ++ ']' :: after := by simp
    rw [hsplit, List.take_left']
    simp only [List.length_append, List.length_cons]
    omega
  · rintro ⟨_, hgap, hlength⟩
    obtain ⟨before, inner, htake, hinner, rfl⟩ := gap?_reverse_eq_some_iff.mp hgap
    have hlt : j < flat.length := (List.getElem?_eq_some_iff.mp hj).1
    have hbefore := congrArg List.length htake
    rw [List.length_take_of_le (Nat.le_of_lt hlt), List.length_append, List.length_cons] at hbefore
    refine ⟨before, inner, flat.drop (j + 1), ?_, hinner, by omega, by omega⟩
    have hflat := eq_take_append_cons_drop hj
    rw [htake] at hflat
    simpa using hflat

theorem partner?_opening (hi : flat[i]? = some '[') : partner? flat i =
    match gap? '[' ']' 0 0 (flat.drop (i + 1)) with
    | some gap => .ok (i + 1 + gap)
    | none => .error (.unmatched i) := by
  rw [partner?, hi]
  rfl

theorem partner?_closing (hi : flat[i]? = some ']') : partner? flat i =
    match gap? ']' '[' 0 0 (flat.take i).reverse with
    | some gap => .ok (i - 1 - gap)
    | none => .error (.unmatched i) := by
  rw [partner?, hi]
  rfl

theorem partner?_of_ne_bracket (hopening : flat[i]? ≠ some '[') (hclosing : flat[i]? ≠ some ']') :
    partner? flat i = .error (.notABracket i flat[i]?) := by
  unfold partner?
  split <;> simp_all

/-- An opening bracket closes nothing. -/
theorem not_matched_of_opening (hj : flat[j]? = some '[') : ¬ Matched flat i j := by
  intro h
  have hclosing := h.getElem?_closing
  simp [hj] at hclosing

/-- A closing bracket opens nothing. -/
theorem not_matched_of_closing (hi : flat[i]? = some ']') : ¬ Matched flat i j := by
  intro h
  have hopening := h.getElem?_opening
  simp [hi] at hopening

/-- **The scan finds the partner of a bracket, and nothing else.** -/
theorem partner?_eq_ok_iff : partner? flat i = .ok j ↔ Matched flat i j ∨ Matched flat j i := by
  by_cases hopening : flat[i]? = some '['
  · have hleft : ¬ Matched flat j i := not_matched_of_opening hopening
    rw [partner?_opening hopening, matched_iff_gap_right hopening, or_iff_left hleft]
    cases gap? '[' ']' 0 0 (flat.drop (i + 1)) <;> simp [eq_comm]
  · by_cases hclosing : flat[i]? = some ']'
    · have hright : ¬ Matched flat i j := not_matched_of_closing hclosing
      rw [partner?_closing hclosing, or_iff_right hright, matched_iff_gap_left hclosing]
      cases hgap : gap? ']' '[' 0 0 (flat.take i).reverse with
      | none => simp
      | some gap =>
        -- what the scan has passed lies inside the stream, so nothing is cut off
        obtain ⟨before, inner, htake, -, rfl⟩ := gap?_reverse_eq_some_iff.mp hgap
        obtain ⟨hlt, -⟩ := List.getElem?_eq_some_iff.mp hclosing
        have hlength := congrArg List.length htake
        rw [List.length_take_of_le (Nat.le_of_lt hlt), List.length_append, List.length_cons]
          at hlength
        simp only [Except.ok.injEq, Option.some.injEq, exists_eq_left']
        omega
    · have hright : ¬ Matched flat i j := fun h => hopening h.getElem?_opening
      have hleft : ¬ Matched flat j i := fun h => hclosing h.getElem?_closing
      rw [partner?_of_ne_bracket hopening hclosing]
      simp [hright, hleft]

/-- The scan fails where there is no partner on either side. -/
theorem exists_partner?_eq_error_iff : (∃ error, partner? flat i = .error error) ↔
    ∀ j, ¬ (Matched flat i j ∨ Matched flat j i) := by
  constructor
  · rintro ⟨error, herror⟩ j hj
    rw [partner?_eq_ok_iff.mpr hj] at herror
    cases herror
  · intro hnone
    cases hpartner : partner? flat i with
    | ok j => exact absurd (partner?_eq_ok_iff.mp hpartner) (hnone j)
    | error error => exact ⟨error, rfl⟩

/-- The scan fails at a bracket for one reason only. -/
theorem partner?_eq_unmatched (hi : flat[i]? = some '[' ∨ flat[i]? = some ']') {error : PartnerError}
    (herror : partner? flat i = .error error) : partner? flat i = .error (.unmatched i) := by
  rcases hi with hopening | hclosing
  · rw [partner?_opening hopening] at herror ⊢
    cases hgap : gap? '[' ']' 0 0 (flat.drop (i + 1)) with
    | none => rfl
    | some gap => rw [hgap] at herror; cases herror
  · rw [partner?_closing hclosing] at herror ⊢
    cases hgap : gap? ']' '[' 0 0 (flat.take i).reverse with
    | none => rfl
    | some gap => rw [hgap] at herror; cases herror

end

theorem Matched.right_unique {flat : List Char} {i j j' : Nat} (h : Matched flat i j)
    (h' : Matched flat i j') : j = j' := by
  have hj := partner?_eq_ok_iff.mpr (.inl h)
  have hj' := partner?_eq_ok_iff.mpr (.inl h')
  exact Except.ok.inj (hj.symm.trans hj')

theorem Matched.left_unique {flat : List Char} {i i' j : Nat} (h : Matched flat i j)
    (h' : Matched flat i' j) : i = i' := by
  have hi := partner?_eq_ok_iff.mpr (.inr h)
  have hi' := partner?_eq_ok_iff.mpr (.inr h')
  exact Except.ok.inj (hi.symm.trans hi')

end Bracket

end TapeMachine
