import TapeMachine.Proofs.Bracket.Pairing
import TapeMachine.Proofs.Bracket.Unmatched

/-!
# The jump table and the scan agree

The table is built in one pass with a stack, and the scan counts brackets anew from each bracket.  On
every stream they say the same.  The pass succeeds exactly when the scan finds a partner for every
bracket, and then the table holds these partners and nothing else.  Otherwise the pass stops at the
first stray bracket, or ends with the last unclosed one on top of its stack.

## Main results

* `JumpTable.exists_ofChars_eq_ok_iff` — a stream has a table exactly when it is balanced.
* `JumpTable.ofChars_eq_error_iff` — which bracket is reported if it is not.
* `JumpTable.partner?_eq_toOption` — the table holds what the scan finds.
* `JumpTable.pairs_eq_count` — there is a pair for each opening bracket.
* `JumpTable.ofChars_agrees_with_scan` — all of it, with the bracket that is reported.
-/

namespace TapeMachine

open TapeMachine.Bracket

namespace JumpTable

variable {flat before after : List Char} {table : JumpTable} {k : Nat}

/-! ### Where the pass fails -/

/-- The pass stops at the first stray bracket. -/
theorem ofChars_of_stray (hbefore : Balanced before) (after : List Char) :
    ofChars (before ++ ']' :: after) = .error (.unmatched before.length) := by
  obtain ⟨table', -, hpass⟩ := pairFrom_append_of_balanced hbefore 0 []
    ⟨Array.replicate (before ++ ']' :: after).length none⟩ (']' :: after)
  rw [ofChars, hpass, pairFrom_closing_nil, Nat.zero_add]

/-- Behind an opening bracket that is not closed, the pass ends with the last of its kind. -/
theorem exists_pairFrom_of_opens (hafter : Opens after) :
    ∀ (index : Nat) (waiting : List Nat) (table : JumpTable),
      ∃ n, pairFrom (index + 1) (index :: waiting) table after = .error (.unmatched (index + n)) ∧
        IsGreatest {k | Unclosed ('[' :: after) k} n := by
  induction hafter with
  | inside hflat =>
    intro index waiting table
    obtain ⟨table', -, hpass⟩ :=
      pairFrom_append_of_balanced hflat (index + 1) (index :: waiting) table []
    rw [List.append_nil] at hpass
    exact ⟨0, by rw [hpass, pairFrom, Nat.add_zero], isGreatest_unclosed_of_balanced hflat⟩
  | @opening inner flat hinner _ ih =>
    intro index waiting table
    obtain ⟨table', -, hpass⟩ :=
      pairFrom_append_of_balanced hinner (index + 1) (index :: waiting) table ('[' :: flat)
    obtain ⟨n, hrest, hgreatest⟩ := ih (index + 1 + inner.length) (index :: waiting) table'
    refine ⟨inner.length + n + 1, ?_, ?_⟩
    · have hindex : index + 1 + inner.length + n = index + (inner.length + n + 1) := by omega
      rw [hpass, pairFrom_opening, hrest, hindex]
    · exact isGreatest_unclosed_cons (isGreatest_unclosed_append inner hgreatest)

theorem exists_ofChars_of_unclosed (hbefore : Balanced before) (hafter : Opens after) :
    ∃ k, ofChars (before ++ '[' :: after) = .error (.unmatched k) ∧
      IsGreatest {k | Unclosed (before ++ '[' :: after) k} k := by
  obtain ⟨table', -, hpass⟩ := pairFrom_append_of_balanced hbefore 0 []
    ⟨Array.replicate (before ++ '[' :: after).length none⟩ ('[' :: after)
  obtain ⟨n, hrest, hgreatest⟩ := exists_pairFrom_of_opens hafter before.length [] table'
  refine ⟨before.length + n, ?_, isGreatest_unclosed_append before hgreatest⟩
  rw [ofChars, hpass, Nat.zero_add, pairFrom_opening, hrest]

/-- Only a balanced stream has a table. -/
theorem balanced_of_ofChars (h : ofChars flat = .ok table) : Balanced flat := by
  cases shape flat with
  | balanced hflat => exact hflat
  | stray hbefore after => rw [ofChars_of_stray hbefore] at h; cases h
  | unclosed hbefore hafter =>
    obtain ⟨k, herror, -⟩ := exists_ofChars_of_unclosed hbefore hafter
    rw [herror] at h
    cases h

/-- **A stream has a table exactly when it is balanced.** -/
theorem exists_ofChars_eq_ok_iff : (∃ table, ofChars flat = .ok table) ↔ Balanced flat := by
  constructor
  · rintro ⟨table, htable⟩
    exact balanced_of_ofChars htable
  · exact exists_ofChars_eq_ok

/-- **The bracket that the pass reports**: the first stray one, or else the last unclosed one. -/
theorem isLeast_or_isGreatest_of_ofChars {error : PartnerError} (h : ofChars flat = .error error) :
    ∃ k, error = .unmatched k ∧ (IsLeast {k | Stray flat k} k ∨
      (∀ k, ¬ Stray flat k) ∧ IsGreatest {k | Unclosed flat k} k) := by
  cases shape flat with
  | balanced hflat =>
    obtain ⟨table, htable⟩ := exists_ofChars_eq_ok hflat
    rw [htable] at h
    cases h
  | stray hbefore after =>
    rw [ofChars_of_stray hbefore] at h
    cases h
    exact ⟨_, rfl, .inl (isLeast_stray hbefore after)⟩
  | unclosed hbefore hafter =>
    obtain ⟨k, herror, hgreatest⟩ := exists_ofChars_of_unclosed hbefore hafter
    rw [herror] at h
    cases h
    exact ⟨k, rfl, .inr ⟨fun n => (Opens.opening hbefore hafter).not_stray, hgreatest⟩⟩

/-- **Which bracket is reported** decides the pass: there is one first and one last of a kind. -/
theorem ofChars_eq_error_iff : ofChars flat = .error (.unmatched k) ↔
    IsLeast {k | Stray flat k} k ∨ (∀ k, ¬ Stray flat k) ∧ IsGreatest {k | Unclosed flat k} k := by
  constructor
  · intro h
    obtain ⟨k', hk', hreported⟩ := isLeast_or_isGreatest_of_ofChars h
    cases hk'
    exact hreported
  · intro h
    cases hflat : ofChars flat with
    | ok table =>
      have hbalanced := balanced_of_ofChars hflat
      rcases h with hleast | ⟨-, hgreatest⟩
      · exact absurd hleast.1 hbalanced.not_stray
      · exact absurd hgreatest.1 hbalanced.not_unclosed
    | error error =>
      -- the kind is decided by whether anything is stray
      obtain ⟨k', rfl, hleast' | ⟨hstray', hgreatest'⟩⟩ := isLeast_or_isGreatest_of_ofChars hflat
      · rcases h with hleast | ⟨hstray, -⟩
        · rw [hleast.unique hleast']
        · exact absurd hleast'.1 (hstray k')
      · rcases h with hleast | ⟨-, hgreatest⟩
        · exact absurd hleast.1 (hstray' k)
        · rw [hgreatest.unique hgreatest']

/-! ### What the table holds -/

theorem size_of_ofChars (h : ofChars flat = .ok table) : table.size = flat.length := by
  rw [ofChars, ← List.append_nil flat] at h
  obtain ⟨waiting, table', hend, hsize, -⟩ :=
    exists_pairFrom_of_append h fun k hk => absurd hk List.not_mem_nil
  cases waiting with
  | nil =>
    rw [pairFrom_nil_nil] at hend
    cases hend
    simpa [size] using hsize
  | cons innermost outer => cases hend

theorem partner?_eq_none_of_ne_bracket (h : ofChars flat = .ok table) (hopening : flat[k]? ≠ some '[')
    (hclosing : flat[k]? ≠ some ']') : table.partner? k = none := by
  have hblank : (⟨Array.replicate flat.length none⟩ : JumpTable).partner? k = none := by
    rw [partner?, Array.getElem?_replicate]
    split <;> rfl
  rw [← hblank]
  refine partner?_eq_of_pairFrom h (fun n hn => ?_) List.not_mem_nil
  obtain rfl : n = k := by omega
  exact ⟨hopening, hclosing⟩

/-- **The table holds what the scan finds**, and nothing where the scan fails. -/
theorem partner?_eq_toOption (h : ofChars flat = .ok table) (k : Nat) :
    table.partner? k = (Bracket.partner? flat k).toOption := by
  have hbalanced := balanced_of_ofChars h
  by_cases hopening : flat[k]? = some '['
  · obtain ⟨j, hj⟩ := (hbalanced.exists_matched k).1 hopening
    rw [(partner?_of_matched h hj).1, partner?_eq_ok_iff.mpr (.inl hj)]
    rfl
  · by_cases hclosing : flat[k]? = some ']'
    · obtain ⟨i, hi⟩ := (hbalanced.exists_matched k).2 hclosing
      rw [(partner?_of_matched h hi).2, partner?_eq_ok_iff.mpr (.inr hi)]
      rfl
    · rw [partner?_eq_none_of_ne_bracket h hopening hclosing,
        partner?_of_ne_bracket hopening hclosing]
      rfl

theorem isSome_partner?_iff (h : ofChars flat = .ok table) :
    (table.partner? k).isSome ↔ flat[k]? = some '[' ∨ flat[k]? = some ']' := by
  have hbalanced := balanced_of_ofChars h
  constructor
  · intro hsome
    by_contra hnone
    rw [not_or] at hnone
    rw [partner?_eq_none_of_ne_bracket h hnone.1 hnone.2] at hsome
    cases hsome
  · rintro (hopening | hclosing)
    · obtain ⟨j, hj⟩ := (hbalanced.exists_matched k).1 hopening
      rw [(partner?_of_matched h hj).1, Option.isSome_some]
    · obtain ⟨i, hi⟩ := (hbalanced.exists_matched k).2 hclosing
      rw [(partner?_of_matched h hi).2, Option.isSome_some]

/-! ### The number of pairs -/

/-- The table has an entry for each bracket and for nothing else. -/
theorem map_isSome_partners (h : ofChars flat = .ok table) :
    table.partners.toList.map Option.isSome = flat.map fun c => c == '[' || c == ']' := by
  have hsize : table.partners.size = flat.length := size_of_ofChars h
  refine List.ext_getElem (by simpa using hsize) fun k hk hk' => ?_
  rw [List.length_map] at hk hk'
  have hpartner : table.partner? k = table.partners.toList[k] := by
    simp [partner?, hsize, hk']
  have hiff := isSome_partner?_iff (k := k) h
  rw [hpartner, List.getElem?_eq_getElem hk'] at hiff
  rw [List.getElem_map, List.getElem_map, Bool.eq_iff_iff]
  simpa using hiff

theorem countP_bracket_of_balanced (h : Balanced flat) :
    flat.countP (fun c => c == '[' || c == ']') = 2 * flat.count '[' := by
  induction h with
  | nil => rfl
  | comment hopening hclosing _ ih => simp [hopening, hclosing, ih]
  | pair _ _ ihinner ihflat =>
    simp [ihinner, ihflat]
    omega

/-- **There is a pair for each opening bracket.** -/
theorem pairs_eq_count (h : ofChars flat = .ok table) : table.pairs = flat.count '[' := by
  have hbalanced := balanced_of_ofChars h
  have hcount : table.partners.countP Option.isSome =
      flat.countP fun c => c == '[' || c == ']' := by
    have hmap := congrArg (List.countP id) (map_isSome_partners h)
    rwa [List.countP_map, List.countP_map, Function.id_comp, Function.id_comp, Array.countP_toList]
      at hmap
  rw [pairs, hcount, countP_bracket_of_balanced hbalanced]
  omega

/-! ### The table and the scan -/

/-- **The table and the scan agree.**  There is a table exactly when the scan succeeds at every
bracket.  It holds at every index what the scan finds there, and has a pair for each opening bracket.
If there is none, the reason is the first closing bracket at which the scan fails, or the last opening
one if the scan succeeds at every closing bracket. -/
theorem ofChars_agrees_with_scan (flat : List Char) :
    ((∃ table, ofChars flat = .ok table) ↔
      ∀ i, flat[i]? = some '[' ∨ flat[i]? = some ']' → ∃ j, Bracket.partner? flat i = .ok j) ∧
    (∀ table, ofChars flat = .ok table →
      (∀ i, table.partner? i = (Bracket.partner? flat i).toOption) ∧
        table.pairs = flat.count '[') ∧
    ∀ error, ofChars flat = .error error → ∃ k, error = .unmatched k ∧
      (IsLeast {i | flat[i]? = some ']' ∧ ∃ error, Bracket.partner? flat i = .error error} k ∨
        (∀ i, flat[i]? = some ']' → ∃ j, Bracket.partner? flat i = .ok j) ∧
          IsGreatest {i | flat[i]? = some '[' ∧ ∃ error, Bracket.partner? flat i = .error error} k) := by
  refine ⟨⟨?_, fun hall => ?_⟩, fun table htable => ?_, fun error herror => ?_⟩
  · rintro ⟨table, htable⟩ i hi
    have hsome := (isSome_partner?_iff htable).mpr hi
    rw [partner?_eq_toOption htable] at hsome
    cases hpartner : Bracket.partner? flat i with
    | ok j => exact ⟨j, rfl⟩
    | error error => rw [hpartner] at hsome; cases hsome
  · cases htable : ofChars flat with
    | ok table => exact ⟨table, rfl⟩
    | error error =>
      -- the bracket that is reported has no partner
      obtain ⟨k, -, hleast | ⟨-, hgreatest⟩⟩ := isLeast_or_isGreatest_of_ofChars htable
      · obtain ⟨j, hj⟩ := hall k (.inr hleast.1.1)
        rw [Stray.partner?_eq hleast.1] at hj
        cases hj
      · obtain ⟨j, hj⟩ := hall k (.inl hgreatest.1.1)
        rw [Unclosed.partner?_eq hgreatest.1] at hj
        cases hj
  · exact ⟨partner?_eq_toOption htable, pairs_eq_count htable⟩
  · obtain ⟨k, rfl, hreported⟩ := isLeast_or_isGreatest_of_ofChars herror
    simp only [stray_iff, unclosed_iff] at hreported
    refine ⟨k, rfl, hreported.imp_right (And.imp_left fun hnone i hi => ?_)⟩
    cases hpartner : Bracket.partner? flat i with
    | ok j => exact ⟨j, rfl⟩
    | error error => exact absurd ⟨hi, error, hpartner⟩ (hnone i)

end JumpTable

end TapeMachine
