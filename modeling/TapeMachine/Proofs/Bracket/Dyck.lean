import Mathlib.Combinatorics.Enumerative.DyckWord
import TapeMachine.Proofs.Bracket.Balanced

/-!
# Balanced streams and Dyck words

The grammar of balanced streams is one of several ways to say what balanced brackets are.  The
library's is by counting: a Dyck word has as many steps up as down, and no part that it starts with
has more down than up.  A stream is balanced exactly when its brackets, read as steps and with
everything between them left out, are a Dyck word.

## Main definitions

* `Bracket.steps flat` — the brackets of `flat` as steps up and down.

## Main results

* `Bracket.balanced_iff_exists_dyckWord` — the grammar and the counting agree.
-/

namespace TapeMachine

namespace Bracket

open DyckStep

/-- An opening bracket is a step up and a closing one a step down. -/
def step? : Char → Option DyckStep
  | '[' => some U
  | ']' => some D
  | _ => none

/-- The brackets of a stream as steps, everything else left out. -/
def steps (flat : List Char) : List DyckStep :=
  flat.filterMap step?

@[simp] theorem steps_append (flat flat' : List Char) :
    steps (flat ++ flat') = steps flat ++ steps flat' :=
  List.filterMap_append

@[simp] theorem steps_opening (flat : List Char) : steps ('[' :: flat) = U :: steps flat := rfl

@[simp] theorem steps_closing (flat : List Char) : steps (']' :: flat) = D :: steps flat := rfl

theorem steps_comment {c : Char} (hopening : c ≠ '[') (hclosing : c ≠ ']') (flat : List Char) :
    steps (c :: flat) = steps flat := by
  have hstep : step? c = none := by
    unfold step?
    split <;> simp_all
  exact List.filterMap_cons_none hstep

theorem Balanced.exists_dyckWord {flat : List Char} (h : Balanced flat) :
    ∃ word : DyckWord, word.toList = steps flat := by
  induction h with
  | nil => exact ⟨0, rfl⟩
  | comment hopening hclosing _ ih =>
    rw [steps_comment hopening hclosing]
    exact ih
  | @pair inner flat _ _ ihinner ihflat =>
    obtain ⟨word₁, hword₁⟩ := ihinner
    obtain ⟨word₂, hword₂⟩ := ihflat
    refine ⟨word₁.nest + word₂, ?_⟩
    have hlist : (word₁.nest + word₂).toList = [U] ++ word₁.toList ++ [D] ++ word₂.toList := rfl
    rw [hlist, hword₁, hword₂]
    simp

theorem Balanced.count_eq {flat : List Char} (h : Balanced flat) :
    (steps flat).count U = (steps flat).count D := by
  obtain ⟨word, hword⟩ := h.exists_dyckWord
  rw [← hword]
  exact word.count_U_eq_count_D

theorem Opens.count_le {flat : List Char} (h : Opens flat) :
    (steps flat).count D ≤ (steps flat).count U := by
  induction h with
  | inside hflat => exact hflat.count_eq.ge
  | opening hinner _ ih =>
    have hcount := hinner.count_eq
    simp
    omega

/-- **A stream is balanced exactly when its brackets are a Dyck word.** -/
theorem balanced_iff_exists_dyckWord {flat : List Char} :
    Balanced flat ↔ ∃ word : DyckWord, word.toList = steps flat := by
  refine ⟨Balanced.exists_dyckWord, ?_⟩
  rintro ⟨word, hword⟩
  cases shape flat with
  | balanced hflat => exact hflat
  | @stray before hbefore after =>
    -- the part up to the stray bracket goes down once too often
    exfalso
    have hprefix := word.count_D_le_count_U ((steps before).length + 1)
    have hcount := hbefore.count_eq
    rw [hword, steps_append, steps_closing, List.take_length_add_append] at hprefix
    simp at hprefix
    omega
  | @unclosed before after hbefore hafter =>
    -- the unclosed bracket goes up once more than the whole comes down
    exfalso
    have htotal := word.count_U_eq_count_D
    have hcount := hbefore.count_eq
    have hle := hafter.count_le
    rw [hword, steps_append, steps_opening] at htotal
    simp at htotal
    omega

end Bracket

end TapeMachine
