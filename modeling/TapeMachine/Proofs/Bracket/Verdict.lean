import TapeMachine.Proofs.Bracket.Check
import TapeMachine.Proofs.Bracket.Dyck
import TapeMachine.Proofs.Bracket.Unmatched
import TapeMachine.Proofs.Places

/-!
# The check reports the right bracket

The check keeps a depth and one candidate, and yet it reports the bracket that a reader with all
pairs before his eyes would name: the first stray bracket if there is one, and otherwise the first
unclosed one.  It accepts the program if there is neither.

## Main results

* `Source.isLeast_of_unexpectedClosing`, `Source.isLeast_of_unclosedOpening` — the bracket that is
  reported is the first of its kind.
* `Source.syntaxError?_eq_cases` — the three answers of the check, each with the programs that get it.
-/

namespace TapeMachine

open TapeMachine.Bracket

namespace Source

variable {source : Source} {place : Location}

theorem isLeast_of_unexpectedClosing (h : source.syntaxError? = some (.unexpectedClosing place)) :
    source.charAt? place = some ']' ∧ IsLeast {k | Stray source.chars k} (source.index place) := by
  have hanswer := syntaxError?_eq_iff.mp h
  generalize hlocated : source.located = l at hanswer
  cases hanswer with
  | stray hbefore _ after =>
    obtain ⟨hchar, hindex, hchars⟩ := index_of_located_eq hlocated
    have hleast := isLeast_stray hbefore (after.map Prod.snd)
    rw [List.length_map] at hleast
    rw [hindex, hchars]
    exact ⟨hchar, hleast⟩

theorem isLeast_of_unclosedOpening (h : source.syntaxError? = some (.unclosedOpening place)) :
    source.charAt? place = some '[' ∧ (∀ k, ¬ Stray source.chars k) ∧
      IsLeast {k | Unclosed source.chars k} (source.index place) ∧
      Balanced (source.chars.take (source.index place)) := by
  have hanswer := syntaxError?_eq_iff.mp h
  generalize hlocated : source.located = l at hanswer
  cases hanswer with
  | @unclosed before after hbefore _ hafter =>
    obtain ⟨hchar, hindex, hchars⟩ := index_of_located_eq hlocated
    have hleast := isLeast_unclosed hbefore hafter
    rw [List.length_map] at hleast
    have hopens := Opens.opening hbefore hafter
    have hfront : (before.map Prod.snd ++ '[' :: after.map Prod.snd).take before.length =
        before.map Prod.snd := List.take_left' (List.length_map _)
    rw [hindex, hchars, hfront]
    exact ⟨hchar, fun k => hopens.not_stray, hleast, hbefore⟩

/-- Whatever is stray is reported, the first of it. -/
theorem syntaxError?_of_isLeast_stray (hchar : source.charAt? place = some ']')
    (h : IsLeast {k | Stray source.chars k} (source.index place)) :
    source.syntaxError? = some (.unexpectedClosing place) := by
  cases herror : source.syntaxError? with
  | none => exact absurd h.1 (syntaxError?_eq_none_iff.mp herror).not_stray
  | some error =>
    cases error with
    | unexpectedClosing place' =>
      obtain ⟨hchar', hleast⟩ := isLeast_of_unexpectedClosing herror
      rw [index_injective hchar hchar' (h.unique hleast)]
    | unclosedOpening place' => exact absurd h.1 ((isLeast_of_unclosedOpening herror).2.1 _)

/-- If nothing is stray, whatever is unclosed is reported, the first of it. -/
theorem syntaxError?_of_isLeast_unclosed (hchar : source.charAt? place = some '[')
    (hstray : ∀ k, ¬ Stray source.chars k)
    (h : IsLeast {k | Unclosed source.chars k} (source.index place)) :
    source.syntaxError? = some (.unclosedOpening place) := by
  cases herror : source.syntaxError? with
  | none => exact absurd h.1 (syntaxError?_eq_none_iff.mp herror).not_unclosed
  | some error =>
    cases error with
    | unexpectedClosing place' => exact absurd (isLeast_of_unexpectedClosing herror).2.1 (hstray _)
    | unclosedOpening place' =>
      obtain ⟨hchar', -, hleast, -⟩ := isLeast_of_unclosedOpening herror
      rw [index_injective hchar hchar' (h.unique hleast)]

/-- **The three answers of the check.**  A program is accepted exactly when its brackets are a Dyck
word.  A closing bracket is reported exactly when it is the first one that closes nothing.  An opening
bracket is reported exactly when every closing bracket closes something and it is the first one that
is never closed; what stands in front of it is balanced. -/
theorem syntaxError?_eq_cases (source : Source) :
    (source.syntaxError? = none ↔ ∃ word : DyckWord, word.toList = steps source.chars) ∧
    (∀ place, source.syntaxError? = some (.unexpectedClosing place) ↔
      source.charAt? place = some ']' ∧
        IsLeast {k | source.chars[k]? = some ']' ∧ ∀ i, ¬ Matched source.chars i k}
          (source.index place)) ∧
    (∀ place, source.syntaxError? = some (.unclosedOpening place) ↔
      (∀ k, source.chars[k]? = some ']' → ∃ i, Matched source.chars i k) ∧
        source.charAt? place = some '[' ∧
        IsLeast {k | source.chars[k]? = some '[' ∧ ∀ j, ¬ Matched source.chars k j}
          (source.index place)) ∧
    ∀ place, source.syntaxError? = some (.unclosedOpening place) →
      Balanced (source.chars.take (source.index place)) := by
  refine ⟨?_, fun place => ⟨isLeast_of_unexpectedClosing, ?_⟩, fun place => ⟨?_, ?_⟩, ?_⟩
  · rw [syntaxError?_eq_none_iff, balanced_iff_exists_dyckWord]
  · rintro ⟨hchar, hleast⟩
    exact syntaxError?_of_isLeast_stray hchar hleast
  · intro h
    obtain ⟨hchar, hstray, hleast, -⟩ := isLeast_of_unclosedOpening h
    refine ⟨fun k hk => ?_, hchar, hleast⟩
    by_contra hnone
    exact hstray k ⟨hk, not_exists.mp hnone⟩
  · rintro ⟨hmatched, hchar, hleast⟩
    refine syntaxError?_of_isLeast_unclosed hchar (fun k hk => ?_) hleast
    obtain ⟨i, hi⟩ := hmatched k hk.1
    exact hk.2 i hi
  · intro place h
    exact (isLeast_of_unclosedOpening h).2.2.2

/-- The candidate moves on only when the brackets in front of it are closed. -/
example : (ofLines ["[]", "  [[]"]).syntaxError? = some (.unclosedOpening ⟨2, 3⟩) := by decide

end Source

end TapeMachine
