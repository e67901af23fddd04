import TapeMachine.Symbol

/-!
# Balanced brackets and their partners

What it means that the brackets of a stream of characters are balanced, said by a grammar and not by
a scan: a balanced stream is empty, or it starts with a comment character, or with a pair of brackets
around a balanced stream.  The two brackets of such a pair are partners.

A stream that is not balanced goes wrong in one of two ways behind a balanced part: at a closing
bracket that closes nothing, or at an opening bracket that nothing behind it closes.

## Main definitions

* `Bracket.Balanced flat` — the brackets of `flat` are balanced.
* `Bracket.Opens flat` — `flat` is balanced except for opening brackets.
* `Bracket.Shape flat` — `flat` is balanced, or goes wrong in one of the two ways.
* `Bracket.Matched flat i j` — the brackets at `i` and `j` are partners, the one at `i` opening.

## Main results

* `Bracket.Balanced.exists_matched` — every bracket of a balanced stream has a partner.
* `Bracket.shape` — every stream has one of the three shapes.
-/

namespace TapeMachine

namespace Bracket

/-- The brackets of a stream of characters are balanced, whatever else stands between them. -/
inductive Balanced : List Char → Prop
  /-- The empty stream. -/
  | nil : Balanced []
  /-- A character that is no bracket does not count. -/
  | comment {c : Char} {flat : List Char} (hopening : c ≠ '[') (hclosing : c ≠ ']')
      (hflat : Balanced flat) : Balanced (c :: flat)
  /-- A pair of brackets around a balanced stream, with a balanced stream behind it. -/
  | pair {inner flat : List Char} (hinner : Balanced inner) (hflat : Balanced flat) :
      Balanced ('[' :: (inner ++ ']' :: flat))

/-- A stream is balanced except for opening brackets, so it closes nothing in front of it. -/
inductive Opens : List Char → Prop
  /-- There may be no such bracket. -/
  | inside {flat : List Char} (hflat : Balanced flat) : Opens flat
  /-- An opening bracket that is not closed. -/
  | opening {inner flat : List Char} (hinner : Balanced inner) (hflat : Opens flat) :
      Opens (inner ++ '[' :: flat)

/-- What a stream of characters looks like. -/
inductive Shape : List Char → Prop
  /-- It is balanced. -/
  | balanced {flat : List Char} (hflat : Balanced flat) : Shape flat
  /-- Behind a balanced part a bracket closes nothing. -/
  | stray {before : List Char} (hbefore : Balanced before) (after : List Char) :
      Shape (before ++ ']' :: after)
  /-- Behind a balanced part a bracket is never closed. -/
  | unclosed {before after : List Char} (hbefore : Balanced before) (hafter : Opens after) :
      Shape (before ++ '[' :: after)

/-- The opening bracket at `i` and the closing bracket at `j` are partners: what stands between them
is balanced. -/
def Matched (flat : List Char) (i j : Nat) : Prop :=
  ∃ before inner after, flat = before ++ '[' :: (inner ++ ']' :: after) ∧ Balanced inner ∧
    i = before.length ∧ j = before.length + 1 + inner.length

/-- A character is one of the two brackets, or it does not count. -/
@[elab_as_elim] theorem char_cases {motive : Char → Prop} (opening : motive '[')
    (closing : motive ']') (comment : ∀ c, c ≠ '[' → c ≠ ']' → motive c) (c : Char) : motive c := by
  by_cases hopening : c = '['
  · rw [hopening]
    exact opening
  · by_cases hclosing : c = ']'
    · rw [hclosing]
      exact closing
    · exact comment c hopening hclosing

theorem Balanced.append {flat flat' : List Char} (h : Balanced flat) (h' : Balanced flat') :
    Balanced (flat ++ flat') := by
  induction h with
  | nil => exact h'
  | comment hopening hclosing _ ih => exact .comment hopening hclosing ih
  | pair hinner _ _ ih =>
    rw [List.cons_append, List.append_assoc, List.cons_append]
    exact .pair hinner ih

/-! ### Partners -/

theorem Matched.getElem?_opening {flat : List Char} {i j : Nat} (h : Matched flat i j) :
    flat[i]? = some '[' := by
  obtain ⟨before, inner, after, rfl, -, rfl, -⟩ := h
  rw [List.getElem?_append_right (Nat.le_refl _), Nat.sub_self, List.getElem?_cons_zero]

theorem Matched.getElem?_closing {flat : List Char} {i j : Nat} (h : Matched flat i j) :
    flat[j]? = some ']' := by
  obtain ⟨before, inner, after, rfl, -, -, rfl⟩ := h
  have hsub : before.length + 1 + inner.length - before.length = inner.length + 1 := by omega
  rw [List.getElem?_append_right (by omega), hsub, List.getElem?_cons_succ,
    List.getElem?_append_right (Nat.le_refl _), Nat.sub_self, List.getElem?_cons_zero]

/-- Partners stay partners in a longer stream. -/
theorem Matched.within {flat : List Char} {i j : Nat} (h : Matched flat i j)
    (before after : List Char) :
    Matched (before ++ (flat ++ after)) (before.length + i) (before.length + j) := by
  obtain ⟨before', inner, after', rfl, hinner, rfl, rfl⟩ := h
  refine ⟨before ++ before', inner, after' ++ after, by simp, hinner, by simp, ?_⟩
  rw [List.length_append]
  omega

/-- Where a character of a pair of brackets with a stream behind it can stand. -/
theorem getElem?_pair_cases {inner flat : List Char} {k : Nat} {c : Char}
    (h : ('[' :: (inner ++ ']' :: flat))[k]? = some c) :
    (k = 0 ∧ c = '[') ∨ (∃ l, k = l + 1 ∧ inner[l]? = some c) ∨
      (k = inner.length + 1 ∧ c = ']') ∨ ∃ l, k = inner.length + 2 + l ∧ flat[l]? = some c := by
  cases k with
  | zero =>
    rw [List.getElem?_cons_zero] at h
    exact .inl ⟨rfl, (Option.some.inj h).symm⟩
  | succ k =>
    rw [List.getElem?_cons_succ] at h
    rcases Nat.lt_or_ge k inner.length with hlt | hge
    · rw [List.getElem?_append_left hlt] at h
      exact .inr (.inl ⟨k, rfl, h⟩)
    · rw [List.getElem?_append_right hge] at h
      obtain ⟨l, rfl⟩ := Nat.exists_eq_add_of_le hge
      rw [Nat.add_sub_cancel_left] at h
      cases l with
      | zero =>
        rw [List.getElem?_cons_zero] at h
        exact .inr (.inr (.inl ⟨rfl, (Option.some.inj h).symm⟩))
      | succ l =>
        rw [List.getElem?_cons_succ] at h
        exact .inr (.inr (.inr ⟨l, by omega, h⟩))

/-- **Every bracket of a balanced stream has a partner.** -/
theorem Balanced.exists_matched {flat : List Char} (h : Balanced flat) : ∀ k : Nat,
    (flat[k]? = some '[' → ∃ j, Matched flat k j) ∧
      (flat[k]? = some ']' → ∃ i, Matched flat i k) := by
  induction h with
  | nil => intro k; simp
  | @comment c flat hopening hclosing _ ih =>
    intro k
    cases k with
    | zero =>
      rw [List.getElem?_cons_zero]
      exact ⟨fun h => absurd (Option.some.inj h) hopening,
        fun h => absurd (Option.some.inj h) hclosing⟩
    | succ k =>
      have hshift : ∀ {i j}, Matched flat i j → Matched (c :: flat) (i + 1) (j + 1) := by
        intro i j hij
        simpa [Nat.add_comm] using hij.within [c] []
      rw [List.getElem?_cons_succ]
      exact ⟨fun h => ((ih k).1 h).elim fun j hj => ⟨j + 1, hshift hj⟩,
        fun h => ((ih k).2 h).elim fun i hi => ⟨i + 1, hshift hi⟩⟩
  | @pair inner flat hinner hflat ihinner ihflat =>
    have houter : Matched ('[' :: (inner ++ ']' :: flat)) 0 (inner.length + 1) :=
      ⟨[], inner, flat, rfl, hinner, rfl, by rw [List.length_nil]; omega⟩
    have hin : ∀ {i j}, Matched inner i j →
        Matched ('[' :: (inner ++ ']' :: flat)) (i + 1) (j + 1) := by
      intro i j hij
      simpa [Nat.add_comm] using hij.within ['['] (']' :: flat)
    have hbehind : ∀ {i j}, Matched flat i j →
        Matched ('[' :: (inner ++ ']' :: flat)) (inner.length + 2 + i) (inner.length + 2 + j) := by
      intro i j hij
      simpa using hij.within ('[' :: (inner ++ [']'])) []
    intro k
    constructor
    · intro h
      rcases getElem?_pair_cases h with ⟨rfl, -⟩ | ⟨l, rfl, hl⟩ | ⟨-, hc⟩ | ⟨l, rfl, hl⟩
      · exact ⟨_, houter⟩
      · obtain ⟨j, hj⟩ := (ihinner l).1 hl
        exact ⟨_, hin hj⟩
      · exact absurd hc (by decide)
      · obtain ⟨j, hj⟩ := (ihflat l).1 hl
        exact ⟨_, hbehind hj⟩
    · intro h
      rcases getElem?_pair_cases h with ⟨-, hc⟩ | ⟨l, rfl, hl⟩ | ⟨rfl, -⟩ | ⟨l, rfl, hl⟩
      · exact absurd hc (by decide)
      · obtain ⟨i, hi⟩ := (ihinner l).2 hl
        exact ⟨_, hin hi⟩
      · exact ⟨_, houter⟩
      · obtain ⟨i, hi⟩ := (ihflat l).2 hl
        exact ⟨_, hbehind hi⟩

/-! ### The three shapes -/

/-- A balanced part in front of a stream does not change its shape. -/
theorem Shape.prepend {front flat : List Char} (hfront : Balanced front) (h : Shape flat) :
    Shape (front ++ flat) := by
  cases h with
  | balanced hflat => exact .balanced (hfront.append hflat)
  | stray hbefore after =>
    rw [← List.append_assoc]
    exact .stray (hfront.append hbefore) after
  | unclosed hbefore hafter =>
    rw [← List.append_assoc]
    exact .unclosed (hfront.append hbefore) hafter

/-- **Every stream has one of the three shapes.** -/
theorem shape (flat : List Char) : Shape flat := by
  -- by induction on the length, since what stands behind a pair is read again from its start
  induction hlength : flat.length using Nat.strongRecOn generalizing flat with
  | ind n ih =>
    subst hlength
    cases flat with
    | nil => exact .balanced .nil
    | cons c flat =>
      have hflat : Shape flat := ih flat.length (Nat.lt_succ_self _) flat rfl
      cases c using char_cases with
      | opening =>
        cases hflat with
        | balanced hflat => exact .unclosed .nil (.inside hflat)
        | unclosed hbefore hafter => exact .unclosed .nil (.opening hbefore hafter)
        | @stray before hbefore after =>
          -- the stray bracket is the partner of this one
          have hafter : Shape after := by
            refine ih after.length ?_ after rfl
            rw [List.length_cons, List.length_append, List.length_cons]
            omega
          have hpair := hafter.prepend (.pair hbefore .nil)
          rwa [List.cons_append, List.append_assoc, List.cons_append, List.nil_append] at hpair
      | closing => exact .stray .nil flat
      | comment c hopening hclosing => exact hflat.prepend (.comment hopening hclosing .nil)

end Bracket

end TapeMachine
