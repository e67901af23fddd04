import Mathlib.Algebra.GroupWithZero.Nat
import Mathlib.Logic.ExistsUnique
import TapeMachine.Source

/-!
# Places and indices

The characters of a program are counted in two ways: by line and column, and by the index in the
stream that the machine walks.  The index of a place is the number of characters in front of it.  The
two ways name the same characters, and no two places of a program have the same index.

## Main definitions

* `Source.charAt? source place` — the character at a place, if the program has the place.
* `Source.index source place` — the number of characters in front of a place.

## Main results

* `Source.getElem?_located_eq_some_iff` — what is located at an index is the character of the place
  with this index.
* `Source.index_injective` — places with the same index are the same.
* `Source.existsUnique_place` — every index of the stream is that of one place.
-/

namespace TapeMachine

namespace Source

/-- The character at a place. -/
def charAt? (source : Source) (place : Location) : Option Char :=
  match place.column with
  | 0 => none
  | column + 1 => (source.line? place.line).bind fun l => l[column]?

/-- The index of a place: the lengths of the lines above and the characters to the left. -/
def index (source : Source) (place : Location) : Nat :=
  ((source.lines.take (place.line - 1)).map List.length).sum + (place.column - 1)

variable {source : Source} {place place' : Location} {c c' : Char} {k : Nat}

theorem charAt?_eq_some_iff : source.charAt? place = some c ↔
    ∃ n m l, place = ⟨n + 1, m + 1⟩ ∧ source.lines[n]? = some l ∧ l[m]? = some c := by
  constructor
  · intro h
    obtain ⟨number, column⟩ := place
    cases column with
    | zero => simp [charAt?] at h
    | succ m =>
      obtain ⟨l, hline, hchar⟩ := Option.bind_eq_some_iff.mp h
      cases number with
      | zero => simp [line?] at hline
      | succ n => exact ⟨n, m, l, rfl, hline, hchar⟩
  · rintro ⟨n, m, l, rfl, hline, hchar⟩
    simp [charAt?, line?, hline, hchar]

/-! ### The located stream -/

theorem getElem?_locateLine (line : Nat) (l : Line) : ∀ column m : Nat,
    (locateLine line column l)[m]? = (l[m]?).map fun c => (⟨line, column + m⟩, c) := by
  induction l with
  | nil =>
    intro column m
    rfl
  | cons c l ih =>
    intro column m
    cases m with
    | zero => simp [locateLine]
    | succ m => simp [locateLine, ih, Nat.add_assoc, Nat.add_comm 1 m]

theorem length_locateLine (line column : Nat) (l : Line) :
    (locateLine line column l).length = l.length := by
  have hmap := congrArg List.length (map_snd_locateLine line column l)
  rwa [List.length_map] at hmap

theorem getElem?_locateLines_eq_some_iff {ls : List Line} : ∀ {line k : Nat},
    (locateLines line ls)[k]? = some (place, c) ↔
      ∃ n m l, place = ⟨line + n, m + 1⟩ ∧ ls[n]? = some l ∧ l[m]? = some c ∧
        ((ls.take n).map List.length).sum + m = k := by
  induction ls with
  | nil => simp [locateLines]
  | cons l ls ih =>
    intro line k
    rw [locateLines]
    -- the index falls into the first line, or it is one of the lines behind
    rcases Nat.lt_or_ge k l.length with hlt | hge
    · rw [List.getElem?_append_left (by rwa [length_locateLine]), getElem?_locateLine]
      constructor
      · intro h
        obtain ⟨c', hc, heq⟩ := Option.map_eq_some_iff.mp h
        cases heq
        exact ⟨0, k, l, by simp [Nat.add_comm], by simp, hc, by simp⟩
      · rintro ⟨n, m, l', rfl, hl, hm, rfl⟩
        cases n with
        | zero =>
          obtain rfl : l = l' := by simpa using hl
          simp [hm, Nat.add_comm]
        | succ n =>
          -- a place on a later line has the whole first line in front of it
          simp only [List.take_succ_cons, List.map_cons, List.sum_cons] at hlt
          omega
    · obtain ⟨k, rfl⟩ := Nat.exists_eq_add_of_le hge
      rw [List.getElem?_append_right (by rwa [length_locateLine]), length_locateLine,
        Nat.add_sub_cancel_left, ih]
      constructor
      · rintro ⟨n, m, l', rfl, hl, hm, rfl⟩
        refine ⟨n + 1, m, l', ?_, by simpa using hl, hm, ?_⟩
        · simp [Nat.add_assoc, Nat.add_comm 1 n]
        · simp [Nat.add_assoc]
      · rintro ⟨n, m, l', rfl, hl, hm, hk⟩
        cases n with
        | zero =>
          obtain rfl : l = l' := by simpa using hl
          have hlt := (List.getElem?_eq_some_iff.mp hm).1
          simp at hk
          omega
        | succ n =>
          refine ⟨n, m, l', ?_, by simpa using hl, hm, ?_⟩
          · simp [Nat.add_assoc, Nat.add_comm 1 n]
          · simp only [List.take_succ_cons, List.map_cons, List.sum_cons] at hk
            omega

/-- **What is located at an index is the character of the place with this index.** -/
theorem getElem?_located_eq_some_iff :
    source.located[k]? = some (place, c) ↔ source.charAt? place = some c ∧ source.index place = k := by
  rw [located, getElem?_locateLines_eq_some_iff, charAt?_eq_some_iff]
  constructor
  · rintro ⟨n, m, l, rfl, hline, hchar, rfl⟩
    exact ⟨⟨n, m, l, by rw [Nat.add_comm], hline, hchar⟩, by simp [index]⟩
  · rintro ⟨⟨n, m, l, rfl, hline, hchar⟩, rfl⟩
    exact ⟨n, m, l, by rw [Nat.add_comm], hline, hchar, by simp [index]⟩

/-- A character that is found in the located stream stands where its place says. -/
theorem index_of_located_eq {before after : List (Location × Char)}
    (h : source.located = before ++ (place, c) :: after) :
    source.charAt? place = some c ∧ source.index place = before.length ∧
      source.chars = before.map Prod.snd ++ c :: after.map Prod.snd := by
  have hlocated : source.located[before.length]? = some (place, c) := by simp [h]
  obtain ⟨hchar, hindex⟩ := getElem?_located_eq_some_iff.mp hlocated
  exact ⟨hchar, hindex, by rw [← map_snd_located, h, List.map_append, List.map_cons]⟩

/-- **Places with the same index are the same.** -/
theorem index_injective (h : source.charAt? place = some c) (h' : source.charAt? place' = some c')
    (hindex : source.index place = source.index place') : place = place' := by
  have hlocated := getElem?_located_eq_some_iff.mpr ⟨h, hindex⟩
  have hlocated' := getElem?_located_eq_some_iff.mpr ⟨h', rfl⟩
  rw [hlocated] at hlocated'
  exact congrArg Prod.fst (Option.some.inj hlocated')

/-- **Every index of the stream is that of one place**, and the place has the character at the index. -/
theorem existsUnique_place (h : k < source.chars.length) :
    ∃! place, source.charAt? place = source.chars[k]? ∧ source.index place = k := by
  obtain ⟨c, hc⟩ : ∃ c, source.chars[k]? = some c := ⟨_, List.getElem?_eq_getElem h⟩
  have hstream := hc
  rw [← map_snd_located, List.getElem?_map] at hstream
  obtain ⟨⟨place, c'⟩, hlocated, rfl⟩ := Option.map_eq_some_iff.mp hstream
  rw [hc]
  refine ⟨place, getElem?_located_eq_some_iff.mp hlocated, fun other hother => ?_⟩
  have heq := getElem?_located_eq_some_iff.mpr hother
  rw [hlocated] at heq
  exact (congrArg Prod.fst (Option.some.inj heq)).symm

end Source

end TapeMachine
