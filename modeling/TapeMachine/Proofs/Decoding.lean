import Mathlib.Algebra.GroupWithZero.Nat
import TapeMachine.Cell

/-!
# Reading values off an input

A value that is read off the front of an input covers at least one byte and no more bytes than the
input has, and there is one as long as there is input.  So reading one value after the other comes to
an end, and the bound that the sequence of all values is computed with is never reached.

## Main results

* `CellWidth.used_le_of_decode?`, `CellWidth.used_pos_of_decode?` — a value covers something, and no
  more than there is.
* `CellWidth.decodeAll_eq_cons` — all values are the first one and then all values behind it.
* `CellWidth.reads_iff` — reading until there is no value finds all values.
* `CellWidth.Reads.sum_used`, `CellWidth.Reads.decode?_drop` — the values cover the whole input, each of
  them where the one before it ends.
-/

namespace TapeMachine

namespace Utf8

theorem used_follow_le (bytes : List UInt8) : ∀ (owed low high : Nat) (sofar : Decoded),
    (follow owed low high sofar bytes).used ≤ sofar.used + bytes.length := by
  induction bytes with
  | nil =>
    intro owed low high sofar
    cases owed <;> exact Nat.le_refl _
  | cons byte rest ih =>
    intro owed low high sofar
    cases owed with
    | zero => exact Nat.le_add_right _ _
    | succ owed =>
      rw [follow, List.length_cons]
      split
      · have h := ih owed 0x80 0xbf ⟨64 * sofar.value + byte.toNat % 64, sofar.used + 1⟩
        dsimp only at h
        omega
      · exact Nat.le_add_right _ _

theorem used_le_of_first? {bytes : List UInt8} {decoded : Decoded} (h : first? bytes = some decoded) :
    decoded.used ≤ bytes.length := by
  cases bytes with
  | nil => cases h
  | cons byte rest =>
    cases h
    rw [first, List.length_cons]
    split
    · exact Nat.le_add_left 1 _
    · next lead _ =>
      have h := used_follow_le rest lead.owed lead.low lead.high ⟨lead.payload, 1⟩
      dsimp only at h
      omega

end Utf8

namespace CellWidth

/-- **No value covers more than there is.** -/
theorem used_le_of_decode? {width : CellWidth} {input : List UInt8} {decoded : Decoded}
    (h : width.decode? input = some decoded) : decoded.used ≤ input.length := by
  have hwide : Utf8.first? (input.take 4) = some decoded → decoded.used ≤ input.length := by
    intro h
    have hused := Utf8.used_le_of_first? h
    rw [List.length_take] at hused
    omega
  cases width with
  | bits8 =>
    cases input with
    | nil => cases h
    | cons byte rest =>
      cases h
      exact Nat.le_add_left 1 _
  | bits16 => exact hwide h
  | bits32 => exact hwide h

/-- **A value covers at least one byte.** -/
theorem used_pos_of_decode? {width : CellWidth} {input : List UInt8} {decoded : Decoded}
    (h : width.decode? input = some decoded) : 0 < decoded.used := by
  cases width with
  | bits8 =>
    obtain ⟨byte, -, rfl⟩ := Option.map_eq_some_iff.mp h
    exact Nat.one_pos
  | bits16 => exact Utf8.used_pos_of_first? h
  | bits32 => exact Utf8.used_pos_of_first? h

/-- Only the end of the input has no value. -/
theorem decode?_eq_none_iff {width : CellWidth} {input : List UInt8} :
    width.decode? input = none ↔ input = [] := by
  cases width <;> simp [decode?]

/-! ### All values -/

/-- A bound that is not below the number of bytes does not matter. -/
theorem decodeUpTo_eq_of_le (width : CellWidth) : ∀ {count count' : Nat} {input : List UInt8},
    input.length ≤ count → input.length ≤ count' →
      width.decodeUpTo count input = width.decodeUpTo count' input := by
  intro count
  induction count with
  | zero =>
    intro count' input h _
    obtain rfl := List.eq_nil_of_length_eq_zero (Nat.le_zero.mp h)
    have hend : width.decode? [] = none := decode?_eq_none_iff.mpr rfl
    cases count' <;> simp [decodeUpTo, hend]
  | succ count ih =>
    intro count' input h h'
    cases hdecode : width.decode? input with
    | none => cases count' <;> simp [decodeUpTo, hdecode]
    | some decoded =>
      have hpos := used_pos_of_decode? hdecode
      have hused := used_le_of_decode? hdecode
      cases count' with
      | zero => omega
      | succ count' =>
        have hrest := @ih count' (input.drop decoded.used)
          (by rw [List.length_drop]; omega) (by rw [List.length_drop]; omega)
        simp [decodeUpTo, hdecode, hrest]

/-- **All values are the first one, and then all values behind it.** -/
theorem decodeAll_eq_cons {width : CellWidth} {input : List UInt8} {decoded : Decoded}
    (h : width.decode? input = some decoded) :
    width.decodeAll input = decoded :: width.decodeAll (input.drop decoded.used) := by
  have hpos := used_pos_of_decode? h
  have hused := used_le_of_decode? h
  obtain ⟨count, hcount⟩ : ∃ count, input.length = count + 1 := ⟨input.length - 1, by omega⟩
  have hrest : width.decodeUpTo count (input.drop decoded.used) =
      width.decodeAll (input.drop decoded.used) :=
    decodeUpTo_eq_of_le width (by rw [List.length_drop]; omega) (Nat.le_refl _)
  rw [decodeAll, hcount, decodeUpTo, h]
  simp only [hrest]

theorem decodeAll_nil (width : CellWidth) : width.decodeAll [] = [] := rfl

/-- An 8-bit cell reads byte by byte. -/
theorem decodeAll_bits8 (input : List UInt8) :
    bits8.decodeAll input = input.map fun byte => ⟨byte.toNat, 1⟩ := by
  induction input with
  | nil => rfl
  | cons byte rest ih =>
    have hread : bits8.decode? (byte :: rest) = some ⟨byte.toNat, 1⟩ := rfl
    rw [decodeAll_eq_cons hread, List.drop_one, List.tail_cons, ih, List.map_cons]

/-! ### Reading until there is no value -/

/-- `width.Reads input values` says that reading one value after the other finds `values`, and that
there is none behind them. -/
inductive Reads (width : CellWidth) : List UInt8 → List Decoded → Prop
  /-- There is no value. -/
  | done {input : List UInt8} (hnone : width.decode? input = none) : Reads width input []
  /-- The first value, and then what is read behind it. -/
  | more {input : List UInt8} {decoded : Decoded} {values : List Decoded}
      (hsome : width.decode? input = some decoded)
      (hrest : Reads width (input.drop decoded.used) values) :
      Reads width input (decoded :: values)

/-- Reading comes to an end. -/
theorem reads_decodeAll (width : CellWidth) (input : List UInt8) :
    width.Reads input (width.decodeAll input) := by
  -- by induction on the length, since each value covers at least one byte
  induction hlength : input.length using Nat.strongRecOn generalizing input with
  | ind n ih =>
    cases hdecode : width.decode? input with
    | none =>
      have hnil : input = [] := decode?_eq_none_iff.mp hdecode
      rw [hnil, decodeAll_nil]
      exact .done (decode?_eq_none_iff.mpr rfl)
    | some decoded =>
      have hpos := used_pos_of_decode? hdecode
      have hused := used_le_of_decode? hdecode
      have hshorter : (input.drop decoded.used).length < n := by
        rw [List.length_drop]
        omega
      rw [decodeAll_eq_cons hdecode]
      exact .more hdecode (ih _ hshorter _ rfl)

theorem Reads.unique {width : CellWidth} {input : List UInt8} {values values' : List Decoded}
    (h : width.Reads input values) (h' : width.Reads input values') : values = values' := by
  induction h generalizing values' with
  | done hnone =>
    cases h' with
    | done hnone' => rfl
    | more hsome' hrest' =>
      rw [hnone] at hsome'
      cases hsome'
  | more hsome hrest ih =>
    cases h' with
    | done hnone' =>
      rw [hsome] at hnone'
      cases hnone'
    | more hsome' hrest' =>
      rw [hsome] at hsome'
      cases hsome'
      rw [ih hrest']

/-- **Reading until there is no value finds all values.** -/
theorem reads_iff {width : CellWidth} {input : List UInt8} {values : List Decoded} :
    width.Reads input values ↔ values = width.decodeAll input := by
  constructor
  · intro h
    exact h.unique (reads_decodeAll width input)
  · rintro rfl
    exact reads_decodeAll width input

/-- **The values cover the whole input.** -/
theorem Reads.sum_used {width : CellWidth} {input : List UInt8} {values : List Decoded}
    (h : width.Reads input values) : (values.map Decoded.used).sum = input.length := by
  induction h with
  | done hnone =>
    rw [decode?_eq_none_iff.mp hnone]
    rfl
  | more hsome hrest ih =>
    have hused := used_le_of_decode? hsome
    rw [List.length_drop] at ih
    rw [List.map_cons, List.sum_cons, ih]
    omega

/-- **Each value is read where the one before it ends.** -/
theorem Reads.decode?_drop {width : CellWidth} {input : List UInt8} {before after : List Decoded}
    {decoded : Decoded} (h : width.Reads input (before ++ decoded :: after)) :
    width.decode? (input.drop (before.map Decoded.used).sum) = some decoded := by
  induction before generalizing input with
  | nil =>
    cases h with
    | more hsome hrest => exact hsome
  | cons first before ih =>
    cases h with
    | more hsome hrest =>
      rw [List.map_cons, List.sum_cons, ← List.drop_drop]
      exact ih hrest

end CellWidth

end TapeMachine
