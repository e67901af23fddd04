import Mathlib.Algebra.GroupWithZero.Nat

/-!
# Parts of a text between byte offsets

The parts of a text can be named by the offsets of their first and last bytes, as long as these are where
characters begin and end.  A cut that is out of range or inside a character fails.

The offset of a character is found by going through the offsets at which characters begin.  A text can be
cut at the offset of any of its characters, and an index past the last one stands for the end of the text.

## Main definitions

* `Text.byteSize`, `Text.cutAt?`, `Text.slice?` — the bytes of a text, and its parts between offsets.
* `Text.offsetAt` — the offset at which the character of an index begins.

## Main results

* `Text.cutAt?_eq_some_iff`, `Text.slice?_eq_some_iff` — where a text can be cut.
* `Text.offsetAt_le_iff` — offsets stand in the order of the indices, as far as the text goes.
* `Text.slice?_offsetAt_eq` — the part between the offsets of two characters.
-/

namespace TapeMachine.Text

/-- The number of bytes of a text. -/
def byteSize (text : List Char) : Nat :=
  (text.map Char.utf8Size).sum

/-- A text cut at an offset in bytes; there is no cut behind its end nor inside a character. -/
def cutAt? : List Char → Nat → Option (List Char × List Char)
  | [], offset => if offset = 0 then some ([], []) else none
  | c :: cs, offset =>
    if offset = 0 then some ([], c :: cs)
    else if c.utf8Size ≤ offset then
      (cutAt? cs (offset - c.utf8Size)).map fun (before, after) => (c :: before, after)
    else none

/-- The part of a text from one offset to another. -/
def slice? (text : List Char) (start stop : Nat) : Option (List Char) := do
  let (before, _) ← cutAt? text stop
  let (_, part) ← cutAt? before start
  return part

/-- The offsets at which the characters of a text begin, the first of them at `offset`. -/
def offsetsFrom : Nat → List Char → List Nat
  | _, [] => []
  | offset, c :: cs => offset :: offsetsFrom (offset + c.utf8Size) cs

/-- The offset at which the character of an index begins, and the size of the text where it has no such
character. -/
def offsetAt (text : List Char) (index : Nat) : Nat :=
  (offsetsFrom 0 text)[index]?.getD (byteSize text)

variable {text before part after : List Char} {offset start stop first last : Nat}

@[simp] theorem byteSize_nil : byteSize [] = 0 := rfl

@[simp] theorem byteSize_cons (c : Char) (text : List Char) :
    byteSize (c :: text) = c.utf8Size + byteSize text := by
  simp [byteSize]

@[simp] theorem byteSize_append (before after : List Char) :
    byteSize (before ++ after) = byteSize before + byteSize after := by
  simp [byteSize]

theorem byteSize_eq_zero_iff : byteSize text = 0 ↔ text = [] := by
  cases text with
  | nil => simp
  | cons c text =>
    have hpos := c.utf8Size_pos
    simp only [byteSize_cons, reduceCtorEq, iff_false]
    omega

theorem byteSize_eq_length (h : ∀ c ∈ text, c.utf8Size = 1) : byteSize text = text.length := by
  rw [byteSize, List.map_eq_replicate_iff.mpr h, List.sum_replicate_nat, Nat.mul_one]

/-- Every character has a byte. -/
theorem length_le_byteSize (text : List Char) : text.length ≤ byteSize text := by
  induction text with
  | nil => exact Nat.le_refl _
  | cons c text ih =>
    have hpos := c.utf8Size_pos
    rw [List.length_cons, byteSize_cons]
    omega

/-- **A text can be cut between two characters, and nowhere else.** -/
theorem cutAt?_eq_some_iff :
    cutAt? text offset = some (before, after) ↔ text = before ++ after ∧ byteSize before = offset := by
  induction text generalizing offset before with
  | nil =>
    rw [cutAt?]
    constructor
    · intro h
      split at h
      · next hzero => cases h; exact ⟨rfl, hzero.symm⟩
      · cases h
    · rintro ⟨happend, rfl⟩
      obtain ⟨rfl, rfl⟩ := List.nil_eq_append_iff.mp happend
      rfl
  | cons c text ih =>
    have hpos := c.utf8Size_pos
    rw [cutAt?]
    cases before with
    | nil =>
      constructor
      · intro h
        split at h
        · next hzero => cases h; exact ⟨rfl, hzero.symm⟩
        · split at h
          · obtain ⟨_, -, hpair⟩ := Option.map_eq_some_iff.mp h
            cases hpair
          · cases h
      · rintro ⟨rfl, rfl⟩
        rfl
    | cons c' before =>
      constructor
      · intro h
        split at h
        · cases h
        · split at h
          · next hle =>
            obtain ⟨_, hcut, hpair⟩ := Option.map_eq_some_iff.mp h
            cases hpair
            obtain ⟨rfl, hsize⟩ := ih.mp hcut
            exact ⟨rfl, by rw [byteSize_cons]; omega⟩
          · cases h
      · rintro ⟨happend, rfl⟩
        obtain ⟨rfl, rfl⟩ := List.cons_eq_cons.mp happend
        rw [byteSize_cons, if_neg (by omega), if_pos (by omega), Nat.add_sub_cancel_left,
          ih.mpr ⟨rfl, rfl⟩]
        rfl

/-- **The part between two offsets** is there exactly if both are between characters, in order. -/
theorem slice?_eq_some_iff : slice? text start stop = some part ↔
    ∃ before after, text = before ++ part ++ after ∧ byteSize before = start ∧
      byteSize (before ++ part) = stop := by
  simp only [slice?, Option.bind_eq_bind, Option.bind_eq_some_iff, Prod.exists,
    cutAt?_eq_some_iff, Option.pure_def, Option.some.injEq]
  constructor
  · rintro ⟨front, after, ⟨rfl, rfl⟩, before, _, ⟨rfl, rfl⟩, rfl⟩
    exact ⟨before, after, rfl, rfl, rfl⟩
  · rintro ⟨before, after, rfl, rfl, rfl⟩
    exact ⟨before ++ part, after, ⟨rfl, rfl⟩, before, part, ⟨rfl, rfl⟩, rfl⟩

/-! ### The offsets of characters -/

theorem getElem?_offsetsFrom (text : List Char) : ∀ offset index : Nat,
    (offsetsFrom offset text)[index]? =
      if index < text.length then some (offset + byteSize (text.take index)) else none := by
  induction text with
  | nil =>
    intro offset index
    rfl
  | cons c text ih =>
    intro offset index
    cases index with
    | zero => simp [offsetsFrom]
    | succ index => simp [offsetsFrom, ih, Nat.add_assoc]

/-- **The offset of a character** is the size of what stands in front of it. -/
theorem offsetAt_eq (text : List Char) (index : Nat) :
    offsetAt text index = byteSize (text.take index) := by
  rw [offsetAt, getElem?_offsetsFrom]
  split
  · rw [Option.getD_some, Nat.zero_add]
  · next h => rw [Option.getD_none, List.take_of_length_le (Nat.le_of_not_lt h)]

example : offsetAt ['é', '['] 1 = 2 ∧ offsetAt ['é', '['] 2 = 3 ∧ offsetAt [] 0 = 0 := by decide

/-- A text can be cut where a character begins, and at its end. -/
theorem cutAt?_offsetAt (text : List Char) (index : Nat) :
    cutAt? text (offsetAt text index) = some (text.take index, text.drop index) :=
  cutAt?_eq_some_iff.mpr ⟨(List.take_append_drop index text).symm, (offsetAt_eq text index).symm⟩

/-- What stands in front of a later character starts with what stands in front of an earlier one. -/
theorem take_eq_append (h : min first text.length ≤ min last text.length) :
    text.take last = text.take first ++ (text.take last).drop first := by
  have hfront : (text.take last).take first = text.take first := by
    rw [List.take_take, List.take_eq_take_iff]
    omega
  rw [← hfront, List.take_append_drop]

/-- **Offsets stand in the order of the indices**, as far as the text goes. -/
theorem offsetAt_le_iff :
    offsetAt text first ≤ offsetAt text last ↔ min first text.length ≤ min last text.length := by
  rw [offsetAt_eq, offsetAt_eq]
  constructor
  · intro h
    refine Nat.le_of_not_lt fun hless => ?_
    have hother : min last text.length ≤ min first text.length := by omega
    -- the characters between the two would have no bytes
    have hsize := congrArg byteSize (take_eq_append hother)
    rw [byteSize_append] at hsize
    have hnil : (text.take first).drop last = [] := byteSize_eq_zero_iff.mp (by omega)
    rw [List.drop_eq_nil_iff, List.length_take] at hnil
    omega
  · intro h
    rw [take_eq_append h, byteSize_append]
    exact Nat.le_add_right _ _

/-- **The part between the offsets of two characters**; there is none if the second stands in front of the
first. -/
theorem slice?_offsetAt_eq (text : List Char) (first last : Nat) :
    slice? text (offsetAt text first) (offsetAt text last) =
      if min first text.length ≤ min last text.length then some ((text.take last).drop first)
      else none := by
  split
  · next h =>
    have happend := take_eq_append h
    refine slice?_eq_some_iff.mpr ⟨text.take first, text.drop last, ?_, (offsetAt_eq text first).symm, ?_⟩
    · rw [← happend, List.take_append_drop]
    · rw [← happend, offsetAt_eq]
  · next h =>
    rw [Option.eq_none_iff_forall_ne_some]
    intro part hpart
    obtain ⟨before, after, -, hstart, hstop⟩ := slice?_eq_some_iff.mp hpart
    rw [byteSize_append, hstart] at hstop
    exact h (offsetAt_le_iff.mp (by omega))

end TapeMachine.Text
