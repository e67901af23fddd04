import TapeMachine.Proofs.Report.Caret
import TapeMachine.Proofs.Slices

/-!
# Excerpts cut out of bytes

A column may be any word, and the line may be shorter than it says.  An excerpt is cut between the offsets
of two characters, which are found from their indices: a difference of indices stops at zero, an index past
the end stands for the end, but a sum of words wraps around.  Here the excerpt is made that way.

Both cuts fall between characters, whatever the column.  The first one is in front of the second as long as
the sum is a word.  Where it is none, the first cut is at the end of the text, and the second one is in front
of it, unless the text ends before the place to which the sum has wrapped around.  (Where overflow is checked,
the sum itself fails for these columns.)

## Main definitions

* `Excerpt.positionOf`, `Excerpt.firstShown`, `Excerpt.endShown` — what is shown, in words.
* `Excerpt.bySlices?` — an excerpt that is cut out of the bytes of a text.
* `Excerpt.WrapsInto` — the end of the window has wrapped around to a place inside of the text.

## Main results

* `Excerpt.offsetAt_firstShown_le_iff` — when the cuts are in order.
* `Excerpt.slice?_shown` — what is between them.
* `Excerpt.window?_eq` — the window of an excerpt is what is between them.
* `Excerpt.render?_eq_cases` — which columns have an excerpt, and what it is.
-/

namespace TapeMachine.Excerpt

/-- The position of a column; the column before the first one has the first position too. -/
def positionOf (column : UInt64) : UInt64 :=
  if column = 0 then 0 else column - 1

/-- The index of the first character that is shown. -/
def firstShown (word : UInt64) : Nat :=
  word.toNat - reach

/-- The index behind the last character that is shown: a sum of words, but no index past the end. -/
def endShown (text : Line) (word : UInt64) : Nat :=
  min (word + UInt64.ofNat reach + 1).toNat text.length

/-- An excerpt that is cut out of the bytes of a text. -/
def bySlices? (colour : Bool) (headline : List Char) (line : Nat) (text : Line) (column : UInt64) :
    Option (List Char) := do
  let position := positionOf column
  let first := firstShown position
  let shown ← Text.slice? text (Text.offsetAt text first) (Text.offsetAt text (endShown text position))
  return Paint.alarm.apply colour headline ++ ['\n'] ++
    Paint.faint.apply colour (gutter line) ++ shown ++ ['\n'] ++
    List.replicate (Text.byteSize (gutter line) + (position.toNat - first)) ' ' ++
    Paint.mark.apply colour ['^'] ++ ['\n']

/-- The end of the window of a position is no word and has wrapped around to a place inside of the text. -/
def WrapsInto (text : Line) (position : Nat) : Prop :=
  positions ≤ position + reach + 1 ∧ position + reach + 1 - positions < text.length

instance (text : Line) (position : Nat) : Decidable (WrapsInto text position) :=
  inferInstanceAs (Decidable (_ ∧ _))

/-- The excerpt of a position: the headline, below it the characters from the 32nd in front of the position
up to the 32nd behind it, as far as the line goes, behind a gutter with the number of the line, and below
them a caret, which stands under the position if the line has it. -/
def drawn (colour : Bool) (headline : List Char) (line : Nat) (text : Line) (position : Nat) : List Char :=
  Paint.alarm.apply colour headline ++ ['\n'] ++
    Paint.faint.apply colour (gutter line) ++ (text.take (position + 33)).drop (position - 32) ++ ['\n'] ++
    List.replicate ((gutter line).length + min position 32) ' ' ++
    Paint.mark.apply colour ['^'] ++ ['\n']

variable {text : Line} {position : Nat}

/-! ### Words -/

theorem toNat_positionOf (column : UInt64) : (positionOf column).toNat = column.toNat - 1 := by
  rw [positionOf]
  split
  · next h => rw [h]; rfl
  · next h =>
    have hone : (1 : UInt64).toNat ≤ column.toNat :=
      Nat.one_le_iff_ne_zero.mpr fun hzero => h (UInt64.toNat_inj.mp hzero)
    rw [UInt64.toNat_sub_of_le _ _ (UInt64.le_iff_toNat_le.mpr hone)]
    rfl

theorem endShown_eq (text : Line) (word : UInt64) :
    endShown text word = min ((word.toNat + reach + 1) % positions) text.length := by
  rw [endShown, UInt64.toNat_add, UInt64.toNat_add, Nat.mod_add_mod]
  rfl

/-! ### The two cuts -/

theorem min_firstShown_le_iff (text : Line) (word : UInt64) :
    min (firstShown word) text.length ≤ min (endShown text word) text.length ↔
      ¬ WrapsInto text word.toNat := by
  have hword := word.toNat_lt
  rw [endShown_eq, firstShown, WrapsInto]
  simp only [positions, reach]
  omega

/-- **The cuts are in order**, unless the end of the window has wrapped around to a place inside of the
text. -/
theorem offsetAt_firstShown_le_iff (text : Line) (word : UInt64) :
    Text.offsetAt text (firstShown word) ≤ Text.offsetAt text (endShown text word) ↔
      ¬ WrapsInto text word.toNat := by
  rw [Text.offsetAt_le_iff, min_firstShown_le_iff]

theorem drop_take_eq_nil {first : Nat} (h : text.length ≤ first) (last : Nat) :
    (text.take last).drop first = [] := by
  rw [List.drop_eq_nil_iff, List.length_take]
  exact Nat.le_trans (Nat.min_le_right _ _) h

/-- Nothing is shown for a position that is far behind the text. -/
theorem around_eq_nil (h : text.length ≤ position - reach) : around text position = [] :=
  drop_take_eq_nil h _

/-- Where the end of the window has wrapped around to a place behind the text, nothing is shown either. -/
theorem take_endShown_eq {word : UInt64} (h : ¬ WrapsInto text word.toNat) :
    (text.take (endShown text word)).drop (firstShown word) = around text word.toNat := by
  by_cases hend : word.toNat + reach + 1 < positions
  · rw [endShown_eq, Nat.mod_eq_of_lt hend, firstShown, around_eq]
    rfl
  · have hfar : text.length ≤ word.toNat - reach := by
      simp only [WrapsInto, positions, reach] at h hend ⊢
      omega
    rw [around_eq_nil hfar]
    exact drop_take_eq_nil hfar _

/-- **What is between the cuts** is the window. -/
theorem slice?_shown (text : Line) (word : UInt64) :
    Text.slice? text (Text.offsetAt text (firstShown word)) (Text.offsetAt text (endShown text word)) =
      if WrapsInto text word.toNat then none else some (around text word.toNat) := by
  rw [Text.slice?_offsetAt_eq]
  simp only [min_firstShown_le_iff, ite_not]
  split
  · rfl
  · next h => rw [take_endShown_eq h]

/-- A line in memory ends in front of the positions whose window has no end among the words. -/
theorem length_le_of_memory (hmemory : Text.byteSize text < 0x8000000000000000)
    (hend : positions ≤ position + reach + 1) : text.length ≤ position - reach := by
  have hlength := Text.length_le_byteSize text
  simp only [positions, reach] at hend ⊢
  omega

/-- **The window is what is cut out**, of a line in memory and for all positions whose window ends at a
word. -/
theorem window?_eq (h : position + reach + 1 < positions ∨ Text.byteSize text < 0x8000000000000000) :
    window? text position = if WrapsInto text position then none else some (around text position) := by
  rw [window?]
  by_cases hend : position + reach + 1 < positions
  · rw [if_pos (.inr hend), if_neg fun hinto => Nat.not_lt.mpr hinto.1 hend]
  · have hwraps := Nat.le_of_not_lt hend
    have hfar := length_le_of_memory (h.resolve_left hend) hwraps
    have hout : ¬ position < text.length :=
      Nat.not_lt.mpr (Nat.le_trans hfar (Nat.sub_le _ _))
    rw [if_neg (not_or.mpr ⟨hout, hend⟩), around_eq_nil hfar]
    by_cases hinto : text.length ≤ position + reach + 1 - positions
    · rw [if_pos hinto, if_neg fun h => Nat.not_lt.mpr hinto h.2]
    · rw [if_neg hinto, if_pos ⟨hwraps, Nat.lt_of_not_le hinto⟩]

/-! ### The whole excerpt -/

theorem utf8Size_of_isDigit {c : Char} (h : c.isDigit) : c.utf8Size = 1 := by
  obtain ⟨-, hnine⟩ := Char.isDigit_iff_toNat.mp h
  rw [Char.utf8Size_eq_one_iff, UInt32.le_iff_toNat_le]
  exact Nat.le_trans hnine (by decide)

/-- A gutter is as many bytes long as it has characters. -/
theorem byteSize_gutter (line : Nat) : Text.byteSize (gutter line) = (gutter line).length := by
  have hdigits : Text.byteSize (Decimal.digits line) = (Decimal.digits line).length :=
    Text.byteSize_eq_length fun c hc =>
      utf8Size_of_isDigit (Nat.isDigit_of_mem_toDigits (by decide) (by decide) hc)
  rw [gutter, Text.byteSize_append, List.length_append, hdigits]
  rfl

/-- The number of a line is a word and has no more than twenty digits. -/
theorem length_gutter_le (line : UInt64) : (gutter line.toNat).length ≤ 23 := by
  have hwidth : (Decimal.digits line.toNat).length ≤ 20 :=
    (Nat.length_toDigits_le_iff (by decide) (by decide)).mpr
      (Nat.lt_of_lt_of_le line.toNat_lt (by decide))
  rw [gutter, List.length_append]
  exact Nat.add_le_add_right hwidth 3

theorem bySlices?_eq (colour : Bool) (headline : List Char) (line : Nat) (text : Line)
    (column : UInt64) : bySlices? colour headline line text column =
      if WrapsInto text (column.toNat - 1) then none
      else some (drawn colour headline line text (column.toNat - 1)) := by
  have hcaret : ∀ position, position - (position - reach) = min position reach := by
    intro position
    omega
  rw [bySlices?, slice?_shown, firstShown, hcaret, toNat_positionOf, byteSize_gutter]
  split
  · rfl
  · rfl

theorem render?_eq (colour : Bool) (headline : List Char) (line : Nat) (text : Line) (column : Nat)
    (h : column - 1 + reach + 1 < positions ∨ Text.byteSize text < 0x8000000000000000) :
    render? colour headline line text column =
      if WrapsInto text (column - 1) then none
      else some (drawn colour headline line text (column - 1)) := by
  rw [render?, window?_eq h]
  split
  · rfl
  · rfl

/-- **The excerpt of a column**, whatever the column and the line.  Both cuts fall between characters, and
the caret is never far from the gutter.  For all columns but the last 32 words, the cuts are in order, the
part of the line between them has the characters up to 32 places to either side of the position, and the
excerpt is drawn with it.  For those, a line in memory has an excerpt unless the end of the window has wrapped
around to a place inside of the line, where the cuts are the wrong way round. -/
theorem render?_eq_cases (colour : Bool) (headline : List Char) (line : UInt64) (text : Line)
    (column : UInt64) :
    let position := column.toNat - 1
    let first := Text.offsetAt text (firstShown (positionOf column))
    let last := Text.offsetAt text (endShown text (positionOf column))
    (Text.cutAt? text first).isSome ∧ (Text.cutAt? text last).isSome ∧
    (gutter line.toNat).length + min position 32 ≤ 55 ∧
    (position + 33 < positions →
      first ≤ last ∧
      Text.slice? text first last = some ((text.take (position + 33)).drop (position - 32)) ∧
      bySlices? colour headline line.toNat text column =
        some (drawn colour headline line.toNat text position) ∧
      render? colour headline line.toNat text column.toNat =
        some (drawn colour headline line.toNat text position)) ∧
    (Text.byteSize text < 0x8000000000000000 →
      (first ≤ last ↔ ¬ WrapsInto text position) ∧
      bySlices? colour headline line.toNat text column =
        render? colour headline line.toNat text column.toNat ∧
      render? colour headline line.toNat text column.toNat =
        if WrapsInto text position then none
        else some (drawn colour headline line.toNat text position)) := by
  intro position first last
  have hposition : (positionOf column).toNat = position := toNat_positionOf column
  have horder := offsetAt_firstShown_le_iff text (positionOf column)
  rw [hposition] at horder
  have hslices := bySlices?_eq colour headline line.toNat text column
  refine ⟨?_, ?_, ?_, fun hend => ?_, fun hmemory => ?_⟩
  · rw [Text.cutAt?_offsetAt]
    rfl
  · rw [Text.cutAt?_offsetAt]
    rfl
  · have hgutter := length_gutter_le line
    omega
  · have hinto : ¬ WrapsInto text position := fun h => Nat.not_lt.mpr h.1 hend
    have hslice : Text.slice? text first last = some (around text position) := by
      rw [slice?_shown, hposition, if_neg hinto]
    have hrender := render?_eq colour headline line.toNat text column.toNat (.inl hend)
    exact ⟨horder.mpr hinto, hslice, hslices.trans (if_neg hinto), hrender.trans (if_neg hinto)⟩
  · have hrender := render?_eq colour headline line.toNat text column.toNat (.inr hmemory)
    exact ⟨horder, hslices.trans hrender.symm, hrender⟩

/-- The last column whose window ends at a word, of a line that is long enough for the end to wrap around
into it, and the column behind it. -/
theorem render?_eq_cases_of_last_columns :
    18446744073709551583 - 1 + 33 < positions ∧
    render? false ['h'] 7 (List.replicate 40 'é') 18446744073709551583 =
      some (drawn false ['h'] 7 (List.replicate 40 'é') (18446744073709551583 - 1)) ∧
    Text.byteSize (List.replicate 40 'é') < 0x8000000000000000 ∧
    render? false ['h'] 7 (List.replicate 40 'é') 18446744073709551584 =
      if WrapsInto (List.replicate 40 'é') (18446744073709551584 - 1) then none
      else some (drawn false ['h'] 7 (List.replicate 40 'é') (18446744073709551584 - 1)) := by
  have hend : 18446744073709551583 - 1 + 33 < positions := by decide
  have hmemory : Text.byteSize (List.replicate 40 'é') < 0x8000000000000000 := by decide
  obtain ⟨-, -, -, hdrawn, -⟩ :=
    render?_eq_cases false ['h'] 7 (List.replicate 40 'é') 18446744073709551583
  obtain ⟨-, -, -, -, hcases⟩ :=
    render?_eq_cases false ['h'] 7 (List.replicate 40 'é') 18446744073709551584
  exact ⟨hend, (hdrawn hend).2.2.2, hmemory, (hcases hmemory).2.2⟩

/-- **There is a column without an excerpt**: the end of its window wraps around to the start of the line, in
front of the other end. -/
theorem render?_of_wrapped_window :
    Text.offsetAt [']'] (endShown [']'] (positionOf 18446744073709551584)) <
      Text.offsetAt [']'] (firstShown (positionOf 18446744073709551584)) ∧
    bySlices? false ['h'] 1 [']'] 18446744073709551584 = none ∧
    render? false ['h'] 1 [']'] 18446744073709551584 = none := by
  decide

end TapeMachine.Excerpt
