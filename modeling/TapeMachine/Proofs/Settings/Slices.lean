import TapeMachine.Proofs.Slices
import TapeMachine.Settings.File

/-!
# Reading a settings file by byte offsets

The brackets of a header, the quotes of a value and the equals sign are one byte each, so the offsets
next to them never fall into a character, whatever stands in the line.  Here the lines are read by such
offsets, each cut failing that is out of range or inside a character; no cut fails, and what is read is
the same.

## Main definitions

* `Settings.FileReading.bySlices?` — a settings file read by offsets.

## Main results

* `Settings.FileLine.bySlices?_eq` — the cuts of a line are all in range and between characters.
* `Settings.FileReading.bySlices?_eq` — so a settings file can be read whatever it holds.
-/

namespace TapeMachine

namespace Text

/-- A text without its first and its last byte. -/
def inner? (text : List Char) : Option (List Char) :=
  match byteSize text with
  | 0 => none
  | size + 1 => slice? text 1 size

/-- The offset of the first place of a character. -/
def offsetOf? (c : Char) (text : List Char) : Option Nat :=
  if c ∈ text then some (byteSize (text.takeWhile (· != c))) else none

variable {text : List Char} {c : Char}

/-- Two characters of one byte at the ends of a text can be taken off. -/
theorem inner?_of_ends {first last : Char} (hfirst : first.utf8Size = 1) (hlast : last.utf8Size = 1)
    (text : List Char) : inner? (first :: (text ++ [last])) = some text := by
  have hsize : byteSize (first :: (text ++ [last])) = (1 + byteSize text) + 1 := by
    simp only [byteSize_cons, byteSize_append, byteSize_nil, hfirst, hlast]
    omega
  rw [inner?, hsize]
  exact slice?_eq_some_iff.mpr ⟨[first], [last], rfl, by simp [hfirst], by simp [hfirst]⟩

theorem bne_of_notMem (h : c ∉ text) : ∀ a ∈ text, (a != c) = true := by
  intro a ha
  rw [bne_iff_ne]
  rintro rfl
  exact h ha

/-- A text is what stands before the first place of a character, the character, and what stands behind. -/
theorem exists_split_at (h : c ∈ text) : ∃ before after, text = before ++ c :: after ∧
    text.takeWhile (· != c) = before ∧ text.dropWhile (· != c) = c :: after := by
  obtain ⟨before, after, rfl, hbefore⟩ := List.eq_append_cons_of_mem h
  have hother := bne_of_notMem hbefore
  refine ⟨before, after, rfl, ?_, ?_⟩
  · rw [List.takeWhile_append_of_pos hother]
    simp
  · rw [List.dropWhile_append_of_pos hother]
    simp

/-- The parts to either side of a character of one byte can be cut out. -/
theorem slice?_at (hc : c.utf8Size = 1) (before after : List Char) :
    slice? (before ++ c :: after) 0 (byteSize before) = some before ∧
      slice? (before ++ c :: after) (byteSize before + 1) (byteSize (before ++ c :: after)) =
        some after :=
  ⟨slice?_eq_some_iff.mpr ⟨[], c :: after, rfl, rfl, rfl⟩,
    slice?_eq_some_iff.mpr ⟨before ++ [c], [], by simp, by simp [hc], by simp⟩⟩

end Text

namespace Settings

/-- A text without the double quotes that it may stand in, by offsets. -/
def unquoteBySlices? (text : List Char) : Option (List Char) :=
  if text.head? = some '\"' ∧ text.getLast? = some '\"' ∧ 2 ≤ Text.byteSize text then Text.inner? text
  else some text

/-- What a line is, blanks at its ends apart, by offsets. -/
def FileLine.bySlices? (text : List Char) : Option FileLine :=
  if text.head? = some '#' then some .other
  else if text.head? = some '[' ∧ text.getLast? = some ']' then
    (Text.inner? text).map fun name => .header (Text.trim name)
  else
    match Text.offsetOf? '=' text with
    | none => some .other
    | some offset => do
      let key ← Text.slice? text 0 offset
      let after ← Text.slice? text (offset + 1) (Text.byteSize text)
      let value ← unquoteBySlices? (Text.trim (after.takeWhile (· != '#')))
      return .assignment (Text.trim key) value

/-- What the lines of a file give, in order. -/
def FileReading.ofLines (lines : List FileLine) : FileReading :=
  let pairs := assignments false lines
  let cellBits := readSetting pairs .cellBits
  let memorySize := readSetting pairs .memorySize
  ⟨⟨accepted? cellBits, accepted? memorySize⟩,
    refusal .cellBits cellBits ++ refusal .memorySize memorySize⟩

/-- The settings of a file and the values that it refuses, by offsets. -/
def FileReading.bySlices? (text : String) : Option FileReading := do
  let lines ← (Text.splitLines text.toList).mapM fun line => FileLine.bySlices? (Text.trim line)
  return .ofLines lines

variable {text : List Char}

/-- A text with two characters at its ends has something between them, unless the two are one. -/
theorem exists_between {first last : Char} (hhead : text.head? = some first)
    (hlast : text.getLast? = some last) (hne : text ≠ [first]) :
    ∃ inner, text = first :: (inner ++ [last]) := by
  obtain ⟨rest, rfl⟩ := List.head?_eq_some_iff.mp hhead
  have hrest : rest ≠ [] := fun hnil => hne (by rw [hnil])
  rw [List.getLast?_cons_of_ne_nil hrest] at hlast
  obtain ⟨inner, rfl⟩ := List.getLast?_eq_some_iff.mp hlast
  exact ⟨inner, rfl⟩

theorem bracketed?_between (name : List Char) :
    bracketed? ('[' :: (name ++ [']'])) = some name := by
  simp [bracketed?]

theorem bracketed?_eq_none (h : ¬ (text.head? = some '[' ∧ text.getLast? = some ']')) :
    bracketed? text = none := by
  cases hbracketed : bracketed? text with
  | none => rfl
  | some name =>
    unfold bracketed? at hbracketed
    split at hbracketed
    · next rest =>
      split at hbracketed
      · next hlast =>
        have hne : rest ≠ [] := by
          rintro rfl
          cases hlast
        exact absurd ⟨rfl, by rw [List.getLast?_cons_of_ne_nil hne, hlast]⟩ h
      · cases hbracketed
    · cases hbracketed

theorem unquote_between (value : List Char) : unquote ('\"' :: (value ++ ['\"'])) = value := by
  unfold unquote
  simp

theorem unquote_eq_self
    (h : ¬ (text.head? = some '\"' ∧ text.getLast? = some '\"' ∧ 2 ≤ Text.byteSize text)) :
    unquote text = text := by
  unfold unquote
  split
  · next rest =>
    split
    · next hlast =>
      obtain ⟨value, rfl⟩ := List.getLast?_eq_some_iff.mp hlast
      have hends : ('\"' :: (value ++ ['\"'])).getLast? = some '\"' :=
        List.getLast?_eq_some_iff.mpr ⟨'\"' :: value, rfl⟩
      have hquote : '\"'.utf8Size = 1 := rfl
      have hsize : 2 ≤ Text.byteSize ('\"' :: (value ++ ['\"'])) := by
        rw [Text.byteSize_cons, Text.byteSize_append, Text.byteSize_cons]
        omega
      exact absurd ⟨rfl, hends, hsize⟩ h
    · rfl
  · rfl

theorem unquoteBySlices?_eq (text : List Char) : unquoteBySlices? text = some (unquote text) := by
  rw [unquoteBySlices?]
  split
  · next h =>
    obtain ⟨hhead, hlast, hsize⟩ := h
    have hne : text ≠ ['\"'] := by
      rintro rfl
      exact absurd hsize (by decide)
    obtain ⟨value, rfl⟩ := exists_between hhead hlast hne
    rw [unquote_between, Text.inner?_of_ends rfl rfl]
  · next h => rw [unquote_eq_self h]

/-- **The cuts of a line are all in range and between characters**, and they give its parts. -/
theorem FileLine.bySlices?_eq (text : List Char) :
    FileLine.bySlices? text = some (FileLine.ofTrimmed text) := by
  rw [bySlices?, ofTrimmed]
  split
  · rfl
  split
  · next h =>
    obtain ⟨hhead, hlast⟩ := h
    have hne : text ≠ ['['] := by
      rintro rfl
      exact absurd hlast (by decide)
    obtain ⟨name, rfl⟩ := exists_between hhead hlast hne
    rw [bracketed?_between, Text.inner?_of_ends rfl rfl]
    rfl
  · next h =>
    rw [bracketed?_eq_none h, Text.offsetOf?, assignment?]
    by_cases hsign : '=' ∈ text
    · obtain ⟨before, after, rfl, htake, hdrop⟩ := Text.exists_split_at hsign
      obtain ⟨hkey, hvalue⟩ := Text.slice?_at (c := '=') rfl before after
      simp only [if_pos hsign, htake, hdrop, hkey, hvalue, unquoteBySlices?_eq, Option.bind_eq_bind,
        Option.bind_some, Option.pure_def]
    · have hdrop : (text ++ []).dropWhile (· != '=') = [].dropWhile (· != '=') :=
        List.dropWhile_append_of_pos (Text.bne_of_notMem hsign)
      rw [List.append_nil, List.dropWhile_nil] at hdrop
      rw [if_neg hsign, hdrop]

/-- **A settings file can be read by offsets whatever it holds**, and what is read is the same. -/
theorem FileReading.bySlices?_eq (text : String) :
    FileReading.bySlices? text = some (FileReading.ofText text) := by
  have hlines : (Text.splitLines text.toList).mapM (fun line => FileLine.bySlices? (Text.trim line)) =
      some ((Text.splitLines text.toList).map FileLine.ofLine) := by
    simp only [FileLine.bySlices?_eq]
    exact List.mapM_pure
  rw [bySlices?, hlines]
  rfl

end Settings

end TapeMachine
