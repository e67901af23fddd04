import TapeMachine.Proofs.Characters

/-!
# What is written can be read back

A cell reads what a cell of its width has written, whatever stands behind it.  An 8-bit cell gets the
low byte of the value back.  A wider one gets a scalar value back as it was, and the replacement character
in the place of any other.  So a text comes back whole, character by character.

The other way round, what is read can be written again.  An 8-bit cell gives all bytes back.  A wider one
gives them back exactly if they are a text, since it writes nothing but texts.

## Main results

* `CellWidth.decode?_encode_append` — a value that is written is read back.
* `CellWidth.map_value_decodeAll_text` — a text that is written is read back.
* `CellWidth.flatMap_encode_decodeAll_iff` — the inputs that are written as they were read.
* `CellWidth.decode_undoes_encode` — all of it, for one width.
-/

namespace TapeMachine

namespace Utf8

theorem toNat_scalar (value : Nat) :
    (scalar value).toNat = if value.isValidChar then value else replacement.toNat := by
  unfold scalar
  by_cases hvalid : value.isValidChar
  · rw [if_pos hvalid, if_pos hvalid, Char.ofNat, dif_pos hvalid]
    rfl
  · rw [if_neg hvalid, if_neg hvalid]

end Utf8

namespace CellWidth

variable {width : CellWidth}

/-! ### Reading what is written -/

/-- **A value that is written is read back**, whatever stands behind it. -/
theorem decode?_encode_append (width : CellWidth) (value : Nat) (rest : List UInt8) :
    width.decode? (width.encode value ++ rest) =
      some ⟨if width = .bits8 then value % 256 else if value.isValidChar then value else 0xfffd,
        (width.encode value).length⟩ := by
  by_cases hnarrow : width = .bits8
  · subst hnarrow
    have hbyte : (UInt8.ofNat value).toNat = value % 256 := UInt8.toNat_ofNat'
    rw [if_pos rfl, ← hbyte]
    rfl
  · rw [if_neg hnarrow, encode_of_ne_bits8 hnarrow, decode?_utf8EncodeChar_append hnarrow,
      Utf8.toNat_scalar]
    rfl

/-- **A text that is written is read back.** -/
theorem map_value_decodeAll_text (hwide : width ≠ .bits8) (text : List Char) :
    (width.decodeAll (text.flatMap fun c => width.encode c.toNat)).map Decoded.value =
      text.map Char.toNat := by
  have hbytes : (text.flatMap fun c => width.encode c.toNat) =
      text.flatMap String.utf8EncodeChar ++ [] := by
    rw [List.append_nil]
    exact congrArg (text.flatMap ·) (funext (encode_toNat hwide))
  rw [hbytes, decodeAll_text_append hwide, decodeAll_nil, List.append_nil, List.map_map]
  rfl

/-! ### Writing what is read -/

/-- An 8-bit cell writes any bytes as it has read them. -/
theorem flatMap_encode_decodeAll_bits8 (input : List UInt8) :
    (bits8.decodeAll input).flatMap (fun decoded => bits8.encode decoded.value) = input := by
  have hwrite : ∀ byte : UInt8, bits8.encode byte.toNat = [byte] := by
    intro byte
    rw [encode, UInt8.ofNat_toNat]
  rw [decodeAll_bits8, List.flatMap_map]
  simp only [hwrite, List.flatMap_singleton']

/-- Whatever values a wide cell writes, the bytes are a text. -/
theorem wellFormed_flatMap_encode (hwide : width ≠ .bits8) (values : List Decoded) :
    Utf8.WellFormed (values.flatMap fun decoded => width.encode decoded.value) := by
  rw [List.flatMap_def]
  apply Utf8.wellFormed_flatten
  intro piece hpiece
  obtain ⟨decoded, -, rfl⟩ := List.mem_map.mp hpiece
  exact ⟨Utf8.scalar decoded.value, encode_of_ne_bits8 hwide decoded.value⟩

/-- **The inputs that are written as they were read** are all inputs of an 8-bit cell, and the texts
among those of a wide one. -/
theorem flatMap_encode_decodeAll_iff (width : CellWidth) (input : List UInt8) :
    (width.decodeAll input).flatMap (fun decoded => width.encode decoded.value) = input ↔
      width = .bits8 ∨ Utf8.WellFormed input := by
  by_cases hnarrow : width = .bits8
  · subst hnarrow
    exact iff_of_true (flatMap_encode_decodeAll_bits8 input) (.inl rfl)
  constructor
  · intro hinput
    rw [← hinput]
    exact .inr (wellFormed_flatMap_encode hnarrow _)
  · intro h
    obtain ⟨text, rfl⟩ := Utf8.wellFormed_iff.mp (h.resolve_left hnarrow)
    have hread := decodeAll_text_append hnarrow text []
    rw [List.append_nil, decodeAll_nil, List.append_nil] at hread
    rw [hread, List.flatMap_map]
    exact congrArg (text.flatMap ·) (funext (encode_toNat hnarrow))

/-- **Reading undoes writing.**  A value that is written is read back with the bytes that it is written
as, whatever stands behind them: the low byte in an 8-bit cell, and in a wider one the value itself if it
is a scalar value, and U+FFFD if not.  So a text that wide cells write is read back.  An input is written
as it was read always by 8-bit cells, and exactly if it is a text by wider ones. -/
theorem decode_undoes_encode (width : CellWidth) :
    (∀ value rest, width.decode? (width.encode value ++ rest) =
      some ⟨if width = .bits8 then value % 256 else if value.isValidChar then value else 0xfffd,
        (width.encode value).length⟩) ∧
    (width ≠ .bits8 → ∀ text : List Char,
      (width.decodeAll (text.flatMap fun c => width.encode c.toNat)).map Decoded.value =
        text.map Char.toNat) ∧
    ∀ input, (width.decodeAll input).flatMap (fun decoded => width.encode decoded.value) = input ↔
      width = .bits8 ∨ Utf8.WellFormed input :=
  ⟨decode?_encode_append width, map_value_decodeAll_text, flatMap_encode_decodeAll_iff width⟩

/-- A surrogate comes back as the replacement character, with three bytes. -/
example : CellWidth.bits32.decode? (CellWidth.bits32.encode 0xd800 ++ [0x41]) = some ⟨0xfffd, 3⟩ := by
  decide

end CellWidth

end TapeMachine
