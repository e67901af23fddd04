import TapeMachine.Proofs.Decoding

/-!
# Characters in an input

A text is written in UTF-8 as the bytes of its characters, one character after the other.  At the front
of the bytes of a character the reading finds this character and covers its bytes, whatever stands
behind them.  So the bytes of a text can be read without a look at what follows the text, and every
text is written in one way only.

## Main definitions

* `Utf8.WellFormed` — bytes that are those of some text.
* `Utf8.Spelled` — the bytes that spell a value, by their number.
* `CellWidth.Whole` — bytes that no value of a width sticks out of.

## Main results

* `Utf8.spelled_utf8EncodeChar`, `Utf8.Spelled.exists_char` — what is spelled are the characters.
* `Utf8.first?_utf8EncodeChar_append` — the bytes of a character are read as this character.
* `Utf8.utf8EncodeChar_injective` — different characters have different bytes.
* `CellWidth.decodeAll_text_append` — a text is read character by character.
* `Utf8.flatMap_utf8EncodeChar_injective` — different texts have different bytes.
* `CellWidth.Whole.exists_decode?_append` — a reading in whole bytes does not depend on what follows.
-/

namespace TapeMachine

namespace Utf8

/-- The bytes are those of some text. -/
def WellFormed (bytes : List UInt8) : Prop :=
  bytes.toByteArray.IsValidUTF8

theorem wellFormed_iff {bytes : List UInt8} :
    WellFormed bytes ↔ ∃ text : List Char, bytes = text.flatMap String.utf8EncodeChar := by
  constructor
  · rintro ⟨text, htext⟩
    have hdata := congrArg ByteArray.data htext
    rw [List.utf8Encode, List.data_toByteArray, List.data_toByteArray] at hdata
    exact ⟨text, congrArg Array.toList hdata⟩
  · rintro ⟨text, rfl⟩
    exact ⟨text, rfl⟩

/-- Bytes that are cut into characters are those of a text. -/
theorem wellFormed_flatten {pieces : List (List UInt8)}
    (h : ∀ piece ∈ pieces, ∃ c : Char, piece = String.utf8EncodeChar c) :
    WellFormed pieces.flatten := by
  rw [wellFormed_iff]
  induction pieces with
  | nil => exact ⟨[], rfl⟩
  | cons piece pieces ih =>
    obtain ⟨c, rfl⟩ := h piece List.mem_cons_self
    obtain ⟨text, htext⟩ := ih fun piece hpiece => h piece (List.mem_cons_of_mem _ hpiece)
    exact ⟨c :: text, by rw [List.flatten_cons, htext, List.flatMap_cons]⟩

theorem wellFormed_utf8EncodeChar_append_iff {c : Char} {rest : List UInt8} :
    WellFormed (String.utf8EncodeChar c ++ rest) ↔ WellFormed rest := by
  unfold WellFormed
  rw [List.toByteArray_append, ← List.utf8Encode_singleton]
  exact ByteArray.isValidUTF8_utf8Encode_singleton_append_iff

/-- A text in front makes no difference to whether bytes are a text. -/
theorem wellFormed_text_append_iff {text : List Char} {rest : List UInt8} :
    WellFormed (text.flatMap String.utf8EncodeChar ++ rest) ↔ WellFormed rest := by
  induction text with
  | nil => rw [List.flatMap_nil, List.nil_append]
  | cons c text ih =>
    rw [List.flatMap_cons, List.append_assoc, wellFormed_utf8EncodeChar_append_iff, ih]

/-- A text that is not empty starts with a character. -/
theorem WellFormed.exists_isPrefix {bytes : List UInt8} (h : WellFormed bytes)
    (hne : bytes ≠ []) : ∃ c, String.utf8EncodeChar c <+: bytes := by
  obtain ⟨text, rfl⟩ := wellFormed_iff.mp h
  cases text with
  | nil => exact absurd rfl hne
  | cons c text =>
    rw [List.flatMap_cons]
    exact ⟨c, List.prefix_append _ _⟩

theorem utf8EncodeChar_length_pos (c : Char) : 0 < (String.utf8EncodeChar c).length := by
  rw [String.length_utf8EncodeChar]
  exact c.utf8Size_pos

/-! ### What the first byte announces -/

theorem lead?_one {x : Nat} (hx : x < 128) : lead? x = some ⟨x, 0, 0x80, 0xbf⟩ := by
  rw [lead?, if_pos (by omega)]

theorem lead?_two : ∀ x < 32, 2 ≤ x → lead? (x + 0xc0) = some ⟨x, 1, 0x80, 0xbf⟩ := by
  decide

theorem lead?_three : ∀ x < 16, lead? (x + 0xe0) =
    some ⟨x, 2, if x = 0 then 0xa0 else 0x80, if x = 0xd then 0x9f else 0xbf⟩ := by
  decide

theorem lead?_four : ∀ x < 5, lead? (x + 0xf0) =
    some ⟨x, 3, if x = 0 then 0x90 else 0x80, if x = 4 then 0x8f else 0xbf⟩ := by
  decide

theorem first?_of_lead {byte payload owed low high : Nat} (hbyte : byte < 256)
    (h : lead? byte = some ⟨payload, owed, low, high⟩) (rest : List UInt8) :
    first? (UInt8.ofNat byte :: rest) = some (follow owed low high ⟨payload, 1⟩ rest) := by
  have htoNat : (UInt8.ofNat byte).toNat = byte := by
    rw [UInt8.toNat_ofNat', Nat.mod_eq_of_lt hbyte]
  rw [first?, first, htoNat, h]

/-- A byte that may follow adds its six bits. -/
theorem follow_cons {x low high : Nat} (hx : x < 64) (hlow : low ≤ x + 0x80)
    (hhigh : x + 0x80 ≤ high) (owed : Nat) (sofar : Decoded) (rest : List UInt8) :
    follow (owed + 1) low high sofar (UInt8.ofNat (x + 0x80) :: rest) =
      follow owed 0x80 0xbf ⟨64 * sofar.value + x, sofar.used + 1⟩ rest := by
  have htoNat : (UInt8.ofNat (x + 0x80)).toNat = x + 0x80 := by
    rw [UInt8.toNat_ofNat', Nat.mod_eq_of_lt (by omega)]
  have hbits : (x + 0x80) % 64 = x := by omega
  rw [follow, htoNat, if_pos ⟨hlow, hhigh⟩, hbits]

/-! ### Characters of one to four bytes -/

theorem first?_one {x : Nat} (hx : x < 128) (rest : List UInt8) :
    first? (UInt8.ofNat x :: rest) = some ⟨x, 1⟩ := by
  rw [first?_of_lead (by omega) (lead?_one hx), follow]

theorem first?_two {x y : Nat} (hx : x < 32) (hy : y < 64) (hlow : 2 ≤ x) (rest : List UInt8) :
    first? (UInt8.ofNat (x + 0xc0) :: UInt8.ofNat (y + 0x80) :: rest) = some ⟨64 * x + y, 2⟩ := by
  rw [first?_of_lead (by omega) (lead?_two x hx hlow),
    follow_cons hy (by omega) (by omega), follow]

theorem first?_three {x y z : Nat} (hx : x < 16) (hy : y < 64) (hz : z < 64) (hlow : x = 0 → 32 ≤ y)
    (hhigh : x = 0xd → y < 32) (rest : List UInt8) :
    first? (UInt8.ofNat (x + 0xe0) :: UInt8.ofNat (y + 0x80) :: UInt8.ofNat (z + 0x80) :: rest) =
      some ⟨64 * (64 * x + y) + z, 3⟩ := by
  rw [first?_of_lead (by omega) (lead?_three x hx),
    follow_cons hy (by split <;> omega) (by split <;> omega),
    follow_cons hz (by omega) (by omega), follow]

theorem first?_four {x y z w : Nat} (hx : x < 5) (hy : y < 64) (hz : z < 64) (hw : w < 64)
    (hlow : x = 0 → 16 ≤ y) (hhigh : x = 4 → y < 16) (rest : List UInt8) :
    first? (UInt8.ofNat (x + 0xf0) :: UInt8.ofNat (y + 0x80) :: UInt8.ofNat (z + 0x80) ::
      UInt8.ofNat (w + 0x80) :: rest) = some ⟨64 * (64 * (64 * x + y) + z) + w, 4⟩ := by
  rw [first?_of_lead (by omega) (lead?_four x hx),
    follow_cons hy (by split <;> omega) (by split <;> omega),
    follow_cons hz (by omega) (by omega), follow_cons hw (by omega) (by omega), follow]

/-! ### How characters are spelled -/

/-- The bytes that spell a value, by their number.  The first byte announces how many there are and
has the leading bits; each of the others has six more. -/
inductive Spelled : Nat → List UInt8 → Prop
  /-- A value below 128 is its own byte. -/
  | one {x : Nat} (hx : x < 128) : Spelled x [UInt8.ofNat x]
  /-- Two bytes do not spell what fits into one. -/
  | two {x y : Nat} (hx : x < 32) (hy : y < 64) (hlow : 2 ≤ x) :
      Spelled (64 * x + y) [UInt8.ofNat (x + 0xc0), UInt8.ofNat (y + 0x80)]
  /-- Three bytes spell neither what fits into two nor a surrogate. -/
  | three {x y z : Nat} (hx : x < 16) (hy : y < 64) (hz : z < 64) (hlow : x = 0 → 32 ≤ y)
      (hhigh : x = 0xd → y < 32) :
      Spelled (64 * (64 * x + y) + z)
        [UInt8.ofNat (x + 0xe0), UInt8.ofNat (y + 0x80), UInt8.ofNat (z + 0x80)]
  /-- Four bytes spell neither what fits into three nor a value above U+10FFFF. -/
  | four {x y z w : Nat} (hx : x < 5) (hy : y < 64) (hz : z < 64) (hw : w < 64)
      (hlow : x = 0 → 16 ≤ y) (hhigh : x = 4 → y < 16) :
      Spelled (64 * (64 * (64 * x + y) + z) + w)
        [UInt8.ofNat (x + 0xf0), UInt8.ofNat (y + 0x80), UInt8.ofNat (z + 0x80),
          UInt8.ofNat (w + 0x80)]

/-- A character is spelled by its bytes. -/
theorem spelled_utf8EncodeChar (c : Char) : Spelled c.toNat (String.utf8EncodeChar c) := by
  have hvalid : c.val.toNat < 0xd800 ∨ 0xdfff < c.val.toNat ∧ c.val.toNat < 0x110000 := c.valid
  change Spelled c.val.toNat _
  unfold String.utf8EncodeChar
  generalize c.val.toNat = v at hvalid ⊢
  dsimp only
  -- one case for each length: the value is put together from the pieces that the bytes are made of
  split
  · exact .one (by omega)
  · split
    · have hvalue : 64 * (v / 64 % 32) + v % 64 = v := by omega
      have htwo := Spelled.two (x := v / 64 % 32) (y := v % 64) (by omega) (by omega) (by omega)
      rwa [hvalue] at htwo
    · split
      · have hvalue : 64 * (64 * (v / 4096 % 16) + v / 64 % 64) + v % 64 = v := by omega
        have hthree := Spelled.three (x := v / 4096 % 16) (y := v / 64 % 64) (z := v % 64)
          (by omega) (by omega) (by omega) (by omega) (by omega)
        rwa [hvalue] at hthree
      · have hvalue :
            64 * (64 * (64 * (v / 262144 % 8) + v / 4096 % 64) + v / 64 % 64) + v % 64 = v := by
          omega
        have hfour := Spelled.four (x := v / 262144 % 8) (y := v / 4096 % 64) (z := v / 64 % 64)
          (w := v % 64) (by omega) (by omega) (by omega) (by omega) (by omega) (by omega)
        rwa [hvalue] at hfour

/-- What is spelled is a scalar value: neither a surrogate nor above U+10FFFF. -/
theorem Spelled.isValidChar {v : Nat} {bytes : List UInt8} (h : Spelled v bytes) :
    v.isValidChar := by
  unfold Nat.isValidChar
  cases h <;> omega

/-- Whatever is spelled is a character. -/
theorem Spelled.exists_char {v : Nat} {bytes : List UInt8} (h : Spelled v bytes) :
    ∃ c : Char, String.utf8EncodeChar c = bytes := by
  refine ⟨Char.ofNatAux v h.isValidChar, ?_⟩
  have hval : (Char.ofNatAux v h.isValidChar).val.toNat = v := rfl
  unfold String.utf8EncodeChar
  rw [hval]
  cases h with
  | one hx => rw [if_pos (by omega)]
  | @two x y hx hy hlow =>
    have hx' : (64 * x + y) / 64 % 32 = x := by omega
    have hy' : (64 * x + y) % 64 = y := by omega
    rw [if_neg (by omega), if_pos (by omega), hx', hy']
  | @three x y z hx hy hz hlow hhigh =>
    have hx' : (64 * (64 * x + y) + z) / 4096 % 16 = x := by omega
    have hy' : (64 * (64 * x + y) + z) / 64 % 64 = y := by omega
    have hz' : (64 * (64 * x + y) + z) % 64 = z := by omega
    rw [if_neg (by omega), if_neg (by omega), if_pos (by omega), hx', hy', hz']
  | @four x y z w hx hy hz hw hlow hhigh =>
    have hx' : (64 * (64 * (64 * x + y) + z) + w) / 262144 % 8 = x := by omega
    have hy' : (64 * (64 * (64 * x + y) + z) + w) / 4096 % 64 = y := by omega
    have hz' : (64 * (64 * (64 * x + y) + z) + w) / 64 % 64 = z := by omega
    have hw' : (64 * (64 * (64 * x + y) + z) + w) % 64 = w := by omega
    rw [if_neg (by omega), if_neg (by omega), if_neg (by omega), hx', hy', hz', hw']

theorem Spelled.first?_append {v : Nat} {bytes : List UInt8} (h : Spelled v bytes)
    (rest : List UInt8) : first? (bytes ++ rest) = some ⟨v, bytes.length⟩ := by
  cases h with
  | one hx => exact first?_one hx rest
  | two hx hy hlow => exact first?_two hx hy hlow rest
  | three hx hy hz hlow hhigh => exact first?_three hx hy hz hlow hhigh rest
  | four hx hy hz hw hlow hhigh => exact first?_four hx hy hz hw hlow hhigh rest

/-- **The bytes of a character are read as this character**, whatever stands behind them. -/
theorem first?_utf8EncodeChar_append (c : Char) (rest : List UInt8) :
    first? (String.utf8EncodeChar c ++ rest) =
      some ⟨c.toNat, (String.utf8EncodeChar c).length⟩ :=
  (spelled_utf8EncodeChar c).first?_append rest

/-- Of all characters, an input starts with one at most. -/
theorem eq_of_isPrefix {c c' : Char} {bytes : List UInt8} (h : String.utf8EncodeChar c <+: bytes)
    (h' : String.utf8EncodeChar c' <+: bytes) : c = c' := by
  obtain ⟨rest, rfl⟩ := h
  obtain ⟨rest', hrest'⟩ := h'
  have hread := first?_utf8EncodeChar_append c' rest'
  rw [hrest', first?_utf8EncodeChar_append, Option.some.injEq, Decoded.mk.injEq] at hread
  exact Char.toNat_inj.mp hread.1

/-- **Different characters have different bytes.** -/
theorem utf8EncodeChar_injective : Function.Injective String.utf8EncodeChar := by
  intro c c' h
  exact eq_of_isPrefix (List.prefix_refl _) (h ▸ List.prefix_refl _)

@[simp] theorem scalar_toNat (c : Char) : scalar c.toNat = c := by
  have hvalid : c.toNat.isValidChar := c.valid
  rw [scalar, if_pos hvalid, Char.ofNat_toNat]

end Utf8

namespace CellWidth

theorem decode?_of_ne_bits8 {width : CellWidth} (hwide : width ≠ .bits8) (input : List UInt8) :
    width.decode? input = Utf8.first? (input.take 4) := by
  cases width with
  | bits8 => exact absurd rfl hwide
  | bits16 => rfl
  | bits32 => rfl

theorem encode_of_ne_bits8 {width : CellWidth} (hwide : width ≠ .bits8) (value : Nat) :
    width.encode value = String.utf8EncodeChar (Utf8.scalar value) := by
  cases width with
  | bits8 => exact absurd rfl hwide
  | bits16 => rfl
  | bits32 => rfl

theorem encode_toNat {width : CellWidth} (hwide : width ≠ .bits8) (c : Char) :
    width.encode c.toNat = String.utf8EncodeChar c := by
  rw [encode_of_ne_bits8 hwide, Utf8.scalar_toNat]

/-- A wide cell reads a character, of which no more than four bytes need be looked at. -/
theorem decode?_utf8EncodeChar_append {width : CellWidth} (hwide : width ≠ .bits8) (c : Char)
    (rest : List UInt8) : width.decode? (String.utf8EncodeChar c ++ rest) =
      some ⟨c.toNat, (String.utf8EncodeChar c).length⟩ := by
  have hlength : (String.utf8EncodeChar c).length ≤ 4 := by
    rw [String.length_utf8EncodeChar]
    exact c.utf8Size_le_four
  rw [decode?_of_ne_bits8 hwide, List.take_append, List.take_of_length_le hlength,
    Utf8.first?_utf8EncodeChar_append]

/-- **The characters of a text are read one after the other.** -/
theorem decodeAll_text_append {width : CellWidth} (hwide : width ≠ .bits8) (text : List Char)
    (rest : List UInt8) : width.decodeAll (text.flatMap String.utf8EncodeChar ++ rest) =
      text.map (fun c => ⟨c.toNat, (String.utf8EncodeChar c).length⟩) ++ width.decodeAll rest := by
  induction text with
  | nil => rfl
  | cons c text ih =>
    rw [List.flatMap_cons, List.append_assoc,
      decodeAll_eq_cons (decode?_utf8EncodeChar_append hwide c _), List.drop_left, ih]
    rfl

/-- No value that starts in the bytes ends behind them: a byte is a value for narrow cells, and a
character is one for wide cells. -/
def Whole (width : CellWidth) (bytes : List UInt8) : Prop :=
  width = .bits8 ∨ Utf8.WellFormed bytes

/-- **A reading in whole bytes does not depend on what follows**, and what it leaves is whole again. -/
theorem Whole.exists_decode?_append {width : CellWidth} {bytes : List UInt8} (h : width.Whole bytes)
    (hne : bytes ≠ []) : ∃ decoded, (∀ rest, width.decode? (bytes ++ rest) = some decoded) ∧
      decoded.used ≤ bytes.length ∧ width.Whole (bytes.drop decoded.used) := by
  by_cases hnarrow : width = .bits8
  · obtain ⟨byte, bytes, rfl⟩ := List.exists_cons_of_ne_nil hne
    subst hnarrow
    exact ⟨⟨byte.toNat, 1⟩, fun rest => rfl, Nat.le_add_left 1 _, .inl rfl⟩
  · obtain ⟨text, rfl⟩ := Utf8.wellFormed_iff.mp (h.resolve_left hnarrow)
    cases text with
    | nil => exact absurd rfl hne
    | cons c text =>
      rw [List.flatMap_cons]
      refine ⟨⟨c.toNat, (String.utf8EncodeChar c).length⟩, fun rest => ?_, ?_, .inr ?_⟩
      · rw [List.append_assoc, decode?_utf8EncodeChar_append hnarrow]
      · rw [List.length_append]
        exact Nat.le_add_right _ _
      · rw [List.drop_left]
        exact Utf8.wellFormed_iff.mpr ⟨text, rfl⟩

end CellWidth

namespace Utf8

/-- **A text is spelled in one way only.** -/
theorem flatMap_utf8EncodeChar_injective :
    Function.Injective (List.flatMap String.utf8EncodeChar) := by
  intro text text' h
  have hwide : CellWidth.bits32 ≠ .bits8 := by decide
  have hread := CellWidth.decodeAll_text_append hwide text []
  rw [h, CellWidth.decodeAll_text_append hwide, List.append_left_inj] at hread
  refine (List.map_inj_right fun c c' hc => ?_).mp hread.symm
  exact Char.toNat_inj.mp (Decoded.mk.inj hc).1

end Utf8

end TapeMachine
