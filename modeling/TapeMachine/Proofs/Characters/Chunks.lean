import Mathlib.Logic.ExistsUnique
import TapeMachine.Proofs.Characters.Malformed

/-!
# Lossy reading

Bytes that are not all text can be cut into chunks, each with as much text as there is at its front and
then the bytes that are skipped behind that.  The whole input is cut before anything is read: a text may
be of any length.  A wide cell does otherwise and looks at four bytes for each of its values.  These may
end in the middle of a character, and still nothing is lost.  The values are the characters of the chunks,
with one replacement character for each part that is skipped.

## Main definitions

* `Utf8.Chunked` — an input cut into chunks.
* `Utf8.lossy` — the characters that the chunks are read as.
* `Utf8.Chunk.front` — the first value of a chunk.

## Main results

* `Utf8.existsUnique_chunked` — there is one way to cut an input into chunks.
* `CellWidth.map_value_decodeAll` — the values of an input are those of its chunks.
* `CellWidth.decode?_eq_front` — a wide cell reads the first value of four bytes cut into chunks.
* `CellWidth.decodeAll_lossy` — looking at four bytes at a time loses nothing.
-/

namespace TapeMachine

namespace Utf8

/-- A part of an input. -/
structure Chunk where
  /-- The text at its front. -/
  valid : List Char
  /-- The bytes behind the text, which are no character. -/
  invalid : List UInt8
  deriving DecidableEq, Repr

/-- The lengths of the texts that an input starts with. -/
def wellFormedLengths (bytes : List UInt8) : Set Nat :=
  {k | k ≤ bytes.length ∧ WellFormed (bytes.take k)}

/-- `Chunked bytes chunks` says that `bytes` are cut into `chunks`. -/
inductive Chunked : List UInt8 → List Chunk → Prop
  /-- There is nothing to cut. -/
  | nil : Chunked [] []
  /-- The first chunk has the longest text at the front.  Behind it the input ends, or what is no
  character is skipped. -/
  | cons {bytes invalid rest : List UInt8} {valid : List Char} {chunks : List Chunk}
      (hne : bytes ≠ [])
      (hbytes : bytes = valid.flatMap String.utf8EncodeChar ++ (invalid ++ rest))
      (hvalid : IsGreatest (wellFormedLengths bytes) (valid.flatMap String.utf8EncodeChar).length)
      (hinvalid : invalid ++ rest = [] ∨ Broken (invalid ++ rest) invalid.length)
      (hrest : Chunked rest chunks) : Chunked bytes (⟨valid, invalid⟩ :: chunks)

/-- The characters that a chunk is read as, one of them for the bytes that are none. -/
def Chunk.text (chunk : Chunk) : List Char :=
  chunk.valid ++ if chunk.invalid = [] then [] else [replacement]

/-- The characters that an input is read as, which is cut into chunks. -/
def lossy (chunks : List Chunk) : List Char :=
  chunks.flatMap Chunk.text

@[simp] theorem lossy_cons (chunk : Chunk) (chunks : List Chunk) :
    lossy (chunk :: chunks) = chunk.text ++ lossy chunks := rfl

/-- The first value of a chunk. -/
def Chunk.front (chunk : Chunk) : Decoded :=
  match chunk.valid with
  | c :: _ => ⟨c.toNat, (String.utf8EncodeChar c).length⟩
  | [] => ⟨replacement.toNat, chunk.invalid.length⟩

variable {bytes rest : List UInt8} {text : List Char}

/-! ### The longest text at the front -/

/-- **A text at the front is the longest one exactly when no character follows it.** -/
theorem isGreatest_wellFormedLengths_iff :
    IsGreatest (wellFormedLengths (text.flatMap String.utf8EncodeChar ++ rest))
      (text.flatMap String.utf8EncodeChar).length ↔
    ∀ c, ¬ String.utf8EncodeChar c <+: rest := by
  generalize hfront : text.flatMap String.utf8EncodeChar = front
  constructor
  · rintro ⟨-, hgreatest⟩ c ⟨rest, rfl⟩
    have hlonger : (front ++ String.utf8EncodeChar c).length ∈
        wellFormedLengths (front ++ (String.utf8EncodeChar c ++ rest)) := by
      rw [← List.append_assoc]
      refine ⟨?_, ?_⟩
      · exact (List.prefix_append _ rest).length_le
      · rw [List.take_left, ← hfront]
        exact wellFormed_iff.mpr ⟨text ++ [c], by simp⟩
    have hle := hgreatest hlonger
    have hpos := utf8EncodeChar_length_pos c
    rw [List.length_append] at hle
    omega
  · intro hnone
    refine ⟨⟨?_, ?_⟩, fun k hk => ?_⟩
    · rw [List.length_append]
      exact Nat.le_add_right _ _
    · rw [List.take_left]
      exact wellFormed_iff.mpr ⟨text, hfront.symm⟩
    · -- a longer text would have a character behind this one
      by_contra hlonger
      obtain ⟨hle, hwell⟩ := hk
      obtain ⟨n, rfl⟩ := Nat.exists_eq_add_of_le (Nat.le_of_not_le hlonger)
      rw [List.take_length_add_append, ← hfront, wellFormed_text_append_iff] at hwell
      have hne : rest.take n ≠ [] := by
        intro hnil
        rw [List.take_eq_nil_iff] at hnil
        rw [List.length_append] at hle
        rcases hnil with rfl | rfl
        · omega
        · rw [List.length_nil] at hle
          omega
      obtain ⟨c, hc⟩ := hwell.exists_isPrefix hne
      exact hnone c (hc.trans (List.take_prefix n rest))

/-- Every input has a longest text at its front. -/
theorem exists_text_append (bytes : List UInt8) :
    ∃ (text : List Char) (rest : List UInt8), bytes = text.flatMap String.utf8EncodeChar ++ rest ∧
      ∀ c, ¬ String.utf8EncodeChar c <+: rest := by
  induction hlength : bytes.length using Nat.strongRecOn generalizing bytes with
  | ind n ih =>
    by_cases hfront : ∃ c, String.utf8EncodeChar c <+: bytes
    · obtain ⟨c, behind, rfl⟩ := hfront
      have hpos := utf8EncodeChar_length_pos c
      rw [List.length_append] at hlength
      obtain ⟨text, rest, rfl, hnone⟩ := ih behind.length (by omega) behind rfl
      refine ⟨c :: text, rest, ?_, hnone⟩
      rw [List.flatMap_cons, List.append_assoc]
    · exact ⟨[], bytes, rfl, not_exists.mp hfront⟩

/-! ### One way to cut -/

theorem exists_chunked (bytes : List UInt8) : ∃ chunks, Chunked bytes chunks := by
  induction hlength : bytes.length using Nat.strongRecOn generalizing bytes with
  | ind n ih =>
    obtain ⟨text, rest, rfl, hnone⟩ := exists_text_append bytes
    have hvalid : IsGreatest (wellFormedLengths (text.flatMap String.utf8EncodeChar ++ rest))
        (text.flatMap String.utf8EncodeChar).length := isGreatest_wellFormedLengths_iff.mpr hnone
    by_cases hrest : rest = []
    · subst hrest
      by_cases htext : text.flatMap String.utf8EncodeChar ++ [] = []
      · rw [htext]
        exact ⟨[], .nil⟩
      · exact ⟨[⟨text, []⟩], .cons htext rfl hvalid (.inl rfl) .nil⟩
    · obtain ⟨k, hfirst, hbroken⟩ := exists_first?_of_none hrest hnone
      have hle : k ≤ rest.length := used_le_of_first? hfirst
      have hpos := hbroken.pos
      rw [List.length_append] at hlength
      obtain ⟨chunks, hchunks⟩ := ih (rest.drop k).length (by rw [List.length_drop]; omega) _ rfl
      have hsplit := List.take_append_drop k rest
      refine ⟨⟨text, rest.take k⟩ :: chunks, .cons ?_ ?_ hvalid (.inr ?_) hchunks⟩
      · exact List.append_ne_nil_of_right_ne_nil _ hrest
      · rw [hsplit]
      · rw [hsplit, List.length_take_of_le hle]
        exact hbroken

/-- What is skipped is settled. -/
theorem eq_and_eq_of_skipped {invalid invalid' rest' : List UInt8}
    (hbehind : invalid ++ rest = invalid' ++ rest')
    (h : invalid ++ rest = [] ∨ Broken (invalid ++ rest) invalid.length)
    (h' : invalid' ++ rest' = [] ∨ Broken (invalid' ++ rest') invalid'.length) :
    invalid = invalid' ∧ rest = rest' := by
  by_cases hnil : invalid ++ rest = []
  · rw [hnil] at hbehind
    obtain ⟨rfl, rfl⟩ := List.append_eq_nil_iff.mp hnil
    obtain ⟨rfl, rfl⟩ := List.append_eq_nil_iff.mp hbehind.symm
    exact ⟨rfl, rfl⟩
  · have hbroken := h.resolve_left hnil
    rw [hbehind] at hnil hbroken
    exact List.append_inj hbehind (hbroken.unique (h'.resolve_left hnil))

theorem Chunked.unique {chunks chunks' : List Chunk} (h : Chunked bytes chunks)
    (h' : Chunked bytes chunks') : chunks = chunks' := by
  induction h generalizing chunks' with
  | nil =>
    cases h' with
    | nil => rfl
    | cons hne' => exact absurd rfl hne'
  | cons hne hbytes hvalid hinvalid hrest ih =>
    cases h' with
    | nil => exact absurd rfl hne
    | cons hne' hbytes' hvalid' hinvalid' hrest' =>
      -- both have the longest text, and skip what is skipped behind it
      rw [hbytes] at hbytes'
      obtain ⟨hfront, hbehind⟩ := List.append_inj hbytes' (hvalid.unique hvalid')
      obtain ⟨rfl, rfl⟩ := eq_and_eq_of_skipped hbehind hinvalid hinvalid'
      rw [flatMap_utf8EncodeChar_injective hfront, ih hrest']

/-- **There is one way to cut an input into chunks.** -/
theorem existsUnique_chunked (bytes : List UInt8) : ∃! chunks, Chunked bytes chunks := by
  obtain ⟨chunks, hchunks⟩ := exists_chunked bytes
  exact ⟨chunks, hchunks, fun chunks' hchunks' => hchunks'.unique hchunks⟩

end Utf8

namespace CellWidth

variable {width : CellWidth} {input : List UInt8} {chunks : List Utf8.Chunk}

/-! ### The values of the chunks -/

/-- **The values of an input are those of its chunks.** -/
theorem map_value_decodeAll (hwide : width ≠ .bits8) (h : Utf8.Chunked input chunks) :
    (width.decodeAll input).map Decoded.value = (Utf8.lossy chunks).map Char.toNat := by
  induction h with
  | nil => rfl
  | @cons bytes invalid rest valid chunks hne hbytes hvalid hinvalid hrest ih =>
    rw [hbytes] at hvalid
    have hnone := Utf8.isGreatest_wellFormedLengths_iff.mp hvalid
    have htext : (valid.map fun c => (⟨c.toNat, (String.utf8EncodeChar c).length⟩ : Decoded)).map
        Decoded.value = valid.map Char.toNat := by
      rw [List.map_map]
      rfl
    have hskipped : (width.decodeAll (invalid ++ rest)).map Decoded.value =
        (if invalid = [] then [] else [Utf8.replacement]).map Char.toNat ++
          (width.decodeAll rest).map Decoded.value := by
      rcases hinvalid with hnil | hbroken
      · obtain ⟨rfl, rfl⟩ := List.append_eq_nil_iff.mp hnil
        rfl
      · rw [decodeAll_of_broken hwide hnone hbroken, if_neg (List.ne_nil_of_length_pos hbroken.pos)]
        rfl
    calc (width.decodeAll bytes).map Decoded.value
        = valid.map Char.toNat ++ (width.decodeAll (invalid ++ rest)).map Decoded.value := by
          rw [hbytes, decodeAll_text_append hwide, List.map_append, htext]
      _ = (Utf8.Chunk.text ⟨valid, invalid⟩).map Char.toNat ++
            (width.decodeAll rest).map Decoded.value := by
          rw [hskipped, ← List.append_assoc, ← List.map_append, Utf8.Chunk.text]
      _ = (Utf8.lossy (⟨valid, invalid⟩ :: chunks)).map Char.toNat := by
          rw [ih, Utf8.lossy_cons, List.map_append]

/-- **A wide cell reads the first value of four bytes cut into chunks.** -/
theorem decode?_eq_front (hwide : width ≠ .bits8) (h : Utf8.Chunked (input.take 4) chunks) :
    width.decode? input = chunks.head?.map Utf8.Chunk.front := by
  rw [decode?_of_ne_bits8 hwide]
  generalize input.take 4 = bytes at h
  cases h with
  | nil => rfl
  | @cons _ invalid rest valid chunks hne hbytes hvalid hinvalid hrest =>
    cases valid with
    | cons c valid =>
      rw [hbytes, List.flatMap_cons, List.append_assoc, Utf8.first?_utf8EncodeChar_append]
      rfl
    | nil =>
      rw [hbytes] at hvalid hne
      have hnone := Utf8.isGreatest_wellFormedLengths_iff.mp hvalid
      obtain ⟨k, hfirst, hk⟩ := Utf8.exists_first?_of_none hne hnone
      rw [hbytes]
      rw [hk.unique (hinvalid.resolve_left hne)] at hfirst
      exact hfirst

/-- No value covers more than four bytes. -/
theorem used_le_four (hwide : width ≠ .bits8) {decoded : Decoded}
    (h : width.decode? input = some decoded) : decoded.used ≤ 4 := by
  rw [decode?_of_ne_bits8 hwide] at h
  have hused := Utf8.used_le_of_first? h
  rw [List.length_take] at hused
  omega

/-- **Looking at four bytes at a time loses nothing.**  Reading until there is no value comes to an end
on every input.  Each value covers one to four bytes, which are there, and starts where the one before
it ends; together they cover the whole input.  The values are the characters of the whole input cut into
chunks, with a replacement character for each part that is skipped.  What is read at each place is the
first value of the next four bytes cut into chunks. -/
theorem decodeAll_lossy (hwide : width ≠ .bits8) (input : List UInt8) :
    (∀ values, width.Reads input values ↔ values = width.decodeAll input) ∧
    (∀ before decoded after, width.decodeAll input = before ++ decoded :: after →
      ∃ rest, rest = input.drop (before.map Decoded.used).sum ∧
        width.decode? rest = some decoded ∧ 1 ≤ decoded.used ∧ decoded.used ≤ 4 ∧
        decoded.used ≤ rest.length) ∧
    ((width.decodeAll input).map Decoded.used).sum = input.length ∧
    (∃! chunks, Utf8.Chunked input chunks) ∧
    (∀ chunks, Utf8.Chunked input chunks →
      (width.decodeAll input).map Decoded.value = (Utf8.lossy chunks).map Char.toNat) ∧
    ∀ chunks, Utf8.Chunked (input.take 4) chunks →
      width.decode? input = chunks.head?.map Utf8.Chunk.front := by
  have hreads := reads_decodeAll width input
  refine ⟨fun values => reads_iff, ?_, hreads.sum_used, Utf8.existsUnique_chunked input, ?_, ?_⟩
  · intro before decoded after hvalues
    rw [hvalues] at hreads
    have hdecode := hreads.decode?_drop
    exact ⟨_, rfl, hdecode, used_pos_of_decode? hdecode, used_le_four hwide hdecode,
      used_le_of_decode? hdecode⟩
  · intro chunks hchunks
    exact map_value_decodeAll hwide hchunks
  · intro chunks hchunks
    exact decode?_eq_front hwide hchunks

/-- Characters of one and of four bytes, half a character, a surrogate, and a start at the end. -/
theorem decodeAll_lossy_of_mixed_bytes :
    CellWidth.bits16 ≠ .bits8 ∧ ∃ chunks,
      Utf8.Chunked [0x41, 0xe2, 0x82, 0xf0, 0x9f, 0x98, 0x80, 0xed, 0xa0, 0xc3] chunks ∧
      (Utf8.lossy chunks).map Char.toNat = [0x41, 0xfffd, 0x1f600, 0xfffd, 0xfffd, 0xfffd] := by
  have hwide : CellWidth.bits16 ≠ .bits8 := by decide
  obtain ⟨-, -, -, ⟨chunks, hchunks, -⟩, hvalues, -⟩ :=
    decodeAll_lossy hwide [0x41, 0xe2, 0x82, 0xf0, 0x9f, 0x98, 0x80, 0xed, 0xa0, 0xc3]
  refine ⟨hwide, chunks, hchunks, ?_⟩
  rw [← hvalues chunks hchunks]
  decide

end CellWidth

end TapeMachine
