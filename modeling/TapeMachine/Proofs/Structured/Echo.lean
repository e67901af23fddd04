import Mathlib.Data.List.Basic
import Mathlib.Data.List.TakeWhile
import TapeMachine.Proofs.Characters.Chunks
import TapeMachine.Proofs.Characters.RoundTrip
import TapeMachine.Proofs.Structured.Counting

/-!
# Copying the input

The program `,[.[-],]` reads a value and goes on as long as the cell is not zero: it writes the cell,
counts it down to zero and reads the next value into it.  At the end of the input a read leaves the zero
in the cell, and the program stops there.

It stops as well behind a value that fills the cell with zero.  In front of the first such value all
values are written as the cell holds them, so the copy is exact when no value of the input is zero or
above the greatest value of a cell.  Then the rest is a matter of reading and writing: bytes come back
as they were, and characters as far as the input is a text.

## Main definitions

* `CellWidth.printed`, `CellWidth.copied` — the values that are written, and the bytes that they are
  written as.
* `Block.echo`, `Block.echoBody` — the program as a block, and the body of its loop.
* `CellWidth.Fills` — a value that is written as it is.

## Main results

* `Block.iterates_clear` — a cell is counted down to zero.
* `Block.exists_iterates_echoBody` — what the loop writes and reads, on every input.
* `Source.exists_yields_of_echo` — the program copies every input that has no zero byte.
-/

namespace TapeMachine

/-! ### Clearing a cell -/

namespace Tape

variable {tape : Tape}

/-- What one decrement adds to a cell. -/
theorem WellFormed.netAt_decrement (h : tape.WellFormed) (k : Nat) :
    tape.netAt [.decrement] k = if tape.pointer = k then -1 else 0 := by
  have hstart : tape.pointerBefore [] 0 = tape.pointer := by
    rw [← h.pointer_emod]
    simp [pointerBefore]
  have hnet : tape.netAt [.decrement] k =
      tape.netAt [] k + if tape.pointerBefore [] 0 = k then -1 else 0 :=
    tape.netAt_concat [] .decrement k
  rw [hnet, hstart]
  simp [netAt, timesAt]

/-- As many decrements as the value of the current cell have set it to zero. -/
theorem WellFormed.rounds_decrement (h : tape.WellFormed) :
    tape.rounds [.decrement] tape.read = tape.write 0 := by
  have hreturns : tape.Returns [.decrement] := Int.ModEq.refl 0
  apply ext_valueAt (by simp) (by simp)
  · rw [h.pointer_rounds hreturns, pointer_write]
  · intro k _
    rw [← Int.natCast_inj, h.valueAt_rounds hreturns, h.valueAt_write, h.netAt_decrement]
    split
    · next hk =>
      subst hk
      simp
    · rw [Int.mul_zero, Int.add_zero, h.valueAt_emod]

end Tape

namespace Block

/-- **A cell is counted down to zero.** -/
theorem iterates_clear {s : Store} (h : s.tape.WellFormed) :
    Iterates (act .decrement done).Runs s.cell s (s.withTape (s.tape.write 0)) s.cell := by
  have hruns : ∀ s : Store,
      (act .decrement done).Runs s (s.withTape (s.tape.applyAll [.decrement])) 1 :=
    fun _ => ⟨0, ⟨rfl, rfl⟩, rfl⟩
  have hnet : s.tape.netAt [.decrement] s.tape.pointer = -1 := by
    rw [h.netAt_decrement, if_pos rfl]
  have hcounts : s.tape.Counts [.decrement] s.cell := .inl ⟨by rw [hnet], rfl⟩
  have hiterates := iterates_of_counts hruns h (Int.ModEq.refl 0) hcounts
  rw [Store.cell, h.rounds_decrement, List.length_singleton, Nat.mul_one] at hiterates
  exact hiterates

end Block

/-! ### The loop -/

namespace CellWidth

/-- The values in front of the first one that fills a cell with zero. -/
def printed (width : CellWidth) (values : List Decoded) : List Decoded :=
  values.takeWhile fun decoded => decoded.value % width.modulus != 0

/-- What cells write that have read the values. -/
def copied (width : CellWidth) (values : List Decoded) : List UInt8 :=
  values.flatMap fun decoded => width.encode (decoded.value % width.modulus)

end CellWidth

/-- The current cell is written, and then it is zero. -/
def Store.flush (s : Store) : Store :=
  { s with
    tape := s.tape.write 0
    output := s.output ++ s.tape.width.encode s.cell }

namespace Block

/-- The body of the loop of `,[.[-],]`. -/
def echoBody : Block :=
  .act .output (.loop (.act .decrement .done) (.act .input .done))

/-- The program `,[.[-],]`. -/
def echo : Block :=
  .act .input (.loop echoBody .done)

/-- One iteration writes the cell, clears it and reads. -/
theorem exists_runs_echoBody {s : Store} (h : s.tape.WellFormed) :
    ∃ c, echoBody.Runs s (s.flush.perform .input) c := by
  have hclear := iterates_clear (s := s.perform .output) h
  exact ⟨_, _, ⟨_, _, _, _, hclear, ⟨0, ⟨rfl, rfl⟩, rfl⟩, rfl⟩, rfl⟩

/-- **What the loop writes and reads, on every input.**  It starts behind a read into a cell that was
zero.  It writes the values in front of the first one that fills the cell with zero, and reads that one
as well. -/
theorem exists_iterates_echoBody {width : CellWidth} {input : List UInt8} {values : List Decoded}
    (h : width.Reads input values) : ∀ {s : Store}, s.tape.WellFormed → s.tape.width = width →
      s.unread = input → s.cell = 0 →
      ∃ n s' c, Iterates echoBody.Runs n (s.perform .input) s' c ∧
        s'.output = s.output ++ width.copied (width.printed values) ∧
        s'.consumed = s.consumed +
          ((values.take ((width.printed values).length + 1)).map Decoded.used).sum := by
  induction h with
  | done hnone =>
    rintro s htape rfl rfl hcell
    rw [Store.perform_input_of_none hnone]
    exact ⟨0, s, 0, .stop hcell, (List.append_nil _).symm, rfl⟩
  | @more input decoded values hsome hrest ih =>
    rintro s htape rfl rfl hcell
    have hread := Store.perform_input_of_some hsome
    have htape₁ := Store.wellFormed_perform htape .input
    have hcell₁ : (s.perform .input).cell = decoded.value % s.tape.width.modulus := by
      rw [hread]
      exact htape.read_write _
    by_cases hzero : decoded.value % s.tape.width.modulus = 0
    · -- the value fills the cell with zero: it is read, and nothing is written
      refine ⟨0, s.perform .input, 0, .stop (hcell₁.trans hzero), ?_, ?_⟩
      · simp [hread, CellWidth.printed, CellWidth.copied, hzero]
      · simp [hread, CellWidth.printed, hzero]
    · -- the value is written, and the loop goes on as it started, with the values behind it
      obtain ⟨c, hbody⟩ := exists_runs_echoBody htape₁
      obtain ⟨n, s', c', hagain, houtput, hconsumed⟩ := ih (s := (s.perform .input).flush)
        (htape₁.write 0) (by rw [hread]; rfl) (by rw [hread]; rfl)
        ((htape₁.read_write 0).trans (Nat.zero_mod _))
      have hprinted : s.tape.width.printed (decoded :: values) =
          decoded :: s.tape.width.printed values := by
        simp [CellWidth.printed, hzero]
      refine ⟨n + 1, s', c + c', .again (by rwa [hcell₁]) hbody hagain, ?_, ?_⟩
      · rw [houtput, hprinted, Store.flush, hcell₁, hread]
        simp [CellWidth.copied]
      · rw [hconsumed, hprinted, Store.flush, hread]
        simp [Nat.add_assoc]

end Block

/-! ### When the copy is exact -/

/-- Only a zero byte is read as the character zero. -/
theorem Utf8.Chunked.toNat_ne_zero {bytes : List UInt8} {chunks : List Chunk} (h : Chunked bytes chunks)
    (hzero : 0 ∉ bytes) : ∀ c ∈ lossy chunks, c.toNat ≠ 0 := by
  induction h with
  | nil =>
    intro c hc
    cases hc
  | @cons bytes invalid rest valid chunks hne hbytes hvalid hinvalid hrest ih =>
    rw [hbytes, List.mem_append, List.mem_append, not_or, not_or] at hzero
    obtain ⟨hfront, -, hbehind⟩ := hzero
    intro c hc hnul
    rw [lossy_cons, Chunk.text, List.mem_append, List.mem_append] at hc
    rcases hc with (hc | hc) | hc
    · obtain rfl : c = '\x00' := Char.toNat_inj.mp hnul
      exact hfront (List.mem_flatMap.mpr ⟨_, hc, by decide⟩)
    · split at hc
      · cases hc
      · obtain rfl := List.mem_singleton.mp hc
        cases hnul
    · exact ih hbehind c hc hnul

namespace CellWidth

variable {width : CellWidth} {values : List Decoded}

/-- A value that a cell holds as it is, and that is not zero. -/
def Fills (width : CellWidth) (value : Nat) : Prop :=
  value ≠ 0 ∧ value < width.modulus

/-- **The values of an input without a zero byte fill the cells**, if those of 16 bits are not too
small for its characters. -/
theorem fills_of_mem_decodeAll {input : List UInt8} (hzero : 0 ∉ input) {chunks : List Utf8.Chunk}
    (hchunks : Utf8.Chunked input chunks)
    (hsmall : width = .bits16 → ∀ c ∈ Utf8.lossy chunks, c.toNat ≤ 0xffff) :
    ∀ decoded ∈ width.decodeAll input, width.Fills decoded.value := by
  have hwide : width ≠ .bits8 → ∀ decoded ∈ width.decodeAll input,
      ∃ c ∈ Utf8.lossy chunks, c.toNat = decoded.value := by
    intro hwide decoded hdecoded
    have hvalue := List.mem_map_of_mem (f := Decoded.value) hdecoded
    rw [map_value_decodeAll hwide hchunks] at hvalue
    exact List.mem_map.mp hvalue
  intro decoded hdecoded
  cases width with
  | bits8 =>
    rw [decodeAll_bits8] at hdecoded
    obtain ⟨byte, hbyte, rfl⟩ := List.mem_map.mp hdecoded
    refine ⟨fun hnul => ?_, byte.toNat_lt⟩
    obtain rfl : byte = 0 := UInt8.toNat_inj.mp hnul
    exact hzero hbyte
  | bits16 =>
    obtain ⟨c, hc, hvalue⟩ := hwide (by decide) decoded hdecoded
    rw [← hvalue]
    exact ⟨hchunks.toNat_ne_zero hzero c hc, Nat.lt_succ_of_le (hsmall rfl c hc)⟩
  | bits32 =>
    obtain ⟨c, hc, hvalue⟩ := hwide (by decide) decoded hdecoded
    rw [← hvalue]
    exact ⟨hchunks.toNat_ne_zero hzero c hc, c.val.toNat_lt⟩

theorem printed_eq_self (h : ∀ decoded ∈ values, width.Fills decoded.value) :
    width.printed values = values := by
  refine List.takeWhile_eq_self_iff.mpr fun decoded hdecoded => ?_
  obtain ⟨hne, hlt⟩ := h decoded hdecoded
  rw [Nat.mod_eq_of_lt hlt]
  exact bne_iff_ne.mpr hne

theorem copied_eq_flatMap_encode (h : ∀ decoded ∈ values, width.Fills decoded.value) :
    width.copied values = values.flatMap fun decoded => width.encode decoded.value := by
  refine List.flatMap_congr fun decoded hdecoded => ?_
  rw [Nat.mod_eq_of_lt (h decoded hdecoded).2]

/-- A wide cell writes the characters of the chunks that it has read. -/
theorem flatMap_encode_decodeAll_of_chunked (hwide : width ≠ .bits8) {input : List UInt8}
    {chunks : List Utf8.Chunk} (hchunks : Utf8.Chunked input chunks) :
    (width.decodeAll input).flatMap (fun decoded => width.encode decoded.value) =
      (Utf8.lossy chunks).flatMap String.utf8EncodeChar := by
  have hvalues : (width.decodeAll input).flatMap (fun decoded => width.encode decoded.value) =
      ((width.decodeAll input).map Decoded.value).flatMap width.encode :=
    (List.flatMap_map _ _ _).symm
  rw [hvalues, map_value_decodeAll hwide hchunks, List.flatMap_map]
  exact congrArg ((Utf8.lossy chunks).flatMap ·) (funext (encode_toNat hwide))

end CellWidth

namespace Source

/-- **What the program does on every input**, from a tape with a zero in the current cell. -/
theorem exists_yields_copied {source : Source} (hsource : Block.echo.SpeltBy source.chars) {tape : Tape}
    (htape : tape.WellFormed) (hcell : tape.read = 0) (input : List UInt8) :
    ∃ result, source.Yields tape input result ∧
      result.output = tape.width.copied (tape.width.printed (tape.width.decodeAll input)) ∧
      result.inputConsumed =
        (((tape.width.decodeAll input).take
          ((tape.width.printed (tape.width.decodeAll input)).length + 1)).map Decoded.used).sum := by
  obtain ⟨n, store, c, hiterates, houtput, hconsumed⟩ :=
    Block.exists_iterates_echoBody (tape.width.reads_decodeAll input) (s := .start tape input) htape
      rfl rfl hcell
  rw [Store.start, List.nil_append] at houtput
  rw [Store.start, Nat.zero_add] at hconsumed
  exact ⟨_, hsource.yields_iff.mpr ⟨store, _, ⟨_, ⟨n, store, c, 0, hiterates, ⟨rfl, rfl⟩, rfl⟩, rfl⟩,
    rfl⟩, houtput, hconsumed⟩

/-- **The program copies every input that has no zero byte.**  Its instructions are `,[.[-],]`, whatever
comments stand between them, and it starts from a blank tape of any size.  It comes to its end, in one
way.  With cells of 8 or 32 bits it reads the whole input, and with cells of 16 bits it does if these can
hold all its characters.  Then an 8-bit cell has written the input as it was, and a wider one the
characters of the input cut into chunks, which is the input itself if it is a text. -/
theorem exists_yields_of_echo {source : Source}
    (hsource : source.symbols = (ofLines [",[.[-],]"]).symbols) (shape : Shape) {input : List UInt8}
    (hzero : 0 ∉ input) :
    ∃ result chunks, (∀ other, source.Yields (.blank shape) input other ↔ other = result) ∧
      Utf8.Chunked input chunks ∧
      ((shape.width = .bits16 → ∀ c ∈ Utf8.lossy chunks, c.toNat ≤ 0xffff) →
        result.inputConsumed = input.length ∧
        (shape.width = .bits8 → result.output = input) ∧
        (shape.width ≠ .bits8 →
          result.output = (Utf8.lossy chunks).flatMap String.utf8EncodeChar ∧
          (Utf8.WellFormed input → result.output = input))) := by
  have hspelt : Block.echo.SpeltBy source.chars := hsource
  have hcell : (Tape.blank shape).read = 0 := by
    simp [Tape.blank, Tape.read, shape.size_pos]
  obtain ⟨result, hyields, houtput, hconsumed⟩ :=
    exists_yields_copied hspelt (Tape.wellFormed_blank shape) hcell input
  obtain ⟨chunks, hchunks⟩ := Utf8.exists_chunked input
  refine ⟨result, chunks, fun other => hyields.iff_eq, hchunks, fun hsmall => ?_⟩
  have hfills := CellWidth.fills_of_mem_decodeAll hzero hchunks hsmall
  change result.output = shape.width.copied (shape.width.printed (shape.width.decodeAll input))
    at houtput
  change result.inputConsumed = (((shape.width.decodeAll input).take
    ((shape.width.printed (shape.width.decodeAll input)).length + 1)).map Decoded.used).sum at hconsumed
  rw [CellWidth.printed_eq_self hfills, CellWidth.copied_eq_flatMap_encode hfills] at houtput
  rw [CellWidth.printed_eq_self hfills, List.take_of_length_le (Nat.le_succ _),
    (shape.width.reads_decodeAll input).sum_used] at hconsumed
  refine ⟨hconsumed, fun hnarrow => ?_, fun hwide => ⟨?_, fun htext => ?_⟩⟩
  · rw [houtput]
    exact (shape.width.flatMap_encode_decodeAll_iff input).mpr (.inl hnarrow)
  · rw [houtput, CellWidth.flatMap_encode_decodeAll_of_chunked hwide hchunks]
  · rw [houtput]
    exact (shape.width.flatMap_encode_decodeAll_iff input).mpr (.inr htext)

/-- Cells of 16 bits copy one and two bytes as they are, and half a character as U+FFFD. -/
theorem exists_yields_of_echo_of_truncated_input :
    ((ofLines ["read ,", "[ write . clear [-] read , ]"]).symbols = (ofLines [",[.[-],]"]).symbols ∧
      0 ∉ [0x41, 0xc3, 0xa9, 0xe2, (0x82 : UInt8)]) ∧
    ∃ result, (ofLines ["read ,", "[ write . clear [-] read , ]"]).Yields
        (.blank { width := .bits16, size := 1 }) [0x41, 0xc3, 0xa9, 0xe2, 0x82] result ∧
      result.inputConsumed = 5 ∧ result.output = [0x41, 0xc3, 0xa9, 0xef, 0xbf, 0xbd] := by
  have hsource : (ofLines ["read ,", "[ write . clear [-] read , ]"]).symbols =
      (ofLines [",[.[-],]"]).symbols := by decide
  have hzero : 0 ∉ [0x41, 0xc3, 0xa9, 0xe2, (0x82 : UInt8)] := by decide
  have hwide : CellWidth.bits16 ≠ .bits8 := by decide
  obtain ⟨result, chunks, hyields, hchunks, hexact⟩ :=
    exists_yields_of_echo hsource { width := .bits16, size := 1 } hzero
  have hvalues := CellWidth.map_value_decodeAll hwide hchunks
  have hsmall : ∀ c ∈ Utf8.lossy chunks, c.toNat ≤ 0xffff := by
    have hall : ∀ value ∈ (CellWidth.bits16.decodeAll [0x41, 0xc3, 0xa9, 0xe2, 0x82]).map
        Decoded.value, value ≤ 0xffff := by decide
    rw [hvalues] at hall
    exact fun c hc => hall _ (List.mem_map_of_mem hc)
  obtain ⟨hconsumed, -, hwritten⟩ := hexact fun _ => hsmall
  refine ⟨⟨hsource, hzero⟩, result, (hyields result).mpr rfl, hconsumed, ?_⟩
  rw [(hwritten hwide).1, ← CellWidth.flatMap_encode_decodeAll_of_chunked hwide hchunks]
  decide

end Source

end TapeMachine
