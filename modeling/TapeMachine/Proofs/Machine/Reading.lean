import Mathlib.Algebra.GroupWithZero.Nat
import TapeMachine.Proofs.Decoding
import TapeMachine.Proofs.Machine.Rejection

/-!
# The input is read in order

Whatever a program does, it reads its input from the front to the end.  At every point of a run the
input falls into two parts: what is read and what is not.  The values that were read are the first of
all values of the input, and those of the unread part are the others.  A step that reads moves one
value from the others to the first; every other step leaves both alone.

## Main definitions

* `Code.taken?` — the value that a step takes off the input.
* `Code.Takes` — a run up to some point, with the values that it has read on the way.
* `Machine.ReadsInOrder` — the input falls into what is read and what is not.

## Main results

* `Machine.ReadsInOrder.act` — what a step does to the two parts.
* `Code.Takes.readsInOrder` — the input falls into these parts at every point of a run.
* `Source.takes_in_order` — no value is lost and none is read twice.
-/

namespace TapeMachine

/-- The value that the step from `m` takes off the input: the next one, if the instruction at the
position reads and there is a value left. -/
def Code.taken? (code : Code) (m : Machine) : Option Decoded :=
  if code.chars[m.position]?.bind Symbol.ofChar? = some .input then m.tape.width.decode? m.unread
  else none

/-- `code.Takes m₀ taken m` says that a run from `m₀` has come to `m`, and has taken the values `taken`
off the input on the way. -/
inductive Code.Takes (code : Code) (m₀ : Machine) : List Decoded → Machine → Prop
  /-- At the start nothing is read. -/
  | start : Code.Takes code m₀ [] m₀
  /-- A step takes what it takes. -/
  | step {taken : List Decoded} {m m' : Machine} (htakes : Code.Takes code m₀ taken m)
      (hnext : code.Next m m') : Code.Takes code m₀ (taken ++ (code.taken? m).toList) m'

/-- A run comes to the same points whether or not it is noted what it reads. -/
theorem Code.reaches_iff_exists_takes {code : Code} {m₀ m : Machine} :
    code.Reaches m₀ m ↔ ∃ taken, code.Takes m₀ taken m := by
  constructor
  · intro h
    induction h with
    | refl => exact ⟨[], .start⟩
    | tail _ hnext ih =>
      obtain ⟨taken, htakes⟩ := ih
      exact ⟨_, .step htakes hnext⟩
  · rintro ⟨taken, h⟩
    induction h with
    | start => exact .refl
    | step _ hnext ih => exact .tail ih hnext

/-! ### What is read and what is not -/

namespace Machine

theorem readInput_of_none {m : Machine} (h : m.tape.width.decode? m.unread = none) :
    m.readInput = m := by
  rw [readInput, h]

theorem readInput_of_some {m : Machine} {decoded : Decoded}
    (h : m.tape.width.decode? m.unread = some decoded) :
    m.readInput = { m with
      tape := m.tape.write decoded.value
      unread := m.unread.drop decoded.used
      consumed := m.consumed + decoded.used } := by
  rw [readInput, h]

/-- The machine has read the values `taken` off the front of the input, and nothing else. -/
structure ReadsInOrder (width : CellWidth) (input : List UInt8) (taken : List Decoded)
    (m : Machine) : Prop where
  /-- The tape is well formed. -/
  wellFormed : m.tape.WellFormed
  /-- The width of the cells is what it was. -/
  width_eq : m.tape.width = width
  /-- The unread input is the input behind the bytes that are read. -/
  unread_eq : m.unread = input.drop m.consumed
  /-- No more bytes are read than there are. -/
  consumed_le : m.consumed ≤ input.length
  /-- The bytes that are read are those of the values. -/
  consumed_eq : m.consumed = (taken.map Decoded.used).sum
  /-- All values are those that are read, and then those of the unread input. -/
  decodeAll_eq : width.decodeAll input = taken ++ width.decodeAll m.unread

variable {width : CellWidth} {input : List UInt8} {taken : List Decoded} {m : Machine}

theorem readsInOrder_start {tape : Tape} (h : tape.WellFormed) (input : List UInt8) :
    ReadsInOrder tape.width input [] (.start tape input) where
  wellFormed := h
  width_eq := rfl
  unread_eq := rfl
  consumed_le := Nat.zero_le _
  consumed_eq := rfl
  decodeAll_eq := rfl

namespace ReadsInOrder

/-- The position and the counts of a machine do not matter. -/
theorem congr {m' : Machine} (h : ReadsInOrder width input taken m) (htape : m'.tape.WellFormed)
    (hwidth : m'.tape.width = m.tape.width) (hunread : m'.unread = m.unread)
    (hconsumed : m'.consumed = m.consumed) : ReadsInOrder width input taken m' where
  wellFormed := htape
  width_eq := by rw [hwidth, h.width_eq]
  unread_eq := by rw [hunread, hconsumed, h.unread_eq]
  consumed_le := by rw [hconsumed]; exact h.consumed_le
  consumed_eq := by rw [hconsumed, h.consumed_eq]
  decodeAll_eq := by rw [hunread, h.decodeAll_eq]

/-- There is a next value exactly as long as there is unread input. -/
theorem exists_decode?_iff (h : ReadsInOrder width input taken m) :
    (∃ decoded, m.tape.width.decode? m.unread = some decoded) ↔ m.consumed < input.length := by
  have hle := h.consumed_le
  -- both sides say that the cursor is not at the end
  have hnil : m.unread = [] ↔ m.consumed = input.length := by
    rw [h.unread_eq, List.drop_eq_nil_iff]
    omega
  cases hdecode : m.tape.width.decode? m.unread with
  | none =>
    have hend := hnil.mp (CellWidth.decode?_eq_none_iff.mp hdecode)
    simp [hend]
  | some decoded =>
    have hne : m.unread ≠ [] := by
      intro hempty
      rw [CellWidth.decode?_eq_none_iff.mpr hempty] at hdecode
      cases hdecode
    have hmore : m.consumed ≠ input.length := fun heq => hne (hnil.mpr heq)
    simp
    omega

/-- The values that are read are the first ones. -/
theorem taken_eq (h : ReadsInOrder width input taken m) :
    taken = (width.decodeAll input).take taken.length := by
  rw [h.decodeAll_eq, List.take_left]

/-- The next value is the one behind those that are read. -/
theorem getElem?_decodeAll (h : ReadsInOrder width input taken m) {decoded : Decoded}
    (hdecode : m.tape.width.decode? m.unread = some decoded) :
    (width.decodeAll input)[taken.length]? = some decoded := by
  rw [h.width_eq] at hdecode
  rw [h.decodeAll_eq, CellWidth.decodeAll_eq_cons hdecode,
    List.getElem?_append_right (Nat.le_refl _), Nat.sub_self, List.getElem?_cons_zero]

/-- **A read moves one value over**, from those that are not read to those that are. -/
theorem readInput (h : ReadsInOrder width input taken m) {decoded : Decoded}
    (hdecode : m.tape.width.decode? m.unread = some decoded) :
    ReadsInOrder width input (taken ++ [decoded]) m.readInput := by
  have hused := CellWidth.used_le_of_decode? hdecode
  rw [h.unread_eq, List.length_drop] at hused
  have hdecode' : width.decode? m.unread = some decoded := h.width_eq ▸ hdecode
  have hle := h.consumed_le
  rw [readInput_of_some hdecode]
  exact {
    wellFormed := h.wellFormed.write _
    width_eq := h.width_eq
    unread_eq := by simp only [h.unread_eq, List.drop_drop]
    consumed_le := by
      simp only
      omega
    consumed_eq := by simp [h.consumed_eq]
    decodeAll_eq := by
      rw [h.decodeAll_eq, CellWidth.decodeAll_eq_cons hdecode', List.append_assoc]
      rfl }

/-- Every other instruction leaves both parts of the input alone. -/
theorem act_of_ne_input (h : ReadsInOrder width input taken m) {symbol : Symbol}
    (hne : symbol ≠ .input) : ReadsInOrder width input taken (m.act symbol) := by
  cases symbol with
  | increment => exact h.congr h.wellFormed.increment rfl rfl rfl
  | decrement => exact h.congr h.wellFormed.decrement rfl rfl rfl
  | right => exact h.congr h.wellFormed.moveRight rfl rfl rfl
  | left => exact h.congr h.wellFormed.moveLeft rfl rfl rfl
  | input => exact absurd rfl hne
  | output => exact h.congr h.wellFormed rfl rfl rfl
  | opening => exact h
  | closing => exact h

/-- **What an instruction does to the two parts of the input.** -/
theorem act (h : ReadsInOrder width input taken m) (symbol : Symbol) :
    ReadsInOrder width input
      (taken ++ (if symbol = .input then m.tape.width.decode? m.unread else none).toList)
      (m.act symbol) := by
  by_cases hinput : symbol = .input
  · rw [if_pos hinput, hinput]
    cases hdecode : m.tape.width.decode? m.unread with
    | none =>
      rw [Machine.act, readInput_of_none hdecode, Option.toList_none, List.append_nil]
      exact h
    | some decoded => exact h.readInput hdecode
  · rw [if_neg hinput, Option.toList_none, List.append_nil]
    exact h.act_of_ne_input hinput

/-- **A step keeps the input in its two parts.** -/
theorem next {code : Code} {m' : Machine} (h : ReadsInOrder width input taken m)
    (hnext : code.Next m m') : ReadsInOrder width input (taken ++ (code.taken? m).toList) m' := by
  rcases hnext with hskipped | ⟨event, hexecuted⟩
  · obtain ⟨c, hchar, hc, rfl⟩ := Code.eq_of_step_eq_skipped hskipped
    have htaken : code.taken? m = none := by simp [Code.taken?, hchar, hc]
    rw [htaken, Option.toList_none, List.append_nil]
    exact h.congr h.wellFormed rfl rfl rfl
  · obtain ⟨c, target, hchar, hc, rfl, -⟩ := Code.act_of_step_eq_executed hexecuted
    have htaken : code.taken? m =
        if event.symbol = .input then m.tape.width.decode? m.unread else none := by
      simp [Code.taken?, hchar, hc]
    have hact := h.act event.symbol
    rw [htaken]
    exact hact.congr hact.wellFormed rfl rfl rfl

end ReadsInOrder

end Machine

namespace Code

variable {code : Code} {tape : Tape} {input : List UInt8} {taken : List Decoded} {m m' : Machine}

/-- **At every point of a run the input is in its two parts.** -/
theorem Takes.readsInOrder (h : code.Takes (.start tape input) taken m) (htape : tape.WellFormed) :
    m.ReadsInOrder tape.width input taken := by
  induction h with
  | start => exact Machine.readsInOrder_start htape input
  | step _ hnext ih => exact ih.next hnext

/-- An instruction that reads has taken what there was to take. -/
theorem readInput_of_step_eq_executed {event : Event} (h : code.step m = .executed m' event)
    (hinput : event.symbol = .input) :
    code.taken? m = m.tape.width.decode? m.unread ∧ ∃ target, m' = m.readInput.moveOn target := by
  obtain ⟨c, target, hchar, hc, rfl, -⟩ := act_of_step_eq_executed h
  rw [hinput] at hc ⊢
  exact ⟨by simp [taken?, hchar, hc], target, rfl⟩

end Code

namespace Source

/-- **No value of the input is lost and none is read twice.**  At every point of every run of an
accepted program, the cursor is inside the input, the values that were read are the first of all
values of the input, and the cursor has moved by the bytes that these cover.  An instruction that
reads there puts the next value into the current cell, reduced to its width, and moves the cursor on;
at the end of the input it changes neither.  What a complete run reports as consumed is where the
cursor stands at its end. -/
theorem takes_in_order {source : Source} (h : source.syntaxError? = none) {tape : Tape}
    (htape : tape.WellFormed) (input : List UInt8) :
    ∃ code, source.compile = .ok code ∧
      (∀ m, code.Reaches (.start tape input) m ↔ ∃ taken, code.Takes (.start tape input) taken m) ∧
      (∀ taken m, code.Takes (.start tape input) taken m →
        m.consumed ≤ input.length ∧
        m.unread = input.drop m.consumed ∧
        taken = (tape.width.decodeAll input).take taken.length ∧
        m.consumed = (taken.map Decoded.used).sum ∧
        ∀ m' event, code.step m = .executed m' event → event.symbol = .input →
          (m.consumed < input.length → ∃ decoded,
            (tape.width.decodeAll input)[taken.length]? = some decoded ∧
            code.taken? m = some decoded ∧
            0 < decoded.used ∧ m'.consumed = m.consumed + decoded.used ∧
            m'.tape = m.tape.write decoded.value ∧
            m'.tape.read = decoded.value % tape.width.modulus) ∧
          (m.consumed = input.length →
            code.taken? m = none ∧ m'.tape = m.tape ∧ m'.consumed = m.consumed)) ∧
      ∀ result, source.Yields tape input result → ∃ taken m,
        code.Takes (.start tape input) taken m ∧ code.step m = .halted m ∧ m.execution = result ∧
        result.inputConsumed = (taken.map Decoded.used).sum := by
  obtain ⟨code, hcode, -, -⟩ := exists_compile_eq_ok h
  refine ⟨code, hcode, fun m => Code.reaches_iff_exists_takes, fun taken m htakes => ?_,
    fun result hyields => ?_⟩
  · have horder := htakes.readsInOrder htape
    refine ⟨horder.consumed_le, horder.unread_eq, horder.taken_eq, horder.consumed_eq, ?_⟩
    intro m' event hstep hinput
    obtain ⟨htaken, target, rfl⟩ := Code.readInput_of_step_eq_executed hstep hinput
    constructor
    · intro hmore
      obtain ⟨decoded, hdecode⟩ := horder.exists_decode?_iff.mpr hmore
      have hread := horder.wellFormed.read_write decoded.value
      rw [horder.width_eq] at hread
      rw [Machine.readInput_of_some hdecode]
      exact ⟨decoded, horder.getElem?_decodeAll hdecode, htaken.trans hdecode,
        CellWidth.used_pos_of_decode? hdecode, rfl, rfl, hread⟩
    · intro hend
      have hdecode : m.tape.width.decode? m.unread = none := by
        rw [CellWidth.decode?_eq_none_iff, horder.unread_eq, hend, List.drop_length]
      rw [Machine.readInput_of_none hdecode]
      exact ⟨htaken.trans hdecode, rfl, rfl⟩
  · obtain ⟨m, hfinishes, rfl⟩ := (yields_iff hcode).mp hyields
    obtain ⟨taken, htakes⟩ := Code.reaches_iff_exists_takes.mp hfinishes.1
    exact ⟨taken, m, htakes, hfinishes.2, rfl, (htakes.readsInOrder htape).consumed_eq⟩

/-- Three reads of an input that ends in the middle of its second character. -/
theorem takes_in_order_of_truncated_input :
    ((ofLines [",>,>,"]).syntaxError? = none ∧
      (Tape.blank { width := .bits16, size := 3 }).WellFormed) ∧
    ∃ code, (ofLines [",>,>,"]).compile = .ok code ∧
      ∀ taken m, code.Takes (.start (Tape.blank { width := .bits16, size := 3 })
          [0xc3, 0xa9, 0xf0, 0x9f]) taken m →
        m.consumed ≤ 4 ∧ taken = [⟨0xe9, 2⟩, ⟨0xfffd, 2⟩].take taken.length ∧
        m.consumed = (taken.map Decoded.used).sum := by
  have haccepted : (ofLines [",>,>,"]).syntaxError? = none := by decide
  have htape := Tape.wellFormed_blank { width := .bits16, size := 3 }
  have hvalues : CellWidth.bits16.decodeAll [0xc3, 0xa9, 0xf0, 0x9f] =
      [⟨0xe9, 2⟩, ⟨0xfffd, 2⟩] := by decide
  obtain ⟨code, hcode, -, hpoint, -⟩ :=
    takes_in_order haccepted htape [0xc3, 0xa9, 0xf0, 0x9f]
  refine ⟨⟨haccepted, htape⟩, code, hcode, fun taken m htakes => ?_⟩
  obtain ⟨hle, -, htaken, hsum, -⟩ := hpoint taken m htakes
  rw [← hvalues]
  exact ⟨hle, htaken, hsum⟩

end Source

end TapeMachine
