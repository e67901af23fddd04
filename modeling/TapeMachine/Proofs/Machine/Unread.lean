import TapeMachine.Proofs.Characters
import TapeMachine.Proofs.Machine.Reading

/-!
# What is not read does not matter

A run that leaves some of its input unread comes to the same end on every input that starts with what
it has read.  With wide cells this is not a matter of course, because up to four bytes are looked at to
read one value.  It holds if what was read is a text, for then no look goes beyond it.

The argument walks along the run.  In every machine on the way the unread input has two parts: the
bytes that this run is still going to read, and the rest.  A step takes whole values off the first
part, and does the same in front of any other rest.

## Main definitions

* `Machine.facing` — the same machine in front of other input.
* `Machine.Foresees` — the input has a part that is going to be read, and a rest.

## Main results

* `Machine.Foresees.act`, `Machine.Foresees.next` — a step in front of another rest.
* `Code.Reaches.facing` — a run in front of another rest.
* `Source.yields_of_isPrefix` — a run depends only on the input that it has read.
-/

namespace TapeMachine

namespace Machine

/-- The same machine in front of other input. -/
def facing (m : Machine) (unread : List UInt8) : Machine :=
  { m with unread := unread }

/-- Only the instruction that reads looks at the input. -/
theorem act_facing_of_ne_input (m : Machine) {symbol : Symbol} (h : symbol ≠ .input)
    (unread : List UInt8) : (m.facing unread).act symbol = (m.act symbol).facing unread := by
  cases symbol with
  | input => exact absurd rfl h
  | _ => rfl

/-- The unread input is `known` and then `rest`, and after `known` there are `bound` bytes read.  No
value that starts in `known` ends in `rest`. -/
structure Foresees (bound : Nat) (rest known : List UInt8) (m : Machine) : Prop where
  /-- The unread input has two parts. -/
  unread_eq : m.unread = known ++ rest
  /-- Behind the first part, `bound` bytes are read. -/
  consumed_add : m.consumed + known.length = bound
  /-- The first part holds whole values. -/
  whole : m.tape.width.Whole known

namespace Foresees

variable {bound : Nat} {rest known : List UInt8} {m : Machine}

theorem act_of_ne_input (h : Foresees bound rest known m) {symbol : Symbol} (hne : symbol ≠ .input) :
    Foresees bound rest known (m.act symbol) := by
  cases symbol with
  | input => exact absurd rfl hne
  | _ => exact ⟨h.unread_eq, h.consumed_add, h.whole⟩

/-- **A reading that stays in the first part takes a value off it**, in front of any rest. -/
theorem readInput (h : Foresees bound rest known m) (hrest : rest ≠ [])
    (hbound : m.readInput.consumed ≤ bound) (rest' : List UInt8) :
    ∃ known', Foresees bound rest known' m.readInput ∧
      (m.facing (known ++ rest')).readInput = m.readInput.facing (known' ++ rest') := by
  obtain ⟨hunread, hconsumed, hwhole⟩ := h
  by_cases hknown : known = []
  · -- the next value is taken off the rest, so more than `bound` bytes are read
    subst hknown
    obtain ⟨decoded, hdecode⟩ := Option.ne_none_iff_exists'.mp
      (mt CellWidth.decode?_eq_none_iff.mp hrest : m.tape.width.decode? rest ≠ none)
    have hpos := CellWidth.used_pos_of_decode? hdecode
    rw [List.nil_append] at hunread
    rw [← hunread] at hdecode
    rw [readInput_of_some hdecode] at hbound
    simp only [List.length_nil] at hconsumed hbound
    omega
  · obtain ⟨decoded, hdecode, hused, hwhole'⟩ := hwhole.exists_decode?_append hknown
    have hread : m.tape.width.decode? m.unread = some decoded := by rw [hunread, hdecode]
    have hread' : (m.facing (known ++ rest')).tape.width.decode? (m.facing (known ++ rest')).unread =
        some decoded := hdecode rest'
    refine ⟨known.drop decoded.used, ?_, ?_⟩
    · rw [readInput_of_some hread]
      refine ⟨?_, ?_, hwhole'⟩
      · simp only [hunread, List.drop_append_of_le_length hused]
      · simp only [List.length_drop]
        omega
    · rw [readInput_of_some hread, readInput_of_some hread', facing, facing]
      simp only [List.drop_append_of_le_length hused]

/-- **What an instruction does, it does in front of any rest.** -/
theorem act (h : Foresees bound rest known m) (hrest : rest ≠ []) {symbol : Symbol}
    (hbound : (m.act symbol).consumed ≤ bound) (rest' : List UInt8) :
    ∃ known', Foresees bound rest known' (m.act symbol) ∧
      (m.facing (known ++ rest')).act symbol = (m.act symbol).facing (known' ++ rest') := by
  by_cases hinput : symbol = .input
  · subst hinput
    exact h.readInput hrest hbound rest'
  · exact ⟨known, h.act_of_ne_input hinput, m.act_facing_of_ne_input hinput _⟩

/-- **A step in front of another rest.** -/
theorem next {code : Code} {m' : Machine} (h : Foresees bound rest known m) (hrest : rest ≠ [])
    (hnext : code.Next m m') (hbound : m'.consumed ≤ bound) (rest' : List UInt8) :
    ∃ known', Foresees bound rest known' m' ∧
      code.Next (m.facing (known ++ rest')) (m'.facing (known' ++ rest')) := by
  rcases Code.next_iff.mp hnext with ⟨c, hchar, hc, rfl⟩ | ⟨c, symbol, target, hchar, hc, htarget, rfl⟩
  · exact ⟨known, ⟨h.unread_eq, h.consumed_add, h.whole⟩, Code.next_of_comment hchar hc⟩
  · obtain ⟨known', hact, hfacing⟩ := h.act hrest hbound rest'
    have hnext' := Code.next_of_symbol (m := m.facing (known ++ rest')) hchar hc htarget
    rw [hfacing] at hnext'
    exact ⟨known', ⟨hact.unread_eq, hact.consumed_add, hact.whole⟩, hnext'⟩

end Foresees

end Machine

namespace Code

variable {code : Code} {m m' : Machine}

/-- Nothing that is read is given back. -/
theorem Next.consumed_le (h : code.Next m m') : m.consumed ≤ m'.consumed := by
  rcases next_iff.mp h with ⟨c, -, -, rfl⟩ | ⟨c, symbol, target, -, -, -, rfl⟩
  · exact Nat.le_refl _
  · cases symbol with
    | input =>
      change m.consumed ≤ m.readInput.consumed
      rw [Machine.readInput]
      split
      · exact Nat.le_refl _
      · exact Nat.le_add_right _ _
    | _ => exact Nat.le_refl _

theorem Reaches.consumed_le (h : code.Reaches m m') : m.consumed ≤ m'.consumed := by
  induction h with
  | refl => exact Nat.le_refl _
  | tail _ hnext ih => exact Nat.le_trans ih hnext.consumed_le

/-- **A run in front of another rest.**  If all bytes in front of the rest are read, the machine goes
the same way. -/
theorem Reaches.facing {rest : List UInt8} (h : code.Reaches m m') (hrest : rest ≠ [])
    (rest' : List UInt8) : ∀ {known : List UInt8}, m.Foresees m'.consumed rest known →
      code.Reaches (m.facing (known ++ rest')) (m'.facing rest') := by
  induction h using Relation.ReflTransGen.head_induction_on with
  | refl =>
    intro known h
    have hknown : known = [] := List.eq_nil_of_length_eq_zero (Nat.left_eq_add.mp h.consumed_add.symm)
    rw [hknown]
    exact .refl
  | head hnext hreach ih =>
    intro known h
    obtain ⟨known', h', hnext'⟩ := h.next hrest hnext (Reaches.consumed_le hreach) rest'
    exact .head hnext' (ih h')

/-- The input does not matter for where the machine halts. -/
theorem Finishes.facing {rest known : List UInt8} (h : code.Finishes m m') (hrest : rest ≠ [])
    (rest' : List UInt8) (hforesees : m.Foresees m'.consumed rest known) :
    code.Finishes (m.facing (known ++ rest')) (m'.facing rest') := by
  obtain ⟨hreach, hhalted⟩ := h
  have hcase := code.stepCase m'
  rw [hhalted] at hcase
  cases hcase with
  | halted hchar => exact ⟨Reaches.facing hreach hrest rest' hforesees, step_of_end hchar⟩

end Code

namespace Source

/-- **A run depends only on the input that it has read.**  If a run of an accepted program finishes and
leaves input unread, then it has the same result on every input that starts with the bytes that were
read, whether that ends there or goes on with any other bytes.  This holds for 8-bit cells, and for
wider ones if the bytes that were read are a text in UTF-8. -/
theorem yields_of_isPrefix {source : Source} (h : source.syntaxError? = none) {tape : Tape}
    {input other : List UInt8} {result : Execution} (hyields : source.Yields tape input result)
    (hunread : result.inputConsumed < input.length)
    (hstart : input.take result.inputConsumed <+: other)
    (htext : tape.width = .bits8 ∨ Utf8.WellFormed (input.take result.inputConsumed)) :
    source.Yields tape other result := by
  obtain ⟨code, hcode, -, -⟩ := exists_compile_eq_ok h
  obtain ⟨m, hfinishes, rfl⟩ := (yields_iff hcode).mp hyields
  obtain ⟨rest', rfl⟩ := hstart
  change m.consumed < input.length at hunread
  have hrest : input.drop m.consumed ≠ [] := by
    rw [Ne, List.drop_eq_nil_iff]
    omega
  have hforesees : (Machine.start tape input).Foresees m.consumed (input.drop m.consumed)
      (input.take m.consumed) := by
    refine ⟨(List.take_append_drop m.consumed input).symm, ?_, htext⟩
    rw [List.length_take, Nat.min_eq_left (Nat.le_of_lt hunread)]
    exact Nat.zero_add _
  exact (yields_iff hcode).mpr ⟨_, hfinishes.facing hrest rest' hforesees, rfl⟩

/-- Two characters are read, and what follows them is half a character, or something else, or nothing. -/
theorem yields_of_isPrefix_of_two_characters :
    ((ofLines [",.>,"]).syntaxError? = none ∧
      (ofLines [",.>,"]).Yields (Tape.blank { width := .bits16, size := 2 })
        [0xc3, 0xa9, 0xe2, 0x82, 0xac, 0xf0, 0x9f]
        ⟨[0xc3, 0xa9], ⟨.bits16, #[0xe9, 0x20ac], 1⟩, 4, 5⟩ ∧
      Utf8.WellFormed [0xc3, 0xa9, 0xe2, 0x82, 0xac]) ∧
    ∀ rest, (ofLines [",.>,"]).Yields (Tape.blank { width := .bits16, size := 2 })
      ([0xc3, 0xa9, 0xe2, 0x82, 0xac] ++ rest)
      ⟨[0xc3, 0xa9], ⟨.bits16, #[0xe9, 0x20ac], 1⟩, 4, 5⟩ := by
  have haccepted : (ofLines [",.>,"]).syntaxError? = none := by decide
  have hyields : (ofLines [",.>,"]).Yields (Tape.blank { width := .bits16, size := 2 })
      [0xc3, 0xa9, 0xe2, 0x82, 0xac, 0xf0, 0x9f]
      ⟨[0xc3, 0xa9], ⟨.bits16, #[0xe9, 0x20ac], 1⟩, 4, 5⟩ := ⟨5, by rfl⟩
  have htext : Utf8.WellFormed [0xc3, 0xa9, 0xe2, 0x82, 0xac] :=
    Utf8.wellFormed_iff.mpr ⟨['é', '€'], by decide⟩
  exact ⟨⟨haccepted, hyields, htext⟩, fun rest =>
    yields_of_isPrefix haccepted hyields (by decide) (List.prefix_append _ rest) (.inr htext)⟩

end Source

end TapeMachine
