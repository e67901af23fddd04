import TapeMachine.Proofs.Characters
import TapeMachine.Proofs.Machine.Lockstep

/-!
# Wider cells

Cells of 16 and of 32 bits are written and read alike, as characters.  They differ in where they wrap,
and the width is looked at in three places only: a count up from the greatest value, a count down from
zero, and a character that is too great for the cell.  A run that comes by none of them is the same in
cells of either width.

## Main definitions

* `Tape.withWidth` — the same cells with another width.
* `Code.Overflows` — the step from a machine stores a value that does not fit into the cell.

## Main results

* `Tape.withWidth_write`, `Tape.withWidth_increment`, `Tape.withWidth_decrement` — the operations in wider
  cells.
* `Code.overlooks_withWidth` — a step without overflow does not notice that the cells are wider.
* `Source.withWidth_yields` — 16-bit and 32-bit runs agree until a cell wraps.
-/

namespace TapeMachine

namespace Tape

variable {tape : Tape} {width : CellWidth}

/-- The same cells and the same pointer, with another width. -/
def withWidth (width : CellWidth) (tape : Tape) : Tape :=
  { tape with width := width }

@[simp] theorem width_withWidth (width : CellWidth) (tape : Tape) :
    (tape.withWidth width).width = width := rfl

@[simp] theorem read_withWidth (width : CellWidth) (tape : Tape) :
    (tape.withWidth width).read = tape.read := rfl

/-- A value that fits into the narrower cells is not reduced in either. -/
theorem withWidth_write (hle : tape.width.modulus ≤ width.modulus) {value : Nat}
    (hvalue : value < tape.width.modulus) :
    (tape.withWidth width).write value = (tape.write value).withWidth width := by
  have hwide : value % (tape.withWidth width).width.modulus = value :=
    Nat.mod_eq_of_lt (Nat.lt_of_lt_of_le hvalue hle)
  rw [write, write, hwide, Nat.mod_eq_of_lt hvalue]
  rfl

theorem withWidth_increment (hle : tape.width.modulus ≤ width.modulus)
    (hread : tape.read + 1 < tape.width.modulus) :
    (tape.withWidth width).increment = tape.increment.withWidth width :=
  withWidth_write hle hread

/-- Going all the way up but for one takes one away from a cell that is not zero, whatever its width. -/
theorem decrement_of_pos (h : 0 < tape.read) : tape.decrement = tape.write (tape.read - 1) := by
  have hmax := tape.width.maxValue_add_one
  have hround : tape.read + tape.width.maxValue = tape.read - 1 + tape.width.modulus := by omega
  rw [decrement, write, write, hround, Nat.add_mod_right]

theorem withWidth_decrement (hle : tape.width.modulus ≤ width.modulus) (hpos : 0 < tape.read)
    (hread : tape.read < tape.width.modulus) :
    (tape.withWidth width).decrement = tape.decrement.withWidth width := by
  have hvalue : tape.read - 1 < tape.width.modulus := Nat.lt_of_le_of_lt (Nat.sub_le _ 1) hread
  rw [decrement_of_pos (show 0 < (tape.withWidth width).read from hpos), decrement_of_pos hpos,
    read_withWidth, withWidth_write hle hvalue]

end Tape

namespace Code

variable {code : Code} {m : Machine} {width : CellWidth}

/-- The instruction at the position of `m` has to reduce what it stores: it counts up from the greatest
value or down from zero, or it reads a greater value. -/
def Overflows (code : Code) (m : Machine) : Prop :=
  code.symbol? m = some .increment ∧ m.tape.read = m.tape.width.maxValue ∨
    code.symbol? m = some .decrement ∧ m.tape.read = 0 ∨
    code.symbol? m = some .input ∧
      ∃ decoded ∈ m.tape.width.decode? m.unread, m.tape.width.maxValue < decoded.value

instance (code : Code) (m : Machine) : Decidable (code.Overflows m) :=
  inferInstanceAs (Decidable (_ ∨ _ ∨ _ ∧ _))

/-- **A step without overflow does not notice that the cells are wider.**  The cells have to be wide ones
before and after, because 8-bit cells are written and read in another way. -/
theorem overlooks_withWidth (htape : m.tape.WellFormed) (hwide : m.tape.width ≠ .bits8)
    (hwide' : width ≠ .bits8) (hle : m.tape.width.modulus ≤ width.modulus)
    (hfits : ¬ code.Overflows m) : code.Overlooks (Tape.withWidth width) m where
  read_eq := Tape.read_withWidth width m.tape
  encode_eq := by
    rw [Tape.width_withWidth, CellWidth.encode_of_ne_bits8 hwide, CellWidth.encode_of_ne_bits8 hwide']
  decode?_eq := by
    rw [Tape.width_withWidth, CellWidth.decode?_of_ne_bits8 hwide,
      CellWidth.decode?_of_ne_bits8 hwide']
  increment_eq hsymbol := by
    have hmax : m.tape.read ≠ m.tape.width.maxValue := fun heq => hfits (.inl ⟨hsymbol, heq⟩)
    have hlt := htape.read_lt
    have hmodulus := m.tape.width.maxValue_add_one
    exact Tape.withWidth_increment hle (by omega)
  decrement_eq hsymbol := by
    have hzero : m.tape.read ≠ 0 := fun heq => hfits (.inr (.inl ⟨hsymbol, heq⟩))
    exact Tape.withWidth_decrement hle (Nat.pos_of_ne_zero hzero) htape.read_lt
  moveRight_eq _ := rfl
  moveLeft_eq _ := rfl
  write_eq hsymbol decoded hdecode := by
    have hvalue : decoded.value ≤ m.tape.width.maxValue := Nat.le_of_not_lt fun hgreater =>
      hfits (.inr (.inr ⟨hsymbol, decoded, hdecode, hgreater⟩))
    have hmodulus := m.tape.width.maxValue_add_one
    exact Tape.withWidth_write hle (by omega)

end Code

namespace Source

/-- **16-bit and 32-bit runs agree until a cell wraps.**  If a program comes to its end from a tape of
16-bit cells, and on the way never counts up a cell that holds 65535, never counts down a cell that holds
zero and never reads a character above U+FFFF, then it comes to its end from the same cells as cells of
32 bits, with the pointer on the same one.  It writes the same output, executes as many instructions,
reads as many input bytes, and leaves the same cells and the same pointer. -/
theorem withWidth_yields {source : Source} {tape : Tape} (htape : tape.WellFormed)
    (hwidth : tape.width = .bits16) {input : List UInt8} {result : Execution}
    (hyields : source.Yields tape input result)
    (hfits : ∀ code, source.compile = .ok code →
      ∀ m, code.Reaches (.start tape input) m → ¬ code.Overflows m) :
    source.Yields (tape.withWidth .bits32) input
      { result with tape := result.tape.withWidth .bits32 } := by
  refine hyields.mapTape fun code hcode m hreach => ?_
  obtain ⟨-, hm, htape'⟩ := hreach.wellFormed htape
  rw [hwidth] at hm
  exact Code.overlooks_withWidth htape' (by rw [hm]; decide) (by decide) (by rw [hm]; decide)
    (hfits code hcode m hreach)

/-- The greatest 16-bit value is read, counted down from and counted up to, and a loop counts down to
zero. -/
theorem withWidth_yields_of_greatest_value :
    ((⟨.bits16, #[0, 0xfffe, 2], 0⟩ : Tape).WellFormed ∧
      (ofLines [",.-.>+.>[-]<"]).Yields ⟨.bits16, #[0, 0xfffe, 2], 0⟩ [0xef, 0xbf, 0xbf, 0x41]
        ⟨[0xef, 0xbf, 0xbf, 0xef, 0xbf, 0xbe, 0xef, 0xbf, 0xbf],
          ⟨.bits16, #[0xfffe, 0xffff, 0], 1⟩, 14, 3⟩ ∧
      ∀ code, (ofLines [",.-.>+.>[-]<"]).compile = .ok code →
        ∀ m, code.Reaches (.start ⟨.bits16, #[0, 0xfffe, 2], 0⟩ [0xef, 0xbf, 0xbf, 0x41]) m →
          ¬ code.Overflows m) ∧
    (ofLines [",.-.>+.>[-]<"]).Yields ⟨.bits32, #[0, 0xfffe, 2], 0⟩ [0xef, 0xbf, 0xbf, 0x41]
      ⟨[0xef, 0xbf, 0xbf, 0xef, 0xbf, 0xbe, 0xef, 0xbf, 0xbf],
        ⟨.bits32, #[0xfffe, 0xffff, 0], 1⟩, 14, 3⟩ := by
  have htape : (⟨.bits16, #[0, 0xfffe, 2], 0⟩ : Tape).WellFormed := ⟨by decide, by decide⟩
  have hexecute : (ofLines [",.-.>+.>[-]<"]).execute 15 ⟨.bits16, #[0, 0xfffe, 2], 0⟩
      [0xef, 0xbf, 0xbf, 0x41] =
        some (.ok ⟨[0xef, 0xbf, 0xbf, 0xef, 0xbf, 0xbe, 0xef, 0xbf, 0xbf],
          ⟨.bits16, #[0xfffe, 0xffff, 0], 1⟩, 14, 3⟩) := by rfl
  have hfits : ∀ code, (ofLines [",.-.>+.>[-]<"]).compile = .ok code →
      ∀ m, code.Reaches (.start ⟨.bits16, #[0, 0xfffe, 2], 0⟩ [0xef, 0xbf, 0xbf, 0x41]) m →
        ¬ code.Overflows m := by
    intro code hcode m hreach
    have hall : ∀ m ∈ code.trail 15 (.start ⟨.bits16, #[0, 0xfffe, 2], 0⟩ [0xef, 0xbf, 0xbf, 0x41]),
        ¬ code.Overflows m := by
      cases hcode
      decide
    exact hall m (mem_trail_of_reaches hcode hexecute hreach)
  exact ⟨⟨htape, ⟨15, hexecute⟩, hfits⟩, withWidth_yields htape rfl ⟨15, hexecute⟩ hfits⟩

end Source

end TapeMachine
