import TapeMachine.Proofs.Machine.Lockstep

/-!
# Longer tapes

More cells behind the last one make a difference only where the pointer goes round.  As long as it stays
between the two ends of a tape, the cells that it passes are those of the longer tape as well, and none
of the cells that were put behind them is read or written.  What counts is where the pointer goes in a
run and not what the program looks like: a program may well be able to go over an end and not do so.

## Main definitions

* `Tape.extend` — a tape with more cells behind its last one.
* `Code.CrossesEnd` — the step from a machine takes the pointer over an end of the tape.

## Main results

* `Tape.extend_write`, `Tape.extend_moveRight`, `Tape.extend_moveLeft` — the operations on a longer tape.
* `Code.overlooks_extend` — a step that does not cross an end does not notice what is behind it.
* `Source.extend_yields` — the size of the memory matters only when the pointer wraps.
-/

namespace TapeMachine

namespace Tape

variable {tape : Tape}

/-- The same tape with more cells behind its last one. -/
def extend (more : Array Nat) (tape : Tape) : Tape :=
  { tape with cells := tape.cells ++ more }

@[simp] theorem size_extend (more : Array Nat) (tape : Tape) :
    (tape.extend more).size = tape.size + more.size :=
  Array.size_append

theorem read_extend (h : tape.pointer < tape.size) (more : Array Nat) :
    (tape.extend more).read = tape.read := by
  rw [read, read, Array.getD_eq_getD_getElem?, Array.getD_eq_getD_getElem?, extend,
    Array.getElem?_append_left h]

/-- A write in front of the additional cells leaves them alone. -/
theorem extend_write (h : tape.pointer < tape.size) (more : Array Nat) (value : Nat) :
    (tape.extend more).write value = (tape.write value).extend more := by
  simp only [extend, write, Array.setIfInBounds_append_left h]

/-! ### Moves that stay between the ends -/

theorem moveRight_of_lt (h : tape.pointer + 1 < tape.size) :
    tape.moveRight = { tape with pointer := tape.pointer + 1 } := by
  rw [moveRight, Nat.mod_eq_of_lt h]

/-- Going all the way round but for one cell leads to the cell before. -/
theorem moveLeft_of_pos (hpos : 0 < tape.pointer) (h : tape.pointer < tape.size) :
    tape.moveLeft = { tape with pointer := tape.pointer - 1 } := by
  have hround : tape.pointer + (tape.size - 1) = tape.pointer - 1 + tape.size := by omega
  rw [moveLeft, hround, Nat.add_mod_right, Nat.mod_eq_of_lt (by omega)]

/-- In front of the last cell, the next one is the same. -/
theorem extend_moveRight (h : tape.pointer + 1 < tape.size) (more : Array Nat) :
    (tape.extend more).moveRight = tape.moveRight.extend more := by
  have hmore : (tape.extend more).pointer + 1 < (tape.extend more).size := by
    rw [size_extend]
    exact Nat.lt_add_right more.size h
  rw [moveRight_of_lt h, moveRight_of_lt hmore]
  rfl

/-- Behind the first cell, the cell before is the same. -/
theorem extend_moveLeft (hpos : 0 < tape.pointer) (h : tape.pointer < tape.size) (more : Array Nat) :
    (tape.extend more).moveLeft = tape.moveLeft.extend more := by
  have hmore : (tape.extend more).pointer < (tape.extend more).size := by
    rw [size_extend]
    exact Nat.lt_add_right more.size h
  rw [moveLeft_of_pos hpos h, moveLeft_of_pos (show 0 < (tape.extend more).pointer from hpos) hmore]
  rfl

end Tape

namespace Code

variable {code : Code} {m : Machine}

/-- The instruction at the position of `m` takes the pointer over an end of the tape: from the last cell
to the right, or from the first one to the left. -/
def CrossesEnd (code : Code) (m : Machine) : Prop :=
  code.symbol? m = some .right ∧ m.tape.pointer + 1 = m.tape.size ∨
    code.symbol? m = some .left ∧ m.tape.pointer = 0

instance (code : Code) (m : Machine) : Decidable (code.CrossesEnd m) :=
  inferInstanceAs (Decidable (_ ∨ _))

/-- **A step that does not cross an end of the tape does not notice what is behind it.** -/
theorem overlooks_extend (htape : m.tape.WellFormed) (hends : ¬ code.CrossesEnd m) (more : Array Nat) :
    code.Overlooks (Tape.extend more) m where
  read_eq := Tape.read_extend htape.pointer_lt more
  encode_eq := rfl
  decode?_eq := rfl
  increment_eq _ := by
    rw [Tape.increment, Tape.read_extend htape.pointer_lt, Tape.extend_write htape.pointer_lt]
    rfl
  decrement_eq _ := by
    rw [Tape.decrement, Tape.read_extend htape.pointer_lt, Tape.extend_write htape.pointer_lt]
    rfl
  moveRight_eq hsymbol := by
    have hlast : m.tape.pointer + 1 ≠ m.tape.size := fun heq => hends (.inl ⟨hsymbol, heq⟩)
    exact Tape.extend_moveRight (Nat.lt_of_le_of_ne htape.pointer_lt hlast) more
  moveLeft_eq hsymbol := by
    have hfirst : m.tape.pointer ≠ 0 := fun heq => hends (.inr ⟨hsymbol, heq⟩)
    exact Tape.extend_moveLeft (Nat.pos_of_ne_zero hfirst) htape.pointer_lt more
  write_eq _ decoded _ := Tape.extend_write htape.pointer_lt more decoded.value

end Code

namespace Source

/-- **The size of the memory matters only when the pointer wraps.**  If a program comes to its end from a
tape and never moves to the right from the last cell of it nor to the left from the first one, then it
comes to its end from every tape that has more cells, whatever they hold, behind the same ones.  It
writes the same output, executes as many instructions, reads as many input bytes and leaves the pointer
at the same place.  The cells that both tapes have end up alike, and the others are as they were. -/
theorem extend_yields {source : Source} {tape : Tape} (htape : tape.WellFormed) {input : List UInt8}
    {result : Execution} (hyields : source.Yields tape input result)
    (hends : ∀ code, source.compile = .ok code →
      ∀ m, code.Reaches (.start tape input) m → ¬ code.CrossesEnd m) (more : Array Nat) :
    source.Yields (tape.extend more) input { result with tape := result.tape.extend more } ∧
      result.tape.size = tape.size := by
  constructor
  · refine hyields.mapTape fun code hcode m hreach => ?_
    obtain ⟨-, -, hm⟩ := hreach.wellFormed htape
    exact Code.overlooks_extend hm (hends code hcode m hreach) more
  · obtain ⟨fuel, hexecute⟩ := hyields
    obtain ⟨code, m, -, hfinishes, rfl⟩ := exists_finishes_of_execute hexecute
    exact (Code.Reaches.wellFormed hfinishes.1 htape).1

/-- A loop goes to and fro between the two cells of a tape.  Behind them is one that no 8-bit cell can be,
and one more. -/
theorem extend_yields_of_two_cells :
    ((⟨.bits8, #[2, 7], 0⟩ : Tape).WellFormed ∧
      (ofLines ["[>+<-]>."]).Yields ⟨.bits8, #[2, 7], 0⟩ [] ⟨[9], ⟨.bits8, #[0, 9], 1⟩, 13, 0⟩ ∧
      ∀ code, (ofLines ["[>+<-]>."]).compile = .ok code →
        ∀ m, code.Reaches (.start ⟨.bits8, #[2, 7], 0⟩ []) m → ¬ code.CrossesEnd m) ∧
    (ofLines ["[>+<-]>."]).Yields ⟨.bits8, #[2, 7, 300, 5], 0⟩ []
      ⟨[9], ⟨.bits8, #[0, 9, 300, 5], 1⟩, 13, 0⟩ := by
  have htape : (⟨.bits8, #[2, 7], 0⟩ : Tape).WellFormed := ⟨by decide, by decide⟩
  have hexecute : (ofLines ["[>+<-]>."]).execute 14 ⟨.bits8, #[2, 7], 0⟩ [] =
      some (.ok ⟨[9], ⟨.bits8, #[0, 9], 1⟩, 13, 0⟩) := by rfl
  have hends : ∀ code, (ofLines ["[>+<-]>."]).compile = .ok code →
      ∀ m, code.Reaches (.start ⟨.bits8, #[2, 7], 0⟩ []) m → ¬ code.CrossesEnd m := by
    intro code hcode m hreach
    have hall : ∀ m ∈ code.trail 14 (.start ⟨.bits8, #[2, 7], 0⟩ []), ¬ code.CrossesEnd m := by
      cases hcode
      decide
    exact hall m (mem_trail_of_reaches hcode hexecute hreach)
  exact ⟨⟨htape, ⟨14, hexecute⟩, hends⟩, (extend_yields htape ⟨14, hexecute⟩ hends #[300, 5]).1⟩

end Source

end TapeMachine
