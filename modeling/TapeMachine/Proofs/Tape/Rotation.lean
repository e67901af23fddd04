import TapeMachine.Proofs.Structured.Simulation
import TapeMachine.Proofs.Tape.Cells

/-!
# The tape is a circle

A tape can be turned: every cell, and the pointer with it, moves the same number of places round the
circle.  No operation notices.  The current cell is the same, the neighbours of every cell are the same,
and that the indices wrap somewhere else makes no difference.  So a program that starts on a turned tape
does what it does on the tape itself, and leaves the tape turned in the same way.

## Main definitions

* `Tape.turned` — the index that an index is moved to.
* `Tape.rotate` — a tape turned by a number of places, to the right if it is positive.

## Main results

* `Tape.valueAt_turned_rotate` — where the cells are after a turn.
* `Tape.WellFormed.rotate_write`, `Tape.WellFormed.rotate_moveRight`, `Tape.WellFormed.rotate_moveLeft` —
  operations do not notice a turn.
* `Source.rotate_yields_iff` — nor do programs.
-/

namespace TapeMachine

namespace Tape

variable {tape : Tape} {k : ℤ} {i j : Nat}

/-- The index `k` places to the right of `i`, round the tape. -/
def turned (tape : Tape) (k : ℤ) (i : Nat) : Nat :=
  (((i : ℤ) + k) % tape.size).toNat

/-- The same circle of cells, `k` places to the right, and the pointer on the same cell of it. -/
def rotate (k : ℤ) (tape : Tape) : Tape :=
  { tape with
    cells := Array.ofFn fun j : Fin tape.size => tape.valueAt (tape.turned (-k) j)
    pointer := tape.turned k tape.pointer }

/-! ### Places after a turn -/

theorem natCast_turned (hsize : 0 < tape.size) (k : ℤ) (i : Nat) :
    (tape.turned k i : ℤ) = ((i : ℤ) + k) % tape.size :=
  Int.toNat_of_nonneg (Int.emod_nonneg _ (Int.natCast_ne_zero.mpr hsize.ne'))

theorem turned_lt (hsize : 0 < tape.size) (k : ℤ) (i : Nat) : tape.turned k i < tape.size := by
  have hlt := Int.emod_lt_of_pos ((i : ℤ) + k) (Int.natCast_pos.mpr hsize)
  rwa [← natCast_turned hsize, Int.ofNat_lt] at hlt

/-- Turning back undoes a turn. -/
theorem turned_neg_turned (hi : i < tape.size) (k : ℤ) : tape.turned (-k) (tape.turned k i) = i := by
  have hsize := Nat.zero_lt_of_lt hi
  rw [← Int.natCast_inj, natCast_turned hsize, natCast_turned hsize, Int.emod_add_emod,
    Int.add_neg_cancel_right]
  exact Int.emod_eq_of_lt (Int.natCast_nonneg i) (Int.ofNat_lt.mpr hi)

/-- A cell stands at an index after the turn if it stood at the index that is turned back. -/
theorem turned_eq_iff (hi : i < tape.size) (hj : j < tape.size) :
    tape.turned k i = j ↔ i = tape.turned (-k) j := by
  constructor
  · rintro rfl
    exact (turned_neg_turned hi k).symm
  · rintro rfl
    have hback := turned_neg_turned hj (-k)
    rwa [Int.neg_neg] at hback

/-! ### The tape after a turn -/

@[simp] theorem width_rotate (k : ℤ) (tape : Tape) : (tape.rotate k).width = tape.width := rfl

@[simp] theorem size_rotate (k : ℤ) (tape : Tape) : (tape.rotate k).size = tape.size := by
  simp [rotate, size]

@[simp] theorem pointer_rotate (k : ℤ) (tape : Tape) :
    (tape.rotate k).pointer = tape.turned k tape.pointer := rfl

theorem valueAt_rotate (hj : j < tape.size) (k : ℤ) :
    (tape.rotate k).valueAt j = tape.valueAt (tape.turned (-k) j) := by
  rw [valueAt, Array.getD_eq_getD_getElem?, rotate, Array.getElem?_ofFn, dif_pos hj, Option.getD_some]

/-- **Every cell stands `k` places to the right.** -/
theorem valueAt_turned_rotate (hi : i < tape.size) (k : ℤ) :
    (tape.rotate k).valueAt (tape.turned k i) = tape.valueAt i := by
  rw [valueAt_rotate (turned_lt (Nat.zero_lt_of_lt hi) k i), turned_neg_turned hi]

namespace WellFormed

/-- The current cell is the same. -/
theorem read_rotate (h : tape.WellFormed) (k : ℤ) : (tape.rotate k).read = tape.read := by
  rw [← valueAt_pointer, pointer_rotate, valueAt_turned_rotate h.pointer_lt, valueAt_pointer]

theorem rotate (h : tape.WellFormed) (k : ℤ) : (tape.rotate k).WellFormed where
  pointer_lt := by
    rw [size_rotate, pointer_rotate]
    exact turned_lt h.size_pos k _
  lt_modulus := by
    intro value hvalue
    obtain ⟨j, rfl⟩ := Array.mem_ofFn.mp hvalue
    exact h.valueAt_lt _

/-- **A write does not notice a turn.** -/
theorem rotate_write (h : tape.WellFormed) (k : ℤ) (value : Nat) :
    (tape.rotate k).write value = (tape.write value).rotate k := by
  have hsize : (tape.write value).size = tape.size := size_write tape value
  have hturned : (tape.write value).turned = tape.turned := by
    funext k i
    rw [turned, turned, hsize]
  refine ext_valueAt rfl (by simp) ?_ ?_
  · rw [pointer_write, pointer_rotate, pointer_rotate, pointer_write, hturned]
  · intro j hj
    rw [size_write, size_rotate] at hj
    rw [(h.rotate k).valueAt_write, valueAt_rotate hj, valueAt_rotate (hsize ▸ hj), hturned,
      h.valueAt_write, pointer_rotate, width_rotate]
    simp only [turned_eq_iff h.pointer_lt hj]

/-- **A move does not notice a turn.** -/
theorem rotate_moveRight (h : tape.WellFormed) (k : ℤ) :
    (tape.rotate k).moveRight = tape.moveRight.rotate k := by
  refine ext_valueAt rfl (by simp) ?_ ?_
  · have hright : 0 < tape.moveRight.size := h.size_pos
    rw [← Int.natCast_inj, pointer_moveRight, pointer_rotate, pointer_rotate, natCast_turned hright,
      natCast_turned h.size_pos, pointer_moveRight, size_rotate, size_moveRight, Int.emod_add_emod,
      Int.emod_add_emod, Int.add_right_comm]
  · intro j hj
    have hj' : j < tape.size := by simpa using hj
    have hmoved : j < tape.moveRight.size := hj'
    rw [valueAt_moveRight, valueAt_rotate hj', valueAt_rotate hmoved]
    rfl

theorem rotate_moveLeft (h : tape.WellFormed) (k : ℤ) :
    (tape.rotate k).moveLeft = tape.moveLeft.rotate k := by
  refine ext_valueAt rfl (by simp) ?_ ?_
  · have hleft : 0 < tape.moveLeft.size := h.size_pos
    rw [← Int.natCast_inj, pointer_moveLeft (h.rotate k).size_pos, pointer_rotate, pointer_rotate,
      natCast_turned hleft, natCast_turned h.size_pos, pointer_moveLeft h.size_pos, size_rotate,
      size_moveLeft, Int.emod_sub_emod, Int.emod_add_emod]
    congr 1
    omega
  · intro j hj
    have hj' : j < tape.size := by simpa using hj
    have hmoved : j < tape.moveLeft.size := hj'
    rw [valueAt_moveLeft, valueAt_rotate hj', valueAt_rotate hmoved]
    rfl

end WellFormed

end Tape

/-! ### Programs -/

/-- An operation does not notice a turn. -/
theorem Store.perform_rotate {s : Store} (h : s.tape.WellFormed) (k : ℤ) (op : Operation) :
    (s.withTape (s.tape.rotate k)).perform op =
      (s.perform op).withTape ((s.perform op).tape.rotate k) := by
  cases op with
  | increment =>
    simp only [perform, withTape, Tape.increment, h.read_rotate, h.rotate_write]
  | decrement =>
    simp only [perform, withTape, Tape.decrement, h.read_rotate, h.rotate_write, Tape.width_rotate]
  | right => simp only [perform, withTape, h.rotate_moveRight]
  | left => simp only [perform, withTape, h.rotate_moveLeft]
  | input =>
    rw [perform, perform]
    cases hdecode : s.tape.width.decode? s.unread with
    | none => simp only [withTape, Tape.width_rotate, hdecode]
    | some decoded => simp only [withTape, Tape.width_rotate, hdecode, h.rotate_write]
  | output => simp only [perform, withTape, cell, h.read_rotate, Tape.width_rotate]

namespace Source

/-- **The tape is a true circle.**  Turned by `k` places, a tape has its cells and its pointer `k` places
to the right, round the tape.  From the turned tape an accepted program comes to an end exactly when it
does from the tape itself, with the same output, the same number of instructions and the same number of
input bytes read, and it leaves the tape turned by `k` places that it leaves there. -/
theorem rotate_yields_iff {source : Source} (h : source.syntaxError? = none) {tape : Tape}
    (htape : tape.WellFormed) (k : ℤ) :
    (((tape.rotate k).pointer : ℤ) = ((tape.pointer : ℤ) + k) % tape.size ∧
      (tape.rotate k).width = tape.width ∧ (tape.rotate k).size = tape.size ∧
      ∀ i < tape.size, ∀ j : Nat, (j : ℤ) = ((i : ℤ) + k) % tape.size →
        (tape.rotate k).cells[j]? = tape.cells[i]?) ∧
    ∀ input result, source.Yields (tape.rotate k) input result ↔
      ∃ final, source.Yields tape input final ∧
        result = { final with tape := final.tape.rotate k } := by
  refine ⟨⟨Tape.natCast_turned htape.size_pos k _, rfl, tape.size_rotate k, fun i hi j hj => ?_⟩,
    fun input result => ?_⟩
  · obtain rfl : j = tape.turned k i := by
      rw [← Int.natCast_inj, hj, Tape.natCast_turned htape.size_pos]
    have hlt := Tape.turned_lt htape.size_pos k i
    rw [Tape.getElem?_cells hi, Tape.getElem?_cells (by rwa [Tape.size_rotate]),
      Tape.valueAt_turned_rotate hi]
  · obtain ⟨block, hblock⟩ := exists_block h
    have hruns : ∀ {store count},
        block.Runs (.start (tape.rotate k) input) store count ↔
          ∃ s, store = s.withTape (s.tape.rotate k) ∧ block.Runs (.start tape input) s count :=
      Block.runs_image_iff (P := fun s => s.tape.WellFormed)
        (f := fun s => s.withTape (s.tape.rotate k)) (s := .start tape input)
        (fun {s} hs => by rw [Store.cell, Store.withTape, hs.read_rotate, Store.cell])
        (fun {s} hs op => ⟨Store.wellFormed_perform hs op, Store.perform_rotate hs k op⟩) htape
    rw [hblock.yields_iff]
    constructor
    · rintro ⟨store, count, hrun, rfl⟩
      obtain ⟨s, rfl, hrun'⟩ := hruns.mp hrun
      exact ⟨_, hblock.yields_iff.mpr ⟨s, count, hrun', rfl⟩, rfl⟩
    · rintro ⟨final, hyields, rfl⟩
      obtain ⟨s, count, hrun, rfl⟩ := hblock.yields_iff.mp hyields
      exact ⟨_, count, hruns.mpr ⟨s, rfl, hrun⟩, rfl⟩

/-- A loop that adds one cell to the next, on a tape whose end lies between the two. -/
theorem rotate_yields_iff_of_move_over_the_end :
    ((ofLines ["[>+<-]<."]).syntaxError? = none ∧ (⟨.bits8, #[2, 7, 0], 0⟩ : Tape).WellFormed) ∧
    (ofLines ["[>+<-]<."]).Yields ⟨.bits8, #[7, 0, 2], 2⟩ [] ⟨[0], ⟨.bits8, #[9, 0, 0], 1⟩, 13, 0⟩ := by
  have haccepted : (ofLines ["[>+<-]<."]).syntaxError? = none := by decide
  have htape : (⟨.bits8, #[2, 7, 0], 0⟩ : Tape).WellFormed := ⟨by decide, by decide⟩
  have hyields : (ofLines ["[>+<-]<."]).Yields ⟨.bits8, #[2, 7, 0], 0⟩ []
      ⟨[0], ⟨.bits8, #[0, 9, 0], 2⟩, 13, 0⟩ := ⟨14, by rfl⟩
  have hturned : Tape.rotate 2 ⟨.bits8, #[2, 7, 0], 0⟩ = ⟨.bits8, #[7, 0, 2], 2⟩ := by decide
  have hleft : Tape.rotate 2 ⟨.bits8, #[0, 9, 0], 2⟩ = ⟨.bits8, #[9, 0, 0], 1⟩ := by decide
  have hresult := ((rotate_yields_iff haccepted htape 2).2 [] _).mpr ⟨_, hyields, rfl⟩
  rw [hturned, hleft] at hresult
  exact ⟨⟨haccepted, htape⟩, hresult⟩

end Source

end TapeMachine
