import TapeMachine.Proofs.Machine.History
import TapeMachine.Proofs.Machine.Reading

/-!
# Two tapes in lock step

A program sees the current cell of its tape and nothing else, and changes the tape by its instructions
only.  So a tape may be exchanged for another one: if both have the same current cell at every point of
a run, and every instruction on the way does the same to both, then the run from the one is the run from
the other.  It passes the same positions, reads the same input and writes the same output, and in the end
the tapes still differ as they did at the start.

That an instruction does the same to both tapes may depend on where the pointer is and on what the cells
hold.  It is asked of the machines that the run reaches, and of no others.

## Main definitions

* `Machine.mapTape` — a machine with another tape.
* `Code.symbol?` — the instruction at the position of a machine.
* `Code.Overlooks` — the step from a machine does not tell one tape from the other.
* `Code.trail` — the machines that a run comes to.

## Main results

* `Code.Overlooks.act_mapTape`, `Code.Overlooks.next` — an instruction and a step on the other tape.
* `Code.Reaches.mapTape`, `Code.Finishes.mapTape`, `Source.Yields.mapTape` — a run on the other tape.
* `Source.mem_trail_of_reaches` — where a run to its end can be checked.
-/

namespace TapeMachine

/-- The same machine on another tape. -/
def Machine.mapTape (f : Tape → Tape) (m : Machine) : Machine :=
  { m with tape := f m.tape }

namespace Code

variable {code : Code} {f : Tape → Tape} {m m' m₁ : Machine}

/-- The instruction at the position of a machine; `none` at a comment character and behind the program. -/
def symbol? (code : Code) (m : Machine) : Option Symbol :=
  code.chars[m.position]?.bind Symbol.ofChar?

/-- The step from `m` does not tell its tape from the one that `f` makes of it. -/
structure Overlooks (code : Code) (f : Tape → Tape) (m : Machine) : Prop where
  /-- The current cell is the same. -/
  read_eq : (f m.tape).read = m.tape.read
  /-- It is written as the same bytes. -/
  encode_eq : (f m.tape).width.encode m.tape.read = m.tape.width.encode m.tape.read
  /-- The input is read as the same value. -/
  decode?_eq : (f m.tape).width.decode? m.unread = m.tape.width.decode? m.unread
  /-- If `m` counts up, it does so on both tapes. -/
  increment_eq : code.symbol? m = some .increment → (f m.tape).increment = f m.tape.increment
  /-- If `m` counts down, it does so on both tapes. -/
  decrement_eq : code.symbol? m = some .decrement → (f m.tape).decrement = f m.tape.decrement
  /-- If `m` moves to the right, it does so on both tapes. -/
  moveRight_eq : code.symbol? m = some .right → (f m.tape).moveRight = f m.tape.moveRight
  /-- If `m` moves to the left, it does so on both tapes. -/
  moveLeft_eq : code.symbol? m = some .left → (f m.tape).moveLeft = f m.tape.moveLeft
  /-- If `m` reads a value, it stores it on both tapes. -/
  write_eq : code.symbol? m = some .input → ∀ decoded, m.tape.width.decode? m.unread = some decoded →
    (f m.tape).write decoded.value = f (m.tape.write decoded.value)

namespace Overlooks

/-- **An instruction on the other tape.** -/
theorem act_mapTape (h : code.Overlooks f m) {symbol : Symbol} (hsymbol : code.symbol? m = some symbol) :
    (m.mapTape f).act symbol = (m.act symbol).mapTape f := by
  cases symbol with
  | increment => simp only [Machine.act, Machine.mapTape, h.increment_eq hsymbol]
  | decrement => simp only [Machine.act, Machine.mapTape, h.decrement_eq hsymbol]
  | right => simp only [Machine.act, Machine.mapTape, h.moveRight_eq hsymbol]
  | left => simp only [Machine.act, Machine.mapTape, h.moveLeft_eq hsymbol]
  | input =>
    rw [Machine.act, Machine.act]
    cases hdecode : m.tape.width.decode? m.unread with
    | none =>
      have hdecode' : (m.mapTape f).tape.width.decode? (m.mapTape f).unread = none :=
        h.decode?_eq.trans hdecode
      rw [Machine.readInput_of_none hdecode, Machine.readInput_of_none hdecode']
    | some decoded =>
      have hdecode' : (m.mapTape f).tape.width.decode? (m.mapTape f).unread = some decoded :=
        h.decode?_eq.trans hdecode
      rw [Machine.readInput_of_some hdecode, Machine.readInput_of_some hdecode']
      simp only [Machine.mapTape, h.write_eq hsymbol decoded hdecode]
  | output =>
    have hwritten : (m.mapTape f).written = m.written := by
      rw [Machine.written, Machine.mapTape, h.read_eq, h.encode_eq, Machine.written]
    rw [Machine.act, Machine.writeOutput, hwritten]
    rfl
  | opening => rfl
  | closing => rfl

/-- **A step on the other tape.** -/
theorem next (h : code.Overlooks f m) (hnext : code.Next m m') :
    code.Next (m.mapTape f) (m'.mapTape f) := by
  rcases next_iff.mp hnext with ⟨c, hchar, hc, rfl⟩ | ⟨c, symbol, target, hchar, hc, htarget, rfl⟩
  · exact next_of_comment hchar hc
  · have hsymbol : code.symbol? m = some symbol := by rw [symbol?, hchar, Option.bind_some, hc]
    -- both machines see the same cell, so both jump or neither does
    have hread : (m.mapTape f).tape.read = m.tape.read := h.read_eq
    have hnext' : code.Next (m.mapTape f) (((m.mapTape f).act symbol).moveOn target) :=
      next_of_symbol hchar hc (by rwa [hread])
    rwa [h.act_mapTape hsymbol] at hnext'

end Overlooks

/-! ### Runs -/

/-- **A run on the other tape**: it comes to the same points. -/
theorem Reaches.mapTape (h : code.Reaches m m')
    (hoverlooks : ∀ m₁, code.Reaches m m₁ → code.Overlooks f m₁) :
    code.Reaches (m.mapTape f) (m'.mapTape f) := by
  induction h with
  | refl => exact .refl
  | tail hreach hnext ih => exact .tail ih ((hoverlooks _ hreach).next hnext)

/-- The tape does not matter for where the machine halts. -/
theorem Finishes.mapTape (h : code.Finishes m m')
    (hoverlooks : ∀ m₁, code.Reaches m m₁ → code.Overlooks f m₁) :
    code.Finishes (m.mapTape f) (m'.mapTape f) := by
  obtain ⟨hreach, hhalted⟩ := h
  have hcase := code.stepCase m'
  rw [hhalted] at hcase
  cases hcase with
  | halted hchar => exact ⟨Reaches.mapTape hreach hoverlooks, step_of_end hchar⟩

/-- The machines that a run comes to in at most `fuel` positions, from `m` on. -/
def trail (code : Code) : Nat → Machine → List Machine
  | 0, _ => []
  | fuel + 1, m =>
    m :: match code.step m with
      | .skipped m' => code.trail fuel m'
      | .executed m' _ => code.trail fuel m'
      | _ => []

/-- **A run that comes to its end within a number of positions reaches no other machines** than those
that it comes to in as many. -/
theorem Reaches.mem_trail {σ : Type} {watch : σ → Event → σ} {fuel : Nat} : ∀ {m : Machine}
    {seen seen' : σ}, code.run watch fuel m seen = .finished m' seen' → code.Reaches m m₁ →
      m₁ ∈ code.trail fuel m := by
  induction fuel with
  | zero =>
    intro m seen seen' h
    cases h
  | succ fuel ih =>
    intro m seen seen' h hreach
    rcases Relation.ReflTransGen.cases_head hreach with rfl | ⟨m₂, hnext, hreach'⟩
    · exact List.mem_cons_self
    · rw [run] at h
      rw [trail]
      rcases hnext with hstep | ⟨event, hstep⟩
      · rw [hstep] at h ⊢
        exact List.mem_cons_of_mem m (ih h hreach')
      · rw [hstep] at h ⊢
        exact List.mem_cons_of_mem m (ih h hreach')

/-- A run keeps the shape of its tape. -/
theorem Reaches.wellFormed {tape : Tape} {input : List UInt8} (h : code.Reaches (.start tape input) m)
    (htape : tape.WellFormed) :
    m.tape.size = tape.size ∧ m.tape.width = tape.width ∧ m.tape.WellFormed := by
  have hfits : tape.Fits ⟨tape.width, tape.size, htape.size_pos⟩ :=
    Tape.fits_iff.mpr ⟨rfl, rfl, htape⟩
  exact Tape.fits_iff.mp (Tape.Fits.reaches (m := .start tape input) hfits h)

end Code

namespace Source

variable {source : Source} {tape : Tape} {input : List UInt8} {result : Execution}

/-- A program that comes to its end within a number of positions can be checked at the machines that it
comes to in as many. -/
theorem mem_trail_of_reaches {code : Code} {fuel : Nat} {m : Machine} (hcode : source.compile = .ok code)
    (hexecute : source.execute fuel tape input = some (.ok result))
    (hreach : code.Reaches (.start tape input) m) : m ∈ code.trail fuel (.start tape input) := by
  rw [execute, observe, hcode] at hexecute
  cases hrun : code.run (fun _ _ => ()) fuel (.start tape input) () with
  | running m' seen => simp [hrun] at hexecute
  | finished m' seen => exact Code.Reaches.mem_trail hrun hreach
  | failed m' error seen => simp [hrun] at hexecute

/-- **A program on the other tape.**  If no step of its run tells the tapes apart, it has the same result
on both, up to the tape that it leaves. -/
theorem Yields.mapTape {f : Tape → Tape} (h : source.Yields tape input result)
    (hoverlooks : ∀ code, source.compile = .ok code →
      ∀ m, code.Reaches (.start tape input) m → code.Overlooks f m) :
    source.Yields (f tape) input { result with tape := f result.tape } := by
  obtain ⟨fuel, hexecute⟩ := h
  obtain ⟨code, m, hcode, hfinishes, rfl⟩ := exists_finishes_of_execute hexecute
  exact (yields_iff hcode).mpr ⟨m.mapTape f, hfinishes.mapTape (hoverlooks code hcode), rfl⟩

end Source

end TapeMachine
