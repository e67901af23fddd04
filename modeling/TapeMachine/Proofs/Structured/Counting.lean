import TapeMachine.Proofs.Structured.Straight

/-!
# Counting loops

A loop with a straight-line body that brings the pointer back to where it was does the same to every
cell in each of its iterations.  If it takes one from the current cell, it counts that cell down to zero;
if it adds one, it counts up until the cell wraps to zero.  Either way the number of iterations is known
before the loop starts, and so is what has become of the other cells at its end: each has taken its
change as often as there were iterations.

The body may visit the current cell several times, and on a small tape it may come to it from the other
side; all that matters is what it adds to the cell in total, modulo the number of its values.

## Main definitions

* `Tape.rounds` — straight-line instructions a number of times in turn.
* `Tape.Counts` — the instructions count the current cell to zero in a number of rounds.

## Main results

* `Tape.WellFormed.valueAt_rounds` — the cells after some rounds.
* `Tape.Counts.read_rounds_eq_zero_iff` — the current cell is zero in the last round, and not before.
* `Block.iterates_of_counts` — a counting loop in the structured language.
* `Source.exists_yields_of_counts` — counting loops come to their end with a linear effect.
-/

namespace TapeMachine

namespace Tape

variable {tape tape' : Tape} {w : List Symbol} {m n k : Nat}

/-- The tape after the instructions `w` have been executed a number of times in turn. -/
def rounds (tape : Tape) (w : List Symbol) : Nat → Tape
  | 0 => tape
  | n + 1 => (tape.rounds w n).applyAll w

/-- The instructions `w` bring the pointer back to where it was. -/
def Returns (tape : Tape) (w : List Symbol) : Prop :=
  (w.count .right : ℤ) - w.count .left ≡ 0 [ZMOD tape.size]

/-- In `m` rounds the instructions `w` count the current cell down to zero, or up to zero. -/
def Counts (tape : Tape) (w : List Symbol) (m : Nat) : Prop :=
  tape.netAt w tape.pointer ≡ -1 [ZMOD 2 ^ tape.width.bits] ∧ m = tape.read ∨
    tape.netAt w tape.pointer ≡ 1 [ZMOD 2 ^ tape.width.bits] ∧
      m = (2 ^ tape.width.bits - tape.read) % 2 ^ tape.width.bits

/-! ### Rounds -/

@[simp] theorem width_rounds (tape : Tape) (w : List Symbol) (n : Nat) :
    (tape.rounds w n).width = tape.width := by
  induction n with
  | zero => rfl
  | succ n ih => rw [rounds, width_applyAll, ih]

@[simp] theorem size_rounds (tape : Tape) (w : List Symbol) (n : Nat) :
    (tape.rounds w n).size = tape.size := by
  induction n with
  | zero => rfl
  | succ n ih => rw [rounds, size_applyAll, ih]

/-- What instructions add to a cell depends on where the pointer is, and on nothing else. -/
theorem netAt_congr (hpointer : tape'.pointer = tape.pointer) (hsize : tape'.size = tape.size) :
    tape'.netAt w k = tape.netAt w k := by
  have hbefore : tape'.pointerBefore w = tape.pointerBefore w := by
    funext j
    rw [pointerBefore, pointerBefore, hpointer, hsize]
  rw [netAt, netAt, timesAt, timesAt, timesAt, timesAt, hbefore]

namespace WellFormed

theorem rounds (h : tape.WellFormed) (w : List Symbol) (n : Nat) : (tape.rounds w n).WellFormed := by
  induction n with
  | zero => exact h
  | succ n ih => exact ih.applyAll w

theorem pointer_applyAll_of_returns (h : tape.WellFormed) (hreturns : tape.Returns w) :
    (tape.applyAll w).pointer = tape.pointer := by
  have hback : (tape.pointer : ℤ) + ((w.count .right : ℤ) - w.count .left) ≡
      tape.pointer + 0 [ZMOD tape.size] := hreturns.add_left _
  rw [← add_sub_assoc, Int.add_zero] at hback
  rw [← Int.natCast_inj, h.pointer_applyAll, pointerBefore, List.take_length, hback, h.pointer_emod]

/-- After each round the pointer is back. -/
theorem pointer_rounds (h : tape.WellFormed) (hreturns : tape.Returns w) (n : Nat) :
    (tape.rounds w n).pointer = tape.pointer := by
  induction n with
  | zero => rfl
  | succ n ih =>
    have hreturns' : (tape.rounds w n).Returns w := by rwa [Returns, size_rounds]
    rw [Tape.rounds, (h.rounds w n).pointer_applyAll_of_returns hreturns', ih]

/-- **The cells after some rounds.**  Each round adds the same to a cell. -/
theorem valueAt_rounds (h : tape.WellFormed) (hreturns : tape.Returns w) (n k : Nat) :
    ((tape.rounds w n).valueAt k : ℤ) =
      ((tape.valueAt k : ℤ) + n * tape.netAt w k) % tape.width.modulus := by
  induction n with
  | zero =>
    rw [Int.natCast_zero, Int.zero_mul, Int.add_zero, h.valueAt_emod]
    rfl
  | succ n ih =>
    have hnet : (tape.rounds w n).netAt w k = tape.netAt w k :=
      netAt_congr (h.pointer_rounds hreturns n) (size_rounds tape w n)
    rw [Tape.rounds, (h.rounds w n).valueAt_applyAll, ih, width_rounds, Int.emod_add_emod, hnet,
      Int.natCast_succ, Int.add_mul, Int.one_mul, Int.add_assoc]

end WellFormed

/-! ### Counting to zero -/

/-- Counting down from a value ends when the value is used up. -/
theorem emod_eq_zero_iff_of_down {modulus value n : Nat} {d : ℤ} (hvalue : value < modulus)
    (hd : d ≡ -1 [ZMOD modulus]) (hn : n ≤ value) :
    ((value : ℤ) + n * d) % modulus = 0 ↔ n = value := by
  have hsum : (value : ℤ) + n * d ≡ value + n * -1 [ZMOD modulus] := (hd.mul_left _).add_left _
  rw [hsum, Int.emod_eq_of_lt (by omega) (by omega)]
  omega

/-- Counting up from a value ends when it wraps. -/
theorem emod_eq_zero_iff_of_up {modulus value n : Nat} {d : ℤ} (hvalue : value < modulus)
    (hd : d ≡ 1 [ZMOD modulus]) (hn : n ≤ (modulus - value) % modulus) :
    ((value : ℤ) + n * d) % modulus = 0 ↔ n = (modulus - value) % modulus := by
  have hsum : (value : ℤ) + n * d ≡ value + n * 1 [ZMOD modulus] := (hd.mul_left _).add_left _
  rw [hsum]
  rcases Nat.eq_zero_or_pos value with rfl | hpos
  · rw [Nat.sub_zero, Nat.mod_self] at hn ⊢
    obtain rfl := Nat.le_zero.mp hn
    simp
  · rw [Nat.mod_eq_of_lt (by omega)] at hn ⊢
    by_cases hwrap : n = modulus - value
    · have hall : (value : ℤ) + n * 1 = modulus := by omega
      rw [hall, Int.emod_self]
      exact iff_of_true rfl hwrap
    · rw [Int.emod_eq_of_lt (by omega) (by omega)]
      omega

/-- **The current cell is zero in the last round, and not before.** -/
theorem Counts.read_rounds_eq_zero_iff (hcounts : tape.Counts w m) (h : tape.WellFormed)
    (hreturns : tape.Returns w) (hn : n ≤ m) : (tape.rounds w n).read = 0 ↔ n = m := by
  have hmodulus : ((tape.width.modulus : Nat) : ℤ) = 2 ^ tape.width.bits := by
    rw [tape.width.modulus_eq]
    push_cast
    rfl
  rw [Counts, ← hmodulus, ← tape.width.modulus_eq] at hcounts
  rw [← valueAt_pointer, h.pointer_rounds hreturns, ← Int.natCast_eq_zero, h.valueAt_rounds hreturns,
    valueAt_pointer]
  rcases hcounts with ⟨hdown, rfl⟩ | ⟨hup, rfl⟩
  · exact emod_eq_zero_iff_of_down h.read_lt hdown hn
  · exact emod_eq_zero_iff_of_up h.read_lt hup hn

end Tape

/-! ### Loops -/

/-- A loop iterates along a sequence of stores up to the first one with a zero. -/
theorem Iterates.of_forall_lt {run : Store → Store → Nat → Prop} {cost m : Nat} :
    ∀ stores : Nat → Store,
      (∀ n < m, (stores n).cell ≠ 0 ∧ run (stores n) (stores (n + 1)) cost) →
      (stores m).cell = 0 → Iterates run m (stores 0) (stores m) (m * cost) := by
  induction m with
  | zero =>
    intro stores _ hzero
    rw [Nat.zero_mul]
    exact .stop hzero
  | succ m ih =>
    intro stores hstep hzero
    obtain ⟨hcell, hrun⟩ := hstep 0 m.succ_pos
    have hagain := ih (fun n => stores (n + 1))
      (fun n hn => hstep (n + 1) (Nat.succ_lt_succ hn)) hzero
    rw [Nat.succ_mul, Nat.add_comm (m * cost)]
    exact .again hcell hrun hagain

/-- **A counting loop in the structured language.** -/
theorem Block.iterates_of_counts {block : Block} {w : List Symbol}
    (hruns : ∀ s : Store, block.Runs s (s.withTape (s.tape.applyAll w)) w.length) {s : Store} {m : Nat}
    (htape : s.tape.WellFormed) (hreturns : s.tape.Returns w) (hcounts : s.tape.Counts w m) :
    Iterates block.Runs m s (s.withTape (s.tape.rounds w m)) (m * w.length) := by
  refine Iterates.of_forall_lt (fun n => s.withTape (s.tape.rounds w n))
    (fun n hn => ⟨fun hzero => ?_, hruns _⟩) ?_
  · exact Nat.ne_of_lt hn
      ((hcounts.read_rounds_eq_zero_iff htape hreturns (Nat.le_of_lt hn)).mp hzero)
  · exact (hcounts.read_rounds_eq_zero_iff htape hreturns (Nat.le_refl m)).mpr rfl

namespace Source

/-- **Counting loops come to their end with a linear effect.**  The program is one loop around
straight-line instructions that bring the pointer back to where it was.  If they take one from the
current cell, modulo the number of its values, the loop ends after as many iterations as the value of
the cell; if they add one, it ends when the cell has wrapped.  Then the current cell is zero, and every
other cell has its value plus what one iteration adds to it, times the number of iterations.  The loop
spends one instruction for its start, and in each iteration those of the body and one more.  It writes
nothing and reads nothing. -/
theorem exists_yields_of_counts {source : Source} {body : List Symbol}
    (hsource : source.symbols = .opening :: (body ++ [.closing]))
    (hbody : ∀ symbol ∈ body, symbol.isStraight) {tape : Tape} (htape : tape.WellFormed)
    (hreturns : tape.Returns body) {m : Nat} (hcounts : tape.Counts body m) (input : List UInt8) :
    ∃ result, (∀ other, source.Yields tape input other ↔ other = result) ∧
      (∃ block store, Block.ofSymbols? body = some block ∧ store.tape = result.tape ∧
        Iterates block.Runs m (.start tape input) store (m * body.length)) ∧
      result.instructions = 1 + m * (body.length + 1) ∧ result.output = [] ∧
      result.inputConsumed = 0 ∧
      result.tape.width = tape.width ∧ result.tape.size = tape.size ∧
      result.tape.pointer = tape.pointer ∧ result.tape.read = 0 ∧
      ∀ k < tape.size, k ≠ tape.pointer →
        (result.tape.valueAt k : ℤ) =
          ((tape.valueAt k : ℤ) + m * tape.netAt body k) % 2 ^ tape.width.bits := by
  obtain ⟨block, rfl, hruns⟩ := Block.exists_runs_of_isStraight hbody
  have hspelt : (Block.loop block .done).SpeltBy source.chars := hsource
  have hiterates : Iterates block.Runs m (.start tape input) _ (m * block.symbols.length) :=
    Block.iterates_of_counts hruns htape hreturns hcounts
  have hyields := hspelt.yields_iff.mpr ⟨_, _, ⟨m, _, _, 0, hiterates, ⟨rfl, rfl⟩, rfl⟩, rfl⟩
  refine ⟨_, fun other => hyields.iff_eq, ⟨block, _, Block.ofSymbols?_eq_some_iff.mpr rfl, rfl,
    hiterates⟩, ?_, rfl, rfl, tape.width_rounds _ _, tape.size_rounds _ _,
    htape.pointer_rounds hreturns m, ?_, fun k _ _ => ?_⟩
  · simp only [Nat.mul_add, Nat.mul_one]
    omega
  · exact (hcounts.read_rounds_eq_zero_iff htape hreturns (Nat.le_refl m)).mpr rfl
  · have hvalue := htape.valueAt_rounds hreturns m k
    rw [tape.width.modulus_eq] at hvalue
    push_cast at hvalue
    exact hvalue

/-- On a tape of two cells the body comes back round the tape.  It adds one to the current cell and wraps
the other one. -/
theorem exists_yields_of_counts_of_two_cells :
    ((ofLines ["[++> other -", "> back -]"]).symbols =
        .opening :: ([.increment, .increment, .right, .decrement, .right, .decrement] ++ [.closing]) ∧
      (∀ symbol ∈ [Symbol.increment, .increment, .right, .decrement, .right, .decrement],
        symbol.isStraight) ∧
      (⟨.bits8, #[253, 1], 0⟩ : Tape).WellFormed ∧
      (⟨.bits8, #[253, 1], 0⟩ : Tape).Returns
        [.increment, .increment, .right, .decrement, .right, .decrement] ∧
      (⟨.bits8, #[253, 1], 0⟩ : Tape).Counts
        [.increment, .increment, .right, .decrement, .right, .decrement] 3) ∧
    ∃ result, (ofLines ["[++> other -", "> back -]"]).Yields ⟨.bits8, #[253, 1], 0⟩ [] result ∧
      result.instructions = 22 ∧ result.tape.pointer = 0 ∧ result.tape.read = 0 ∧
      (result.tape.valueAt 1 : ℤ) = 254 := by
  have hsource : (ofLines ["[++> other -", "> back -]"]).symbols =
      .opening :: ([.increment, .increment, .right, .decrement, .right, .decrement] ++ [.closing]) := by
    decide
  have hbody : ∀ symbol ∈ [Symbol.increment, .increment, .right, .decrement, .right, .decrement],
      symbol.isStraight := by decide
  have htape : (⟨.bits8, #[253, 1], 0⟩ : Tape).WellFormed := ⟨by decide, by decide⟩
  have hreturns : (⟨.bits8, #[253, 1], 0⟩ : Tape).Returns
      [.increment, .increment, .right, .decrement, .right, .decrement] := by
    rw [Tape.Returns]
    decide
  have hcounts : (⟨.bits8, #[253, 1], 0⟩ : Tape).Counts
      [.increment, .increment, .right, .decrement, .right, .decrement] 3 := by
    rw [Tape.Counts]
    decide
  obtain ⟨result, hyields, -, hinstructions, -, -, -, -, hpointer, hread, hvalue⟩ :=
    exists_yields_of_counts hsource hbody htape hreturns hcounts []
  exact ⟨⟨hsource, hbody, htape, hreturns, hcounts⟩, result, (hyields result).mpr rfl, hinstructions,
    hpointer, hread, hvalue 1 (by decide) (by decide)⟩

end Source

end TapeMachine
