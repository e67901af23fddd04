import Mathlib.Logic.Relation
import TapeMachine.Machine

/-!
# Runs as sequences of steps

A run is given how many positions it may visit, and that number says nothing about the program.
Here a run is a sequence of steps of any length, which needs no number: it finishes if it leads to a
machine that has halted.  Steps are deterministic, so a run that finishes cannot also go on for ever,
and it finishes in one way only.

## Main definitions

* `Code.StepCase` — what can happen at a position, and when.
* `Code.Next` — one step: a comment character passed over, or an instruction executed.
* `Code.Reaches`, `Code.Finishes` — any number of steps, and steps up to a machine that has halted.
* `Code.Terminates` — no sequence of steps goes on for ever.
* `Source.Yields` — the result of a complete run of a program.

## Main results

* `Code.stepCase`, `Code.act_of_step_eq_executed`, `Code.next_iff` — what a step can have done.
* `Code.exists_run_eq_finished_iff` — a run with enough positions finishes where the steps do.
* `Code.Finishes.unique`, `Code.Finishes.terminates` — one end, and no way round it.
* `Source.yields_iff` — the result of a program, by steps.
-/

namespace TapeMachine

namespace Code

variable {code : Code} {m m' m₁ m₂ : Machine}

/-- One step of the machine leads from `m` to `m'`. -/
def Next (code : Code) (m m' : Machine) : Prop :=
  code.step m = .skipped m' ∨ ∃ event, code.step m = .executed m' event

/-- Any number of steps lead from `m` to `m'`. -/
def Reaches (code : Code) : Machine → Machine → Prop :=
  Relation.ReflTransGen code.Next

/-- The run from `m` comes to its end at `m'`. -/
def Finishes (code : Code) (m m' : Machine) : Prop :=
  code.Reaches m m' ∧ code.step m' = .halted m'

/-- No sequence of steps from `m` goes on for ever: a machine that is reached from `m` by at least one
step is nearer to an end. -/
def Terminates (code : Code) (m : Machine) : Prop :=
  Acc (fun m₂ m₁ => Relation.TransGen code.Next m₁ m₂) m

/-! ### What a step does -/

theorem step_of_end (h : code.chars[m.position]? = none) : code.step m = .halted m := by
  rw [step, h]

theorem step_of_comment {c : Char} (h : code.chars[m.position]? = some c)
    (hc : Symbol.ofChar? c = none) :
    code.step m = .skipped { m with position := m.position + 1 } := by
  rw [step, h]
  simp only [hc]

theorem step_of_symbol {c : Char} {symbol : Symbol} (h : code.chars[m.position]? = some c)
    (hc : Symbol.ofChar? c = some symbol) : code.step m = code.execute m symbol := by
  rw [step, h]
  simp only [hc]

theorem execute_of_not_jumps {symbol : Symbol} (h : symbol.jumps m.tape.read = false) :
    code.execute m symbol = .executed ((m.act symbol).moveOn m.position)
      ⟨m.executed, m.position, m.tape.pointer, m.tape.read, (m.act symbol).tape.read, symbol,
        if symbol = .output then some m.written else none⟩ := by
  simp [execute, h]

theorem execute_of_jumps {symbol : Symbol} {partner : Nat} (h : symbol.jumps m.tape.read = true)
    (hpartner : code.table.partner? m.position = some partner) :
    code.execute m symbol = .executed (m.moveOn partner)
      ⟨m.executed, partner, m.tape.pointer, m.tape.read, m.tape.read, symbol, none⟩ := by
  simp [execute, h, hpartner]

theorem execute_of_no_partner {symbol : Symbol} (h : symbol.jumps m.tape.read = true)
    (hpartner : code.table.partner? m.position = none) :
    code.execute m symbol = .failed m (.notABracket m.position code.chars[m.position]?) := by
  simp [execute, h, hpartner]

/-- What can happen at the position of `m`, and when. -/
inductive StepCase (code : Code) (m : Machine) : Step → Prop
  /-- Behind the program the run is over. -/
  | halted (hchar : code.chars[m.position]? = none) : StepCase code m (.halted m)
  /-- A comment character changes the position only. -/
  | skipped {c : Char} (hchar : code.chars[m.position]? = some c) (hc : Symbol.ofChar? c = none) :
      StepCase code m (.skipped { m with position := m.position + 1 })
  /-- An instruction that does not jump acts. -/
  | acted {c : Char} {symbol : Symbol} (hchar : code.chars[m.position]? = some c)
      (hc : Symbol.ofChar? c = some symbol) (hjumps : symbol.jumps m.tape.read = false) :
      StepCase code m (.executed ((m.act symbol).moveOn m.position)
        ⟨m.executed, m.position, m.tape.pointer, m.tape.read, (m.act symbol).tape.read, symbol,
          if symbol = .output then some m.written else none⟩)
  /-- A bracket that jumps goes behind its partner. -/
  | jumped {c : Char} {symbol : Symbol} {target : Nat} (hchar : code.chars[m.position]? = some c)
      (hc : Symbol.ofChar? c = some symbol) (hjumps : symbol.jumps m.tape.read = true)
      (hpartner : code.table.partner? m.position = some target) :
      StepCase code m (.executed (m.moveOn target)
        ⟨m.executed, target, m.tape.pointer, m.tape.read, m.tape.read, symbol, none⟩)
  /-- It fails if it has none. -/
  | failed {c : Char} {symbol : Symbol} (hchar : code.chars[m.position]? = some c)
      (hc : Symbol.ofChar? c = some symbol) (hjumps : symbol.jumps m.tape.read = true)
      (hpartner : code.table.partner? m.position = none) :
      StepCase code m (.failed m (.notABracket m.position code.chars[m.position]?))

/-- **What happens is one of these cases.** -/
theorem stepCase (code : Code) (m : Machine) : code.StepCase m (code.step m) := by
  cases hchar : code.chars[m.position]? with
  | none =>
    rw [step_of_end hchar]
    exact .halted hchar
  | some c =>
    cases hc : Symbol.ofChar? c with
    | none =>
      rw [step_of_comment hchar hc]
      exact .skipped hchar hc
    | some symbol =>
      rw [step_of_symbol hchar hc]
      cases hjumps : symbol.jumps m.tape.read with
      | false =>
        rw [execute_of_not_jumps hjumps]
        exact .acted hchar hc hjumps
      | true =>
        cases hpartner : code.table.partner? m.position with
        | none =>
          rw [execute_of_no_partner hjumps hpartner]
          exact .failed hchar hc hjumps hpartner
        | some target =>
          rw [execute_of_jumps hjumps hpartner]
          exact .jumped hchar hc hjumps hpartner

theorem eq_of_step_eq_halted (h : code.step m = .halted m') : m' = m := by
  have hcase := code.stepCase m
  rw [h] at hcase
  cases hcase
  rfl

/-- A bracket that jumps does nothing else. -/
theorem act_of_jumps {symbol : Symbol} {cell : Nat} (h : symbol.jumps cell = true) :
    m.act symbol = m := by
  cases symbol with
  | opening => rfl
  | closing => rfl
  | _ => cases h

/-- **What an executed instruction has done.**  It is the one at the position, it has acted, and the
machine has moved on: behind the partner of a bracket that jumped, and else behind itself. -/
theorem act_of_step_eq_executed {event : Event} (h : code.step m = .executed m' event) :
    ∃ c target, code.chars[m.position]? = some c ∧ Symbol.ofChar? c = some event.symbol ∧
      m' = (m.act event.symbol).moveOn target ∧
      (event.symbol.jumps m.tape.read = false ∧ target = m.position ∨
        event.symbol.jumps m.tape.read = true ∧ code.table.partner? m.position = some target) := by
  have hcase := code.stepCase m
  rw [h] at hcase
  cases hcase with
  | acted hchar hc hjumps => exact ⟨_, m.position, hchar, hc, rfl, .inl ⟨hjumps, rfl⟩⟩
  | jumped hchar hc hjumps hpartner =>
    exact ⟨_, _, hchar, hc, by rw [act_of_jumps hjumps], .inr ⟨hjumps, hpartner⟩⟩

/-- A comment character that is passed over changes the position only. -/
theorem eq_of_step_eq_skipped (h : code.step m = .skipped m') :
    ∃ c, code.chars[m.position]? = some c ∧ Symbol.ofChar? c = none ∧
      m' = { m with position := m.position + 1 } := by
  have hcase := code.stepCase m
  rw [h] at hcase
  cases hcase with
  | skipped hchar hc => exact ⟨_, hchar, hc, rfl⟩

theorem next_of_comment {c : Char} (hchar : code.chars[m.position]? = some c)
    (hc : Symbol.ofChar? c = none) : code.Next m { m with position := m.position + 1 } :=
  .inl (step_of_comment hchar hc)

theorem next_of_symbol {c : Char} {symbol : Symbol} {target : Nat}
    (hchar : code.chars[m.position]? = some c) (hc : Symbol.ofChar? c = some symbol)
    (htarget : symbol.jumps m.tape.read = false ∧ target = m.position ∨
      symbol.jumps m.tape.read = true ∧ code.table.partner? m.position = some target) :
    code.Next m ((m.act symbol).moveOn target) := by
  rcases htarget with ⟨hjumps, rfl⟩ | ⟨hjumps, hpartner⟩
  · exact .inr ⟨_, (step_of_symbol hchar hc).trans (execute_of_not_jumps hjumps)⟩
  · rw [act_of_jumps hjumps]
    exact .inr ⟨_, (step_of_symbol hchar hc).trans (execute_of_jumps hjumps hpartner)⟩

/-- What every step is. -/
theorem next_iff : code.Next m m' ↔
    (∃ c, code.chars[m.position]? = some c ∧ Symbol.ofChar? c = none ∧
      m' = { m with position := m.position + 1 }) ∨
    ∃ c symbol target, code.chars[m.position]? = some c ∧ Symbol.ofChar? c = some symbol ∧
      (symbol.jumps m.tape.read = false ∧ target = m.position ∨
        symbol.jumps m.tape.read = true ∧ code.table.partner? m.position = some target) ∧
      m' = (m.act symbol).moveOn target := by
  constructor
  · rintro (hskipped | ⟨event, hexecuted⟩)
    · exact .inl (eq_of_step_eq_skipped hskipped)
    · obtain ⟨c, target, hchar, hc, rfl, htarget⟩ := act_of_step_eq_executed hexecuted
      exact .inr ⟨c, event.symbol, target, hchar, hc, htarget, rfl⟩
  · rintro (⟨c, hchar, hc, rfl⟩ | ⟨c, symbol, target, hchar, hc, htarget, rfl⟩)
    · exact next_of_comment hchar hc
    · exact next_of_symbol hchar hc htarget

/-- All that a step can do to the tape. -/
theorem Next.tape_cases (h : code.Next m m') :
    m'.tape = m.tape ∨ (∃ value, m'.tape = m.tape.write value) ∨ m'.tape = m.tape.moveRight ∨
      m'.tape = m.tape.moveLeft := by
  rcases next_iff.mp h with ⟨c, -, -, rfl⟩ | ⟨c, symbol, target, -, -, -, rfl⟩
  · exact .inl rfl
  · cases symbol with
    | increment => exact .inr (.inl ⟨_, rfl⟩)
    | decrement => exact .inr (.inl ⟨_, rfl⟩)
    | right => exact .inr (.inr (.inl rfl))
    | left => exact .inr (.inr (.inr rfl))
    | input =>
      cases hdecode : m.tape.width.decode? m.unread with
      | none => exact .inl (by simp [Machine.moveOn, Machine.act, Machine.readInput, hdecode])
      | some decoded =>
        exact .inr (.inl ⟨decoded.value, by
          simp [Machine.moveOn, Machine.act, Machine.readInput, hdecode]⟩)
    | output => exact .inl rfl
    | opening => exact .inl rfl
    | closing => exact .inl rfl

/-- The width of the cells does not change. -/
theorem Next.width_eq (h : code.Next m m') : m'.tape.width = m.tape.width := by
  rcases h.tape_cases with htape | ⟨value, htape⟩ | htape | htape <;> rw [htape] <;> rfl

/-! ### Steps are deterministic -/

theorem Next.unique (h₁ : code.Next m m₁) (h₂ : code.Next m m₂) : m₁ = m₂ := by
  rcases h₁ with h₁ | ⟨event₁, h₁⟩ <;> rcases h₂ with h₂ | ⟨event₂, h₂⟩ <;> rw [h₁] at h₂ <;>
    cases h₂ <;> rfl

theorem not_next_of_halted (h : code.step m = .halted m) : ¬ code.Next m m' := by
  rintro (hnext | ⟨event, hnext⟩) <;> rw [h] at hnext <;> cases hnext

theorem Reaches.eq_of_halted (h : code.Reaches m m') (hhalted : code.step m = .halted m) :
    m' = m := by
  rcases Relation.ReflTransGen.cases_head h with rfl | ⟨m₁, hnext, -⟩
  · rfl
  · exact absurd hnext (not_next_of_halted hhalted)

theorem Finishes.unique (h₁ : code.Finishes m m₁) (h₂ : code.Finishes m m₂) : m₁ = m₂ := by
  have hunique : Relator.RightUnique code.Next := fun _ _ _ => Next.unique
  rcases Relation.ReflTransGen.total_of_right_unique hunique h₁.1 h₂.1 with h | h
  · exact (Reaches.eq_of_halted h h₁.2).symm
  · exact Reaches.eq_of_halted h h₂.2

/-! ### Termination -/

theorem Terminates.of_reaches (h : code.Terminates m) (hreach : code.Reaches m m') :
    code.Terminates m' := by
  rcases Relation.reflTransGen_iff_eq_or_transGen.mp hreach with rfl | hreach
  · exact h
  · exact h.inv hreach

/-- **A run that finishes does not go on for ever.** -/
theorem Finishes.terminates (h : code.Finishes m m') : code.Terminates m := by
  have hacc : Acc (Function.swap code.Next) m := by
    obtain ⟨hreach, hhalted⟩ := h
    -- from the far end: the only step there is leads to a machine that is nearer to it
    induction hreach using Relation.ReflTransGen.head_induction_on with
    | refl => exact .intro _ fun m₁ hnext => absurd hnext (not_next_of_halted hhalted)
    | head hnext _ ih => exact .intro _ fun m₁ hnext' => Next.unique hnext hnext' ▸ ih
  -- the transitive closure of the steps read backwards is that of the steps, read backwards
  exact Subrelation.accessible (fun h => Relation.transGen_swap.mpr h) hacc.transGen

/-! ### Runs with a bound -/

section

variable {σ : Type} {watch : σ → Event → σ} {seen seen' : σ}

theorem finishes_of_run {fuel : Nat} (h : code.run watch fuel m seen = .finished m' seen') :
    code.Finishes m m' := by
  induction fuel generalizing m seen with
  | zero => cases h
  | succ fuel ih =>
    unfold run at h
    cases hstep : code.step m with
    | halted m₁ =>
      rw [hstep] at h
      cases h
      obtain rfl := eq_of_step_eq_halted hstep
      exact ⟨.refl, hstep⟩
    | skipped m₁ =>
      rw [hstep] at h
      exact ⟨.head (.inl hstep) (ih h).1, (ih h).2⟩
    | executed m₁ event =>
      rw [hstep] at h
      exact ⟨.head (.inr ⟨event, hstep⟩) (ih h).1, (ih h).2⟩
    | failed m₁ error => rw [hstep] at h; cases h

theorem exists_run_of_finishes (watch : σ → Event → σ) (h : code.Finishes m m') :
    ∀ seen, ∃ fuel seen', code.run watch fuel m seen = .finished m' seen' := by
  obtain ⟨hreach, hhalted⟩ := h
  induction hreach using Relation.ReflTransGen.head_induction_on with
  | refl =>
    intro seen
    exact ⟨1, seen, by rw [run, hhalted]⟩
  | head hnext _ ih =>
    intro seen
    rcases hnext with hstep | ⟨event, hstep⟩
    · obtain ⟨fuel, seen', hrun⟩ := ih seen
      exact ⟨fuel + 1, seen', by rw [run, hstep]; exact hrun⟩
    · obtain ⟨fuel, seen', hrun⟩ := ih (watch seen event)
      exact ⟨fuel + 1, seen', by rw [run, hstep]; exact hrun⟩

/-- **A run with enough positions finishes where the steps do**, whoever watches. -/
theorem exists_run_eq_finished_iff :
    (∃ fuel seen', code.run watch fuel m seen = .finished m' seen') ↔ code.Finishes m m' :=
  ⟨fun ⟨_, _, h⟩ => finishes_of_run h, fun h => exists_run_of_finishes watch h seen⟩

end

end Code

/-! ### Complete runs of a program -/

namespace Source

/-- A complete run of the program from a tape and on an input has this result. -/
def Yields (source : Source) (tape : Tape) (input : List UInt8) (result : Execution) : Prop :=
  ∃ fuel, source.execute fuel tape input = some (.ok result)

/-- **The result of a program, by steps.** -/
theorem yields_iff {source : Source} {code : Code} (hcode : source.compile = .ok code) {tape : Tape}
    {input : List UInt8} {result : Execution} :
    source.Yields tape input result ↔
      ∃ m, code.Finishes (.start tape input) m ∧ m.execution = result := by
  constructor
  · rintro ⟨fuel, h⟩
    rw [execute, observe, hcode] at h
    cases hrun : code.run (fun _ _ => ()) fuel (.start tape input) () with
    | running m seen => simp [hrun] at h
    | finished m seen =>
      simp only [hrun, Option.map_some, Option.some.injEq, Except.ok.injEq] at h
      exact ⟨m, Code.exists_run_eq_finished_iff.mp ⟨fuel, seen, hrun⟩, h⟩
    | failed m error seen => simp [hrun] at h
  · rintro ⟨m, h, rfl⟩
    obtain ⟨fuel, seen, hrun⟩ := (@Code.exists_run_eq_finished_iff code _ m Unit (fun _ _ => ()) ()).mpr h
    exact ⟨fuel, by simp [execute, observe, hcode, hrun]⟩

/-- A program that has come to its end was ready to run, and its steps lead there. -/
theorem exists_finishes_of_execute {source : Source} {fuel : Nat} {tape : Tape} {input : List UInt8}
    {result : Execution} (h : source.execute fuel tape input = some (.ok result)) :
    ∃ code m, source.compile = .ok code ∧ code.Finishes (.start tape input) m ∧
      m.execution = result := by
  cases hcode : source.compile with
  | error error =>
    rw [execute, observe, hcode] at h
    cases h
  | ok code =>
    obtain ⟨m, hfinishes, hresult⟩ := (yields_iff hcode).mp ⟨fuel, h⟩
    exact ⟨code, m, rfl, hfinishes, hresult⟩

/-- **A program has one result at most.** -/
theorem Yields.unique {source : Source} {tape : Tape} {input : List UInt8} {result other : Execution}
    (h : source.Yields tape input result) (h' : source.Yields tape input other) : result = other := by
  obtain ⟨fuel, hexecute⟩ := h
  obtain ⟨code, m, hcode, hfinishes, rfl⟩ := exists_finishes_of_execute hexecute
  obtain ⟨m', hfinishes', rfl⟩ := (yields_iff hcode).mp h'
  rw [hfinishes.unique hfinishes']

/-- The one result of a program that has one. -/
theorem Yields.iff_eq {source : Source} {tape : Tape} {input : List UInt8} {result other : Execution}
    (h : source.Yields tape input result) : source.Yields tape input other ↔ other = result :=
  ⟨fun h' => h'.unique h, fun heq => heq ▸ h⟩

end Source

end TapeMachine
