import Mathlib.Logic.ExistsUnique
import TapeMachine.Proofs.Characters
import TapeMachine.Proofs.Machine.Rejection

/-!
# What an observer sees

An observer is told of every instruction that is executed, in order, and takes no part in the run: its
presence changes neither where the run goes nor what comes out.  An observer that passes on what is
written calls its sink once for each instruction that writes, and the calls one after the other are the
output.  With wide cells each call is one character, so the output is a text.

## Main definitions

* `Code.Visits` — a run with all machines that it goes through.
* `Code.event?` — what an observer is told of the step from a machine.
* `keepCalls` — the observer that passes on what is written to a sink that keeps its calls.

## Main results

* `Code.map_run` — a run does not look at its observer.
* `Code.visits_of_run` — an observer has seen the events of the machines on the way.
* `Code.Visits.filterMap_written`, `Code.Visits.output_eq` — what is written on the way.
* `Source.observe_keepCalls` — the calls of the sink are the output.
-/

namespace TapeMachine

/-- The observer that passes on the bytes of every write to a sink, which keeps its calls. -/
def keepCalls (calls : List (List UInt8)) (event : Event) : List (List UInt8) :=
  calls ++ event.written.toList

theorem foldl_keepCalls (events : List Event) : ∀ calls : List (List UInt8),
    events.foldl keepCalls calls = calls ++ events.filterMap Event.written := by
  induction events with
  | nil => simp
  | cons event events ih =>
    intro calls
    rw [List.foldl_cons, ih, keepCalls]
    cases hwritten : event.written <;> simp [hwritten]

namespace Code

variable {code : Code} {m m' m₁ : Machine} {visited : List Machine} {σ τ : Type}

/-- **A run does not look at its observer.**  If two observers agree, up to a view of what they have
seen, on what each event adds, then the same run goes on under the eyes of both. -/
theorem map_run {watch : σ → Event → σ} {watch' : τ → Event → τ} {f : σ → τ}
    (hf : ∀ seen event, f (watch seen event) = watch' (f seen) event) (code : Code) (fuel : Nat) :
    ∀ (m : Machine) (seen : σ),
      (code.run watch fuel m seen).map f = code.run watch' fuel m (f seen) := by
  induction fuel with
  | zero => intro m seen; rfl
  | succ fuel ih =>
    intro m seen
    rw [run, run]
    cases code.step m with
    | halted m₁ => rfl
    | skipped m₁ => exact ih m₁ seen
    | executed m₁ event => exact (ih m₁ (watch seen event)).trans (by rw [hf])
    | failed m₁ error => rfl

/-- A run goes where it goes without an observer. -/
theorem map_run_unwatched (watch : σ → Event → σ) (code : Code) (fuel : Nat) (m : Machine) (seen : σ) :
    (code.run watch fuel m seen).map (fun _ => ()) = code.run (fun _ _ => ()) fuel m () :=
  map_run (fun _ _ => rfl) code fuel m seen

/-! ### The machines on the way -/

/-- `code.Visits m visited m'` says that a run from `m` has come to `m'`, and that `visited` are the
machines on the way, from `m` to the last one in front of `m'`. -/
inductive Visits (code : Code) : Machine → List Machine → Machine → Prop
  /-- There is nothing on the way from a machine to itself. -/
  | here (m : Machine) : Visits code m [] m
  /-- A step puts one more machine in front. -/
  | step {m m₁ m' : Machine} {visited : List Machine} (hnext : code.Next m m₁)
      (hvisits : Visits code m₁ visited m') : Visits code m (m :: visited) m'

/-- What an observer is told of the step from `m`, if it executes an instruction. -/
def event? (code : Code) (m : Machine) : Option Event :=
  match code.step m with
  | .executed _ event => some event
  | _ => none

/-- Whether the instruction at the position of `m` writes. -/
def writes (code : Code) (m : Machine) : Bool :=
  code.chars[m.position]?.bind Symbol.ofChar? == some .output

/-- **An observer has seen the events of the machines on the way**, in order. -/
theorem visits_of_run {watch : σ → Event → σ} {fuel : Nat} : ∀ {m : Machine} {seen seen' : σ},
    code.run watch fuel m seen = .finished m' seen' →
      ∃ visited, code.Visits m visited m' ∧ code.step m' = .halted m' ∧
        seen' = (visited.filterMap code.event?).foldl watch seen := by
  induction fuel with
  | zero =>
    intro m seen seen' h
    cases h
  | succ fuel ih =>
    intro m seen seen' h
    rw [run] at h
    cases hstep : code.step m with
    | halted m₁ =>
      rw [hstep] at h
      cases h
      obtain rfl := eq_of_step_eq_halted hstep
      exact ⟨[], .here _, hstep, rfl⟩
    | skipped m₁ =>
      rw [hstep] at h
      obtain ⟨visited, hvisits, hhalted, rfl⟩ := ih h
      have hevent : code.event? m = none := by rw [event?, hstep]
      exact ⟨m :: visited, .step (.inl hstep) hvisits, hhalted, by
        rw [List.filterMap_cons_none hevent]⟩
    | executed m₁ event =>
      rw [hstep] at h
      obtain ⟨visited, hvisits, hhalted, rfl⟩ := ih h
      have hevent : code.event? m = some event := by rw [event?, hstep]
      exact ⟨m :: visited, .step (.inr ⟨event, hstep⟩) hvisits, hhalted, by
        rw [List.filterMap_cons_some hevent, List.foldl_cons]⟩
    | failed m₁ error =>
      rw [hstep] at h
      cases h

/-! ### What is written on the way -/

theorem toList_output_act (m : Machine) (symbol : Symbol) :
    (m.act symbol).output.toList = m.output.toList ++ if symbol = .output then m.written else [] := by
  cases symbol with
  | output => simp [Machine.act, Machine.writeOutput]
  | input =>
    rw [Machine.act, Machine.readInput]
    split <;> simp
  | _ => simp [Machine.act]

/-- A step writes if its instruction does, and then an observer is told of the bytes that go to the
output. -/
theorem Next.written (h : code.Next m m') :
    (code.event? m).bind Event.written = (if code.writes m then some m.written else none) ∧
      m'.output.toList = m.output.toList ++ if code.writes m then m.written else [] := by
  have hcase := code.stepCase m
  rcases h with hstep | ⟨event, hstep⟩
  · rw [hstep] at hcase
    cases hcase with
    | skipped hchar hc => simp [event?, hstep, writes, hchar, hc]
  · have hevent : code.event? m = some event := by rw [event?, hstep]
    rw [hevent, Option.bind_some]
    rw [hstep] at hcase
    cases hcase with
    | @acted c symbol hchar hc hjumps =>
      have hwrites : code.writes m = decide (symbol = .output) := by
        simp [writes, hchar, hc, Bool.beq_eq_decide_eq]
      simp only [hwrites, decide_eq_true_eq, true_and]
      exact toList_output_act m symbol
    | @jumped c symbol target hchar hc hjumps hpartner =>
      -- a bracket writes nothing
      have hwrites : code.writes m = false := by
        rcases Symbol.eq_bracket_of_jumps hjumps with rfl | rfl <;> simp [writes, hchar, hc]
      simp [hwrites, Machine.moveOn]

/-- **The bytes that an observer is told of** are those that the machines on the way write, in order. -/
theorem Visits.filterMap_written (h : code.Visits m visited m') :
    (visited.filterMap code.event?).filterMap Event.written =
      (visited.filter code.writes).map Machine.written := by
  induction h with
  | here => rfl
  | @step m m₁ m' visited hnext _ ih =>
    rw [List.filterMap_filterMap] at ih ⊢
    rw [List.filterMap_cons, ih, hnext.written.1]
    cases hwrites : code.writes m <;> simp [hwrites]

/-- **The output is what the machines on the way write**, one after the other. -/
theorem Visits.output_eq (h : code.Visits m visited m') :
    m'.output.toList = m.output.toList ++
      ((visited.filter code.writes).map Machine.written).flatten := by
  induction h with
  | here => simp
  | @step m m₁ m' visited hnext _ ih =>
    rw [ih, hnext.written.2]
    cases hwrites : code.writes m <;> simp [hwrites]

theorem Visits.width_eq (h : code.Visits m visited m') :
    ∀ m₁ ∈ visited, m₁.tape.width = m.tape.width := by
  induction h with
  | here => simp
  | step hnext _ ih =>
    intro m₁ hmem
    rcases List.mem_cons.mp hmem with rfl | hmem
    · rfl
    · rw [ih m₁ hmem, hnext.width_eq]

/-- With wide cells, everything that is written at once is one character. -/
theorem Visits.existsUnique_char (h : code.Visits m visited m') (hwide : m.tape.width ≠ .bits8) :
    ∀ call ∈ (visited.filter code.writes).map Machine.written,
      ∃! c : Char, call = String.utf8EncodeChar c := by
  intro call hcall
  obtain ⟨m₁, hmem, rfl⟩ := List.mem_map.mp hcall
  have hwidth := h.width_eq m₁ (List.mem_filter.mp hmem).1
  rw [← hwidth] at hwide
  have hwritten : m₁.written = String.utf8EncodeChar (Utf8.scalar m₁.tape.read) :=
    CellWidth.encode_of_ne_bits8 hwide _
  refine ⟨_, hwritten, fun c hc => ?_⟩
  exact Utf8.utf8EncodeChar_injective (hc.symm.trans hwritten)

end Code

namespace Source

/-- **Nobody is disturbed by being watched**: whoever watches, a run has the same result, or none yet. -/
theorem map_fst_observe {σ : Type} (source : Source) (watch : σ → Event → σ) (seen : σ) (fuel : Nat)
    (tape : Tape) (input : List UInt8) :
    (source.observe watch seen fuel tape input).map Prod.fst = source.execute fuel tape input := by
  rw [execute, observe, observe]
  cases source.compile with
  | error error => rfl
  | ok code =>
    dsimp only
    rw [← Code.map_run_unwatched watch code fuel (.start tape input) seen]
    cases code.run watch fuel (.start tape input) seen <;> rfl

theorem execute_of_observe {σ : Type} {source : Source} {watch : σ → Event → σ} {seen seen' : σ}
    {fuel : Nat} {tape : Tape} {input : List UInt8} {result : Except RunError Execution}
    (h : source.observe watch seen fuel tape input = some (result, seen')) :
    source.execute fuel tape input = some result := by
  rw [← source.map_fst_observe watch seen, h]
  rfl

/-- **The calls of the sink are the output.**  Whoever watches an accepted program, its run has the same
result.  If it comes to an end and a sink is called with what is written, then the sink is called once
for each instruction that writes, in the order in which they are executed, with the bytes of the cell
under the pointer at that moment; and its calls one after the other are the output.  With wide cells
each call is the bytes of one character, so the output is a text in UTF-8. -/
theorem observe_keepCalls {source : Source} (h : source.syntaxError? = none) (tape : Tape)
    (input : List UInt8) :
    (∀ {σ : Type} (watch : σ → Event → σ) seen fuel,
      (source.observe watch seen fuel tape input).map Prod.fst = source.execute fuel tape input) ∧
    ∃ code, source.compile = .ok code ∧
      ∀ fuel result, source.execute fuel tape input = some (.ok result) → ∃ calls visited m,
        source.observe keepCalls [] fuel tape input = some (.ok result, calls) ∧
        code.Visits (.start tape input) visited m ∧ code.step m = .halted m ∧
        m.execution = result ∧
        calls = (visited.filter code.writes).map (fun m => m.tape.width.encode m.tape.read) ∧
        calls.flatten = result.output ∧
        (tape.width ≠ .bits8 →
          (∀ call ∈ calls, ∃! c : Char, call = String.utf8EncodeChar c) ∧
          Utf8.WellFormed result.output) := by
  obtain ⟨code, hcode, -, -⟩ := exists_compile_eq_ok h
  refine ⟨fun watch seen fuel => source.map_fst_observe watch seen fuel tape input, code, hcode, ?_⟩
  intro fuel result hexecute
  rw [← source.map_fst_observe keepCalls [] fuel tape input] at hexecute
  obtain ⟨⟨_, calls⟩, hobserve, rfl⟩ := Option.map_eq_some_iff.mp hexecute
  have hrun := hobserve
  rw [observe, hcode] at hrun
  cases hprogress : code.run keepCalls fuel (.start tape input) [] with
  | running m seen => simp [hprogress] at hrun
  | failed m error seen => simp [hprogress] at hrun
  | finished m seen =>
    simp only [hprogress, Option.some.injEq, Prod.mk.injEq, Except.ok.injEq] at hrun
    obtain ⟨rfl, rfl⟩ := hrun
    obtain ⟨visited, hvisits, hhalted, rfl⟩ := Code.visits_of_run hprogress
    have hcalls : (visited.filterMap code.event?).foldl keepCalls [] =
        (visited.filter code.writes).map Machine.written := by
      rw [foldl_keepCalls, List.nil_append, hvisits.filterMap_written]
    have houtput : ((visited.filter code.writes).map Machine.written).flatten =
        m.execution.output := hvisits.output_eq.symm
    refine ⟨_, visited, m, hobserve, hvisits, hhalted, rfl, hcalls, by rw [hcalls, houtput], ?_⟩
    intro hwide
    have hchars := hvisits.existsUnique_char hwide
    rw [hcalls, ← houtput]
    exact ⟨hchars, Utf8.wellFormed_flatten fun call hcall => (hchars call hcall).exists⟩

/-- A 16-bit cell is written before and after it comes to hold a surrogate. -/
theorem observe_keepCalls_of_surrogate :
    (ofLines [".+."]).syntaxError? = none ∧
    ∃ calls,
      (ofLines [".+."]).observe keepCalls [] 4 ⟨.bits16, #[0xd7ff], 0⟩ [] =
        some (.ok ⟨[0xed, 0x9f, 0xbf, 0xef, 0xbf, 0xbd], ⟨.bits16, #[0xd800], 0⟩, 3, 0⟩, calls) ∧
      (∀ call ∈ calls, ∃! c : Char, call = String.utf8EncodeChar c) ∧
      calls.flatten = [0xed, 0x9f, 0xbf, 0xef, 0xbf, 0xbd] ∧
      Utf8.WellFormed [0xed, 0x9f, 0xbf, 0xef, 0xbf, 0xbd] := by
  have haccepted : (ofLines [".+."]).syntaxError? = none := by decide
  have hexecute : (ofLines [".+."]).execute 4 ⟨.bits16, #[0xd7ff], 0⟩ [] =
      some (.ok ⟨[0xed, 0x9f, 0xbf, 0xef, 0xbf, 0xbd], ⟨.bits16, #[0xd800], 0⟩, 3, 0⟩) := by rfl
  obtain ⟨-, code, -, hsink⟩ := observe_keepCalls haccepted ⟨.bits16, #[0xd7ff], 0⟩ []
  obtain ⟨calls, _, _, hobserve, -, -, -, -, houtput, hwide⟩ := hsink 4 _ hexecute
  obtain ⟨hchars, htext⟩ := hwide (by decide)
  exact ⟨haccepted, calls, hobserve, hchars, houtput, htext⟩

end Source

end TapeMachine
