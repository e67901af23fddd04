import Mathlib.Order.Bounds.Basic
import TapeMachine.Log
import TapeMachine.Proofs.Bracket.Table
import TapeMachine.Proofs.Machine.History
import TapeMachine.Proofs.Machine.Observation
import TapeMachine.Proofs.Tape.Cells

/-!
# The log of a run can be replayed

The log tells of every instruction that is executed, and what it tells is enough to follow the run
without the machine.  An event names the position behind which the run goes on, so the next event tells
of the first instruction from there on.  It names the pointer and the cell before the instruction and
the cell after it, so the pointer and the cell before the next one are known.  Nothing is left out:
behind the last event there is no instruction any more, and the tape is as that event leaves it.

## Main definitions

* `Source.IsNext` — the first instruction from a position on.
* `Event.TellsOf`, `Event.MovesTo` — what an event says of its instruction and of the pointer.
* `Code.Tells` — a run to its end with the events of it.

## Main results

* `Code.Tells.exists_executed` — in front of an event only comments are passed over.
* `Code.tellsOf_of_step_eq_executed` — one executed instruction against what is told of it.
* `Code.Tells.exists_drop` — a run with the events from any of them on.
* `Source.exists_replay_of_execute` — the log of a run can be replayed.
-/

namespace TapeMachine

/-- The instruction at `q` is the first one from `start` on. -/
def Source.IsNext (source : Source) (start q : Nat) : Prop :=
  IsLeast {k | start ≤ k ∧ (source.symbolAt? k).isSome} q

namespace Event

/-- The event tells of a bracket that jumps. -/
def Jumps (event : Event) : Prop :=
  event.symbol = .opening ∧ event.before = 0 ∨ event.symbol = .closing ∧ event.before ≠ 0

/-- The event tells of the instruction at `q`. -/
structure TellsOf (event : Event) (source : Source) (q : Nat) : Prop where
  /-- Its instruction stands there. -/
  symbolAt?_eq : source.symbolAt? q = some event.symbol
  /-- A bracket that jumps has come to its partner. -/
  partner?_eq : event.Jumps → Bracket.partner? source.chars q = .ok event.position
  /-- Every other instruction has stayed where it is. -/
  position_eq : ¬ event.Jumps → event.position = q

/-- The instruction of the event leaves the pointer at `pointer`, on a tape of `size` cells. -/
structure MovesTo (event : Event) (size pointer : Nat) : Prop where
  /-- One cell to the right, round the tape. -/
  right : event.symbol = .right → (pointer : ℤ) = ((event.pointer : ℤ) + 1) % size
  /-- One cell to the left, round the tape. -/
  left : event.symbol = .left → (pointer : ℤ) = ((event.pointer : ℤ) - 1) % size
  /-- Not at all. -/
  other : event.symbol ≠ .right → event.symbol ≠ .left → pointer = event.pointer

theorem jumps_iff {event : Event} : event.Jumps ↔ event.symbol.jumps event.before = true := by
  cases hsymbol : event.symbol <;> simp [Jumps, Symbol.jumps, hsymbol]

end Event

/-! ### One instruction -/

namespace Machine

variable {m : Machine}

/-- What an instruction does to the pointer. -/
theorem pointer_act (m : Machine) (symbol : Symbol) :
    (m.act symbol).tape.pointer =
      match symbol with
      | .right => (m.tape.pointer + 1) % m.tape.size
      | .left => (m.tape.pointer + (m.tape.size - 1)) % m.tape.size
      | _ => m.tape.pointer := by
  cases symbol with
  | input =>
    rw [act, readInput]
    split <;> rfl
  | _ => rfl

theorem executed_act (m : Machine) (symbol : Symbol) : (m.act symbol).executed = m.executed := by
  cases symbol with
  | input =>
    rw [act, readInput]
    split <;> rfl
  | _ => rfl

/-- The pointer goes one cell to the right or to the left, round the tape, or it stays. -/
theorem movesTo_pointer_act (hsize : 0 < m.tape.size) {event : Event}
    (hpointer : event.pointer = m.tape.pointer) :
    event.MovesTo m.tape.size (m.act event.symbol).tape.pointer where
  right := by
    intro hright
    rw [hright, hpointer]
    exact m.tape.pointer_moveRight
  left := by
    intro hleft
    rw [hleft, hpointer]
    exact Tape.pointer_moveLeft hsize
  other := by
    intro hright hleft
    rw [pointer_act, hpointer]
    split <;> simp_all

end Machine

namespace Source

variable {source : Source} {code : Code}

/-- A program that is made ready has a table. -/
theorem ofChars_of_compile (hcode : source.compile = .ok code) :
    JumpTable.ofChars source.chars = .ok code.table := by
  rw [compile] at hcode
  cases hbrackets : source.syntaxError? with
  | some error =>
    rw [hbrackets] at hcode
    cases hcode
  | none =>
    cases htable : JumpTable.ofChars source.chars with
    | error error =>
      simp [hbrackets, htable] at hcode
    | ok table =>
      simp only [hbrackets, htable, Except.ok.injEq] at hcode
      rw [← hcode]

/-- The instruction at an index, as the machine finds it. -/
theorem symbolAt?_of_compile (hcode : source.compile = .ok code) (k : Nat) :
    source.symbolAt? k = code.chars[k]?.bind Symbol.ofChar? := by
  rw [symbolAt?, ← (linked_of_compile hcode).1, Array.getElem?_toList]

/-- The table holds the partner that the scan finds. -/
theorem partner?_of_compile (hcode : source.compile = .ok code) {k target : Nat}
    (hpartner : code.table.partner? k = some target) :
    Bracket.partner? source.chars k = .ok target := by
  rw [JumpTable.partner?_eq_toOption (ofChars_of_compile hcode)] at hpartner
  cases hscan : Bracket.partner? source.chars k with
  | error error =>
    rw [hscan] at hpartner
    cases hpartner
  | ok partner =>
    rw [hscan] at hpartner
    cases hpartner
    rfl

end Source

namespace Code

variable {source : Source} {code : Code} {m m' m₁ : Machine} {event : Event} {events : List Event}

/-- What is told of an executed instruction besides the bytes that it writes. -/
theorem told_of_step_eq_executed (hstep : code.step m = .executed m₁ event) :
    event.step = m.executed ∧ event.pointer = m.tape.pointer ∧ event.before = m.tape.read ∧
      m₁.executed = m.executed + 1 ∧ m₁.position = event.position + 1 ∧
      m₁.tape.read = event.after := by
  have hcase := code.stepCase m
  rw [hstep] at hcase
  cases hcase with
  | acted => exact ⟨rfl, rfl, rfl, by rw [Machine.moveOn, Machine.executed_act], rfl, rfl⟩
  | jumped => exact ⟨rfl, rfl, rfl, rfl, rfl, rfl⟩

/-- **One executed instruction against what is told of it.** -/
theorem tellsOf_of_step_eq_executed (hcode : source.compile = .ok code)
    (hstep : code.step m = .executed m₁ event) : event.TellsOf source m.position := by
  obtain ⟨c, target, hchar, hc, rfl, htarget⟩ := act_of_step_eq_executed hstep
  obtain ⟨-, -, hbefore, -, hposition, -⟩ := told_of_step_eq_executed hstep
  obtain rfl : target = event.position := Nat.succ_injective hposition
  rw [← hbefore, ← Bool.not_eq_true, ← Event.jumps_iff] at htarget
  refine ⟨?_, fun hjumps => ?_, fun hjumps => ?_⟩
  · simp [Source.symbolAt?_of_compile hcode, hchar, hc]
  · rcases htarget with ⟨hstays, -⟩ | ⟨-, hpartner⟩
    · exact absurd hjumps hstays
    · exact Source.partner?_of_compile hcode hpartner
  · rcases htarget with ⟨-, hposition⟩ | ⟨hjumps', -⟩
    · exact hposition
    · exact absurd hjumps' hjumps

/-- What is told of the pointer is where it goes. -/
theorem movesTo_of_step_eq_executed (hsize : 0 < m.tape.size)
    (hstep : code.step m = .executed m₁ event) : event.MovesTo m.tape.size m₁.tape.pointer := by
  obtain ⟨-, hpointer, -⟩ := told_of_step_eq_executed hstep
  obtain ⟨c, target, -, -, rfl, -⟩ := act_of_step_eq_executed hstep
  exact Machine.movesTo_pointer_act hsize hpointer

/-! ### A run with its events -/

/-- `code.Tells m events m'` says that the run from `m` comes to its end at `m'`, and that `events` is
what an observer is told on the way. -/
inductive Tells (code : Code) : Machine → List Event → Machine → Prop
  /-- At the end nothing more is told. -/
  | halted {m : Machine} (hstep : code.step m = .halted m) : Tells code m [] m
  /-- Nothing is told of a comment character. -/
  | skipped {m m₁ m' : Machine} {events : List Event} (hstep : code.step m = .skipped m₁)
      (htells : Tells code m₁ events m') : Tells code m events m'
  /-- An instruction is told of. -/
  | executed {m m₁ m' : Machine} {event : Event} {events : List Event}
      (hstep : code.step m = .executed m₁ event) (htells : Tells code m₁ events m') :
      Tells code m (event :: events) m'

theorem Visits.tells {visited : List Machine} (h : code.Visits m visited m')
    (hhalted : code.step m' = .halted m') : code.Tells m (visited.filterMap code.event?) m' := by
  induction h with
  | here => exact .halted hhalted
  | @step m m₁ m' visited hnext _ ih =>
    rcases hnext with hstep | ⟨event, hstep⟩
    · have hevent : code.event? m = none := by rw [event?, hstep]
      rw [List.filterMap_cons_none hevent]
      exact .skipped hstep (ih hhalted)
    · have hevent : code.event? m = some event := by rw [event?, hstep]
      rw [List.filterMap_cons_some hevent]
      exact .executed hstep (ih hhalted)

namespace Tells

/-- A run of which nothing is told passes over comments only. -/
theorem of_nil (hcode : source.compile = .ok code) (h : code.Tells m [] m') :
    (∀ k, m.position ≤ k → source.symbolAt? k = none) ∧ m'.tape = m.tape ∧
      m'.executed = m.executed := by
  generalize hevents : ([] : List Event) = events at h
  induction h with
  | @halted m hstep =>
    have hcase := code.stepCase m
    rw [hstep] at hcase
    cases hcase with
    | halted hchar =>
      refine ⟨fun k hk => ?_, rfl, rfl⟩
      have hend : code.chars[k]? = none := by
        rw [Array.getElem?_eq_none_iff] at hchar ⊢
        exact Nat.le_trans hchar hk
      rw [Source.symbolAt?_of_compile hcode, hend, Option.bind_none]
  | @skipped m m₁ m' events hstep _ ih =>
    obtain ⟨hahead, htape, hexecuted⟩ := ih hevents
    obtain ⟨c, hchar, hc, rfl⟩ := eq_of_step_eq_skipped hstep
    refine ⟨fun k hk => ?_, htape, hexecuted⟩
    rcases Nat.eq_or_lt_of_le hk with rfl | hlt
    · rw [Source.symbolAt?_of_compile hcode, hchar, Option.bind_some, hc]
    · exact hahead k hlt
  | executed => cases hevents

/-- **In front of an event only comments are passed over**, up to the first instruction there is. -/
theorem exists_executed (hcode : source.compile = .ok code) (h : code.Tells m (event :: events) m') :
    ∃ q m₁, source.IsNext m.position q ∧ code.step { m with position := q } = .executed m₁ event ∧
      code.Reaches m m₁ ∧ code.Tells m₁ events m' := by
  generalize hall : event :: events = all at h
  induction h with
  | halted => cases hall
  | @skipped m m₁ m' all hstep _ ih =>
    obtain ⟨q, m₂, hnext, hexecuted, hreach, htells⟩ := ih hall
    obtain ⟨c, hchar, hc, rfl⟩ := eq_of_step_eq_skipped hstep
    have hcomment : source.symbolAt? m.position = none := by
      rw [Source.symbolAt?_of_compile hcode, hchar, Option.bind_some, hc]
    refine ⟨q, m₂, ⟨⟨Nat.le_of_succ_le hnext.1.1, hnext.1.2⟩, fun k hk => ?_⟩, hexecuted,
      .head (.inl hstep) hreach, htells⟩
    refine hnext.2 ⟨Nat.lt_of_le_of_ne hk.1 ?_, hk.2⟩
    rintro rfl
    simp [hcomment] at hk
  | @executed m m₁ m' event' events' hstep htells =>
    cases hall
    have hsymbol := (tellsOf_of_step_eq_executed hcode hstep).symbolAt?_eq
    exact ⟨m.position, m₁, ⟨⟨Nat.le_refl _, by rw [hsymbol]; rfl⟩, fun k hk => hk.1⟩, hstep,
      .single (.inr ⟨event, hstep⟩), htells⟩

/-- The number of events is the number of instructions that are executed. -/
theorem executed_eq (hcode : source.compile = .ok code) (h : code.Tells m events m') :
    m'.executed = m.executed + events.length := by
  induction events generalizing m with
  | nil => exact (of_nil hcode h).2.2
  | cons event events ih =>
    obtain ⟨q, m₁, -, hstep, -, htells⟩ := h.exists_executed hcode
    have hcount : m₁.executed = m.executed + 1 := (told_of_step_eq_executed hstep).2.2.2.1
    rw [ih htells, hcount, List.length_cons]
    omega

/-- **A run with the events from any of them on.** -/
theorem exists_drop (hcode : source.compile = .ok code) (h : code.Tells m events m') : ∀ k,
    k ≤ events.length → ∃ m₁, code.Reaches m m₁ ∧ m₁.executed = m.executed + k ∧
      code.Tells m₁ (events.drop k) m' := by
  induction events generalizing m with
  | nil =>
    intro k hk
    obtain rfl : k = 0 := Nat.le_zero.mp hk
    exact ⟨m, .refl, rfl, h⟩
  | cons event events ih =>
    intro k hk
    cases k with
    | zero => exact ⟨m, .refl, rfl, h⟩
    | succ k =>
      obtain ⟨q, m₁, -, hstep, hreach, htells⟩ := h.exists_executed hcode
      have hcount : m₁.executed = m.executed + 1 := (told_of_step_eq_executed hstep).2.2.2.1
      obtain ⟨m₂, hreach₂, hexecuted, hdrop⟩ := ih htells k (Nat.le_of_succ_le_succ hk)
      exact ⟨m₂, hreach.trans hreach₂, by omega, hdrop⟩

/-- What the first event says, from the machine that the run starts from. -/
theorem first (hcode : source.compile = .ok code) (h : code.Tells m events m')
    (hfirst : events[0]? = some event) :
    (∃ q, source.IsNext m.position q ∧ event.TellsOf source q) ∧ event.step = m.executed ∧
      event.pointer = m.tape.pointer ∧ event.before = m.tape.read := by
  cases events with
  | nil => cases hfirst
  | cons event' events =>
    cases hfirst
    obtain ⟨q, m₁, hnext, hstep, -, -⟩ := h.exists_executed hcode
    obtain ⟨hcount, hpointer, hbefore, -⟩ := told_of_step_eq_executed hstep
    exact ⟨⟨q, hnext, tellsOf_of_step_eq_executed hcode hstep⟩, hcount, hpointer, hbefore⟩

/-- What an event says, from the machine behind it. -/
theorem exists_behind {shape : Shape} (hcode : source.compile = .ok code)
    (h : code.Tells m events m') (hfits : m.tape.Fits shape) {k : Nat}
    (hevent : events[k]? = some event) :
    ∃ m₁, code.Tells m₁ (events.drop (k + 1)) m' ∧ m₁.position = event.position + 1 ∧
      m₁.tape.read = event.after ∧ event.MovesTo shape.size m₁.tape.pointer := by
  obtain ⟨hk, hget⟩ := List.getElem?_eq_some_iff.mp hevent
  obtain ⟨m₁, hreach, -, htells⟩ := h.exists_drop hcode k (Nat.le_of_lt hk)
  rw [List.drop_eq_getElem_cons hk, hget] at htells
  obtain ⟨q, m₂, -, hstep, -, htells₂⟩ := htells.exists_executed hcode
  obtain ⟨-, -, -, -, hposition, hafter⟩ := told_of_step_eq_executed hstep
  have hsize : m₁.tape.size = shape.size := (hfits.reaches hreach).size_eq
  have hmoves := movesTo_of_step_eq_executed (by rw [hsize]; exact shape.size_pos) hstep
  exact ⟨m₂, htells₂, hposition, hafter, hsize ▸ hmoves⟩

end Tells

end Code

namespace Source

/-- The observer of the log has kept every event. -/
theorem foldl_record (events : List Event) : events.foldl Log.record #[] = events.toArray := by
  have hpush : events.foldl Log.record #[] = #[] ++ events.toArray := List.foldl_push_eq_append'
  rw [hpush, Array.empty_append]

/-- **The log of a run can be replayed.**  A run that comes to its end with some number of instructions
has told of as many events, numbered from zero.  The first event tells of the first instruction of the
program, and every other one of the first instruction behind the position that the event before it
names; the cell in front of it is the one that the event before it has left, and so is the pointer.
Behind the position that the last event names there is no instruction, and the tape at the end is the
one that it has left. -/
theorem exists_replay_of_execute {source : Source} {tape : Tape} (htape : tape.WellFormed)
    {input : List UInt8} {fuel : Nat} {execution : Execution}
    (h : source.execute fuel tape input = some (.ok execution)) :
    ∃ events : List Event,
      source.observe Log.record #[] fuel tape input = some (.ok execution, events.toArray) ∧
      Log.ofRun events.toArray execution = events.map .executed ++
        [.finished execution.instructions execution.output.length] ∧
      events.length = execution.instructions ∧
      (∀ (k : Nat) (event : Event), events[k]? = some event → event.step = k) ∧
      (∀ event : Event, events[0]? = some event → ∃ q, source.IsNext 0 q ∧ event.TellsOf source q) ∧
      (∀ (k : Nat) (event next : Event), events[k]? = some event → events[k + 1]? = some next →
        (∃ q, source.IsNext (event.position + 1) q ∧ next.TellsOf source q) ∧
        next.before = event.after ∧ event.MovesTo tape.size next.pointer) ∧
      (∀ last : Event, events.getLast? = some last →
        (∀ k, last.position < k → source.symbolAt? k = none) ∧
        execution.tape.read = last.after ∧ last.MovesTo tape.size execution.tape.pointer) ∧
      (events = [] → ∀ k, source.symbolAt? k = none) := by
  rw [← source.map_fst_observe Log.record #[] fuel tape input] at h
  obtain ⟨⟨_, seen⟩, hobserve, rfl⟩ := Option.map_eq_some_iff.mp h
  have hrun := hobserve
  rw [observe] at hrun
  cases hcode : source.compile with
  | error error => simp [hcode] at hrun
  | ok code =>
    rw [hcode] at hrun
    cases hprogress : code.run Log.record fuel (.start tape input) #[] with
    | running m seen => simp [hprogress] at hrun
    | failed m error seen => simp [hprogress] at hrun
    | finished m' seen' =>
      simp only [hprogress, Option.some.injEq, Prod.mk.injEq, Except.ok.injEq] at hrun
      obtain ⟨rfl, rfl⟩ := hrun
      obtain ⟨visited, hvisits, hhalted, rfl⟩ := Code.visits_of_run hprogress
      have htells := hvisits.tells hhalted
      rw [foldl_record] at hobserve
      generalize visited.filterMap code.event? = events at htells hobserve
      have hfits : tape.Fits ⟨tape.width, tape.size, htape.size_pos⟩ :=
        Tape.fits_iff.mpr ⟨rfl, rfl, htape⟩
      refine ⟨events, hobserve, by simp [Log.ofRun, Log.ofEnd], ?_, ?_, ?_, ?_, ?_, ?_⟩
      · have hcount := htells.executed_eq hcode
        exact (hcount.trans (Nat.zero_add _)).symm
      · intro k event hevent
        obtain ⟨hk, -⟩ := List.getElem?_eq_some_iff.mp hevent
        obtain ⟨m₁, -, hexecuted, hdrop⟩ := htells.exists_drop hcode k (Nat.le_of_lt hk)
        have hfirst : (events.drop k)[0]? = some event := by rwa [List.getElem?_drop]
        rw [(hdrop.first hcode hfirst).2.1, hexecuted]
        exact Nat.zero_add k
      · intro event hevent
        exact (htells.first hcode hevent).1
      · intro k event next hevent hnext
        obtain ⟨m₁, hdrop, hposition, hafter, hmoves⟩ := htells.exists_behind hcode hfits hevent
        have hfirst : (events.drop (k + 1))[0]? = some next := by rwa [List.getElem?_drop]
        obtain ⟨hstands, -, hpointer, hbefore⟩ := hdrop.first hcode hfirst
        rw [hposition] at hstands
        rw [hpointer, hbefore]
        exact ⟨hstands, hafter, hmoves⟩
      · intro last hlast
        rw [List.getLast?_eq_getElem?] at hlast
        obtain ⟨m₁, hdrop, hposition, hafter, hmoves⟩ := htells.exists_behind hcode hfits hlast
        have hnil : events.drop (events.length - 1 + 1) = [] := List.drop_eq_nil_iff.mpr (by omega)
        rw [hnil] at hdrop
        obtain ⟨hahead, htape', -⟩ := hdrop.of_nil hcode
        rw [hposition] at hahead
        rw [Machine.execution, htape']
        exact ⟨hahead, hafter, hmoves⟩
      · rintro rfl k
        exact (htells.of_nil hcode).1 k (Nat.zero_le k)

/-- A loop is entered and gone back to once over a comment, and the pointer goes round at the end. -/
theorem exists_replay_of_execute_of_jump_over_comment :
    (Tape.blank { size := 3 }).WellFormed ∧
    (ofLines ["++[x-]<"]).execute 20 (Tape.blank { size := 3 }) [] =
      some (.ok ⟨[], ⟨.bits8, #[0, 0, 0], 2⟩, 8, 0⟩) ∧
    ∃ events : List Event, events.length = 8 ∧
      (∀ (k : Nat) (event : Event), events[k]? = some event → event.step = k) ∧
      (∀ event : Event, events[0]? = some event →
        ∃ q, (ofLines ["++[x-]<"]).IsNext 0 q ∧ event.TellsOf (ofLines ["++[x-]<"]) q) ∧
      ∀ last : Event, events.getLast? = some last → last.MovesTo 3 2 := by
  have htape := Tape.wellFormed_blank { size := 3 }
  have hexecute : (ofLines ["++[x-]<"]).execute 20 (Tape.blank { size := 3 }) [] =
      some (.ok ⟨[], ⟨.bits8, #[0, 0, 0], 2⟩, 8, 0⟩) := by rfl
  obtain ⟨events, -, -, hlength, hstep, hfirst, -, hlast, -⟩ :=
    exists_replay_of_execute htape hexecute
  exact ⟨htape, hexecute, events, hlength, hstep, hfirst, fun last h => (hlast last h).2.2⟩

end Source

end TapeMachine
