import TapeMachine.Command.World
import TapeMachine.Proofs.Machine.Observation

/-!
# What a run hands over

What a command writes to the standard output is what the observer of the run hands over, not what the run
keeps.  The two are the same: a run that comes to its end has handed over its output.  Of the instructions
the log is told what it shows.  And nothing depends on how a run is cut: slices, one after the other, leave what one slice leaves that is as long as all of
them, so the executable, which cuts its runs, and the model, which does not, leave the same.

## Main definitions

* `Command.Handed.append` — what two slices hand over, one after the other.
* `Command.Channels.slices` — a run slice by slice.

## Main results

* `Command.Handed.toList_written_of_run` — what is handed over is the output.
* `Command.Handed.exists_run_record` — the log shows of what is handed over what it shows of all events.
* `Command.Outcome.advance_add`, `Command.Outcome.slices_eq_advance` — slices are one slice.
-/

namespace TapeMachine.Command

variable {σ : Type} {threshold : Log.Threshold} {code : Code}

namespace Handed

/-! ### The output -/

theorem toList_written_watch (threshold : Log.Threshold) (handed : Handed) (event : Event) :
    (handed.watch threshold event).written.toList =
      handed.written.toList ++ event.written.getD [] := by
  simp [watch]

/-- What is handed over is what the events write, one after the other. -/
theorem toList_written_foldl (threshold : Log.Threshold) (events : List Event) : ∀ handed : Handed,
    (events.foldl (watch threshold) handed).written.toList =
      handed.written.toList ++ (events.filterMap Event.written).flatten := by
  induction events with
  | nil => simp
  | cons event events ih =>
    intro handed
    rw [List.foldl_cons, ih, toList_written_watch, List.append_assoc]
    cases hwritten : event.written <;> simp [hwritten]

/-- **A run that comes to its end has handed over its output.** -/
theorem toList_written_of_run {fuel : Nat} {tape : Tape} {input : List UInt8} {machine : Machine}
    {handed : Handed}
    (h : code.run (watch threshold) fuel (.start tape input) {} = .finished machine handed) :
    handed.written.toList = machine.execution.output := by
  obtain ⟨visited, hvisits, -, rfl⟩ := Code.visits_of_run h
  rw [toList_written_foldl, hvisits.filterMap_written]
  exact hvisits.output_eq.symm

/-! ### The log -/

/-- **The log shows of what is handed over what it shows of all events**: if it shows any of them, they are
all handed over. -/
theorem exists_run_record {fuel : Nat} {machine machine' : Machine} {handed : Handed}
    (h : code.run (watch threshold) fuel machine {} = .finished machine' handed) :
    ∃ events, code.run Log.record fuel machine #[] = .finished machine' events ∧
      Notice.ofEntries threshold (handed.events.toList.map .executed) =
        Notice.ofEntries threshold (events.toList.map .executed) := by
  cases hshows : threshold.shows .trace with
  | true =>
    have hwatch : ∀ (handed : Handed) (event : Event),
        (handed.watch threshold event).events = Log.record handed.events event := by
      simp [watch, watcher, hshows]
    have hrun := Code.map_run hwatch code fuel machine {}
    rw [h] at hrun
    exact ⟨handed.events, hrun.symm, rfl⟩
  | false =>
    have hhidden : ∀ events : List Event, Notice.ofEntries threshold (events.map .executed) = [] := by
      simp [Notice.ofEntries, Log.shown, Log.Entry.level, hshows]
    have hrun := (Code.map_run_unwatched Log.record code fuel machine #[]).trans
      (Code.map_run_unwatched (watch threshold) code fuel machine {}).symm
    rw [h] at hrun
    cases hrecord : code.run Log.record fuel machine #[] with
    | finished m events =>
      rw [hrecord] at hrun
      cases hrun
      exact ⟨events, rfl, by rw [hhidden, hhidden]⟩
    | running m events => simp [hrecord, Progress.map] at hrun
    | failed m error events => simp [hrecord, Progress.map] at hrun

/-! ### Slices -/

/-- What two slices hand over, one after the other. -/
def append (handed later : Handed) : Handed :=
  ⟨handed.written ++ later.written, handed.events ++ later.events⟩

theorem append_watch (handed later : Handed) (event : Event) :
    handed.append (later.watch threshold event) = (handed.append later).watch threshold event := by
  have hwritten : handed.written ++ (later.written ++ event.written.getD []) =
      handed.written ++ later.written ++ event.written.getD [] := by
    simp [← Array.toList_inj]
  simp only [watch, watcher, append, hwritten]
  split <;> simp [Log.record]

theorem append_empty (handed : Handed) : handed.append {} = handed := by
  simp [append]

/-- A run that goes on from where a slice has come to hands over the rest. -/
theorem map_append_run (handed : Handed) (code : Code) (fuel : Nat) (machine : Machine) :
    (code.run (watch threshold) fuel machine {}).map handed.append =
      code.run (watch threshold) fuel machine handed := by
  rw [Code.map_run fun later event => handed.append_watch later event, append_empty]

end Handed

@[simp] theorem Notice.ofEntries_append (threshold : Log.Threshold) (entries later : List Log.Entry) :
    ofEntries threshold (entries ++ later) = ofEntries threshold entries ++ ofEntries threshold later := by
  simp [ofEntries, Log.shown]

/-- Runs a program slice by slice, for at most `count` slices. -/
def Channels.slices {m : Type → Type} [Monad m] (channels : Channels m) (threshold : Log.Threshold)
    (code : Code) (slice : Nat) : Nat → Machine → m (Progress Unit)
  | 0, machine => return .running machine ()
  | count + 1, machine => do
    match ← channels.advance threshold code slice machine with
    | .running machine _ => channels.slices threshold code slice count machine
    | ended => return ended

namespace Outcome

variable {n : Type → Type} [Monad n]

@[simp] theorem run_say (notices : List Notice) (left : Outcome σ) :
    (channels.say notices : StateT (Outcome σ) n Unit).run left =
      pure ((), { left with notices := left.notices ++ notices }) := rfl

@[simp] theorem run_print (bytes : List UInt8) (left : Outcome σ) :
    (channels.print bytes : StateT (Outcome σ) n Unit).run left =
      pure ((), { left with output := left.output ++ bytes }) := rfl

/-- The outcome so far, once a slice of a run is passed on. -/
def receive (threshold : Log.Threshold) (handed : Handed) (left : Outcome σ) : Outcome σ :=
  { left with
    output := left.output ++ handed.written.toList
    notices := left.notices ++ Notice.ofEntries threshold (handed.events.toList.map .executed) }

theorem receive_empty (threshold : Log.Threshold) (left : Outcome σ) :
    left.receive threshold {} = left := by
  simp [receive, Notice.ofEntries, Log.shown]

theorem receive_append (threshold : Log.Threshold) (handed later : Handed) (left : Outcome σ) :
    left.receive threshold (handed.append later) =
      (left.receive threshold handed).receive threshold later := by
  simp [receive, Handed.append]

variable [LawfulMonad n]

theorem run_advance (threshold : Log.Threshold) (code : Code) (fuel : Nat) (machine : Machine)
    (left : Outcome σ) :
    (channels.advance threshold code fuel machine : StateT (Outcome σ) n _).run left =
      let progress := code.run (Handed.watch threshold) fuel machine {}
      pure (progress.map fun _ => (), left.receive threshold progress.seen) := by
  simp [Channels.advance, Channels.pass, receive]

/-- **Two slices are one**: it makes no difference how a run is cut. -/
theorem advance_add (threshold : Log.Threshold) (code : Code) (fuel more : Nat) (machine : Machine) :
    (channels.advance threshold code (fuel + more) machine : StateT (Outcome σ) n _) = (do
      match ← channels.advance threshold code fuel machine with
      | .running machine _ => channels.advance threshold code more machine
      | ended => return ended) := by
  refine StateT.ext fun left => ?_
  rw [StateT.run_bind, run_advance, run_advance, Code.run_add, pure_bind]
  cases hrun : code.run (Handed.watch threshold) fuel machine {} with
  | running machine handed =>
    simp only [← handed.map_append_run, Progress.map_map, Progress.seen_map, receive_append]
    exact (run_advance threshold code more machine _).symm
  | finished machine handed => simp [Progress.map]
  | failed machine error handed => simp [Progress.map]

/-- **Slices are one slice** as long as all of them. -/
theorem slices_eq_advance (threshold : Log.Threshold) (code : Code) (slice count : Nat)
    (machine : Machine) :
    (channels.slices threshold code slice count machine : StateT (Outcome σ) n _) =
      channels.advance threshold code (count * slice) machine := by
  induction count generalizing machine with
  | zero =>
    refine StateT.ext fun left => ?_
    rw [Nat.zero_mul, run_advance, Code.run]
    simp [Channels.slices, Progress.map, Progress.seen, receive_empty]
  | succ count ih =>
    rw [Channels.slices, Nat.succ_mul, Nat.add_comm, advance_add]
    simp only [ih]

end Outcome

end TapeMachine.Command
