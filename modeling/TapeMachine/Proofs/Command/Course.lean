import TapeMachine.Command
import TapeMachine.Proofs.Command.Handover
import TapeMachine.Proofs.Command.Preparation

/-!
# The course of a command

What a command does on the model, from its start to its end.  A command that is refused says so and leaves
everything as it is.  A command that is ready passes on what its run hands over, says what the log tells of
the run, and then writes its files in turn.

## Main definitions

* `Command.Delivers` — files are written in turn, up to the first that cannot be.

## Main results

* `Command.CheckOptions.perform_eq` — the course of a check.
* `Command.RunOptions.perform_of_refusal`, `Command.RunOptions.perform_of_ready` — the course of a run that
  is refused, and of one that is ready.
* `Command.Invocation.carryOut_congr` — a command looks at nothing but what it names.
-/

namespace TapeMachine.Command

variable {σ : Type} {storage : Storage σ} {fuel : Nat}

/-! ### The model -/

namespace Outcome

@[simp] theorem toChannels_world : (world fuel storage).toChannels = channels := rfl

theorem run_world_write (path : String) (content : List UInt8) (left : Outcome σ) :
    ((world fuel storage).write path content).run left =
      match storage.write left.files path content with
      | .ok files => some (none, { left with files })
      | .error fault => some (some fault, left) := by
  cases hwrite : storage.write left.files path content <;> simp [world, hwrite]

theorem run_world_run (threshold : Log.Threshold) (code : Code) (machine : Machine) (left : Outcome σ) :
    ((world fuel storage).run threshold code machine).run left =
      match code.run (Handed.watch threshold) fuel machine {} with
      | .running _ _ => none
      | .finished machine handed => some (.ok machine, left.receive threshold handed)
      | .failed _ error handed => some (.error error, left.receive threshold handed) := by
  simp only [world, StateT.run_bind, run_advance]
  cases code.run (Handed.watch threshold) fuel machine {} <;> rfl

end Outcome

/-! ### Checking a program -/

/-- What checking a program comes to. -/
theorem CheckOptions.perform_eq {options : CheckOptions} (hhelp : options.help = false)
    (storage : Storage σ) (files : σ) (surroundings : Surroundings) :
    options.perform storage files surroundings =
      match loadProgram (storage.read files) options.file options.code with
      | .error error =>
        .quiet error.status (error.notices surroundings (Usage.check surroundings.name)) files
      | .ok text =>
        match (Source.ofText text).syntaxError? with
        | none => ⟨0, ((Source.ofText text).verdict ++ "\n").toUTF8.toList, [], files⟩
        | some error => .quiet 1 [failureNotice surroundings (.ofText text) (.rejected error)] files := by
  rw [perform, Outcome.after, carryOut, hhelp]
  cases loadProgram (storage.read files) options.file options.code with
  | error error => rfl
  | ok text =>
    dsimp only
    cases (Source.ofText text).syntaxError? <;> rfl

/-! ### Writing files -/

/-- `Delivers storage files deliveries failure? files'` says that writing the deliveries in turn leaves
`files'`, up to the first that cannot be written, whose failure is told. -/
inductive Delivers (storage : Storage σ) : σ → List Delivery → Option String → σ → Prop
  /-- Everything is written. -/
  | done (files : σ) : Delivers storage files [] none files
  /-- The first file is written, and the others come after it. -/
  | written {files files' files'' : σ} {delivery : Delivery} {rest : List Delivery}
    {failure? : Option String}
    (hwrite : storage.write files delivery.path delivery.content = .ok files')
    (hrest : Delivers storage files' rest failure? files'') :
    Delivers storage files (delivery :: rest) failure? files''
  /-- The first file cannot be written, and nothing comes after it. -/
  | failed {files : σ} {delivery : Delivery} {rest : List Delivery} {fault : Fault}
    (hfault : storage.write files delivery.path delivery.content = .error fault) :
    Delivers storage files (delivery :: rest) (some (delivery.failure fault)) files

/-- What fails is one of the files. -/
theorem Delivers.exists_eq_failure {files files' : σ} {deliveries : List Delivery} {failure : String}
    (h : Delivers storage files deliveries (some failure) files') :
    ∃ (delivery : Delivery) (fault : Fault), failure = delivery.failure fault := by
  generalize hfailure : some failure = failure? at h
  induction h with
  | done => cases hfailure
  | written _ _ ih => exact ih hfailure
  | failed =>
    cases hfailure
    exact ⟨_, _, rfl⟩

/-- Writing files touches nothing but the files. -/
theorem run_deliver (storage : Storage σ) (fuel : Nat) (deliveries : List Delivery) (left : Outcome σ) :
    ∃ failure? files', Delivers storage left.files deliveries failure? files' ∧
      (deliver (Outcome.world fuel storage).write deliveries).run left =
        some (failure?, { left with files := files' }) := by
  induction deliveries generalizing left with
  | nil => exact ⟨none, left.files, .done _, rfl⟩
  | cons delivery rest ih =>
    rw [deliver, StateT.run_bind, Outcome.run_world_write]
    cases hwrite : storage.write left.files delivery.path delivery.content with
    | error fault => exact ⟨_, left.files, .failed hwrite, rfl⟩
    | ok files =>
      obtain ⟨failure?, files', hrest, hrun⟩ := ih { left with files }
      exact ⟨failure?, files', .written hwrite hrest, hrun⟩

namespace RunOptions

variable {options : RunOptions} {surroundings : Surroundings} {files : σ}

/-- What the command says behind a run that came to its end. -/
theorem run_conclude (options : RunOptions) (storage : Storage σ) (fuel : Nat)
    (surroundings : Surroundings) (execution : Execution) (left : Outcome σ) :
    ∃ failure? files', Delivers storage left.files (options.deliveries execution) failure? files' ∧
      (options.conclude (Outcome.world fuel storage) surroundings execution).run left =
        some (if failure? = none then 0 else 1,
          { left with
            notices := left.notices ++
              (Notice.ofEntries surroundings.threshold [Log.ofEnd execution] ++
                ((if options.quiet then [] else [.summary execution.instructions]) ++
                  failure?.toList.map fun failure => .text (surroundings.say failure)))
            files := files' }) := by
  obtain ⟨failure?, files', hdelivers, hdeliver⟩ := run_deliver storage fuel
    (options.deliveries execution) { left with
      notices := left.notices ++ Notice.ofEntries surroundings.threshold [Log.ofEnd execution] ++
        if options.quiet then [] else [.summary execution.instructions] }
  refine ⟨failure?, files', hdelivers, ?_⟩
  rw [conclude]
  simp only [StateT.run_bind, Outcome.toChannels_world, Outcome.run_say, Option.pure_def,
    Option.bind_eq_bind, Option.bind_some, hdeliver]
  cases failure? with
  | none => simp
  | some failure => simp

/-! ### Running a program -/

/-- A command that is refused leaves everything as it is. -/
theorem perform_of_refusal (hhelp : options.help = false) {refusal : Refusal}
    (h : (options.prepare (storage.read files) surroundings).2 = .error refusal) (fuel : Nat) :
    options.perform fuel storage files surroundings = some (.quiet refusal.status
      (Notice.ofEntries surroundings.threshold (options.prepare (storage.read files) surroundings).1 ++
        refusal.notices surroundings) files) := by
  simp [perform, carryOut, Outcome.after, Outcome.quiet, hhelp, h]

/-- A command that is ready says so, has the program run, and goes on behind the run. -/
theorem run_start {ready : Ready} {m : Machine} {handed : Handed}
    (hrun : ready.code.run (Handed.watch surroundings.threshold) fuel
      (.start ready.tape ready.input) {} = .finished m handed) (left : Outcome σ) :
    (options.start (Outcome.world fuel storage) surroundings ready).run left =
      (options.conclude (Outcome.world fuel storage) surroundings m.execution).run
        (Outcome.receive surroundings.threshold handed { left with
          notices := left.notices ++ Notice.ofEntries surroundings.threshold [ready.startEntry] }) := by
  simp [start, Outcome.run_world_run, hrun]

/-- A command that is ready does what the run of the program does: it goes on as long as the run, and it
comes to an end with it.  What the run hands over is the output, the log tells of the run, and the files
are written. -/
theorem perform_of_ready (hhelp : options.help = false) {ready : Ready}
    (h : (options.prepare (storage.read files) surroundings).2 = .ok ready)
    (hcode : ready.source.compile = .ok ready.code) (fuel : Nat) :
    ready.source.execute fuel ready.tape ready.input = none ∧
        options.perform fuel storage files surroundings = none ∨
    ∃ execution events failure? files',
      ready.source.observe Log.record #[] fuel ready.tape ready.input = some (.ok execution, events) ∧
      Delivers storage files (options.deliveries execution) failure? files' ∧
      options.perform fuel storage files surroundings =
        some ⟨if failure? = none then 0 else 1, execution.output,
          Notice.ofEntries surroundings.threshold
              ((options.prepare (storage.read files) surroundings).1 ++ [ready.startEntry] ++
                Log.ofRun events execution) ++
            ((if options.quiet then [] else [.summary execution.instructions]) ++
              failure?.toList.map fun failure => .text (surroundings.say failure)), files'⟩ := by
  rw [← ready.source.map_fst_observe (Handed.watch surroundings.threshold) {} fuel ready.tape ready.input,
    Source.observe, Source.observe, hcode, perform, Outcome.after, carryOut, hhelp]
  cases hrun : ready.code.run (Handed.watch surroundings.threshold) fuel
      (.start ready.tape ready.input) {} with
  | running m handed => exact .inl ⟨by simp [hrun], by simp [h, start, hrun, Outcome.run_world_run]⟩
  | failed m error handed => exact absurd hrun (Source.linked_of_compile hcode).2.run_ne_failed
  | finished m handed =>
    have houtput : handed.written.toList = m.execution.output := Handed.toList_written_of_run hrun
    obtain ⟨events, hrecord, htold⟩ := Handed.exists_run_record hrun
    obtain ⟨failure?, files', hdelivers, hconclude⟩ := options.run_conclude storage fuel surroundings
      m.execution ⟨0, m.execution.output, Notice.ofEntries surroundings.threshold
        ((options.prepare (storage.read files) surroundings).1 ++ [ready.startEntry] ++
          events.toList.map .executed), files⟩
    refine .inr ⟨m.execution, events, failure?, files', by simp [hrecord], hdelivers, ?_⟩
    simp only [Notice.ofEntries_append] at hconclude
    simp only [Bool.false_eq_true, if_false, h, StateT.run_bind, Outcome.toChannels_world,
      Outcome.run_say, Outcome.quiet, run_start hrun, Outcome.receive, houtput, htold, List.nil_append,
      Option.pure_def, Option.bind_eq_bind, Option.bind_some, hconclude]
    simp only [Log.ofRun, Notice.ofEntries_append, List.append_assoc]

end RunOptions

/-! ### What is looked at -/

section

variable {m : Type → Type} [Monad m] {read read' : String → Except Fault (List UInt8)}
  {surroundings : Surroundings} {standardInput : Except Fault (List UInt8)}

theorem RunOptions.carryOut_congr (options : RunOptions) (world : World m)
    (hread : ∀ path ∈ options.paths, read path = read' path)
    (hstandard : options.readsStandardInput = true → standardInput = surroundings.standardInput) :
    options.carryOut world read { surroundings with standardInput } =
      options.carryOut world read' surroundings := by
  cases hhelp : options.help with
  | true =>
    rw [carryOut, carryOut, hhelp]
    rfl
  | false =>
    have hprepare := options.prepare_congr surroundings hread fun hinput =>
      hstandard (by simp [readsStandardInput, hhelp, hinput])
    rw [carryOut, carryOut, hprepare]
    rfl

theorem CheckOptions.carryOut_congr (options : CheckOptions) (channels : Channels m)
    (hread : ∀ path ∈ options.paths, read path = read' path) :
    options.carryOut channels read { surroundings with standardInput } =
      options.carryOut channels read' surroundings := by
  have htext : loadProgram read options.file options.code =
      loadProgram read' options.file options.code := by
    refine loadProgram_congr fun path hpath => hread path ?_
    simp [paths, Option.mem_def.mp hpath]
  rw [carryOut, carryOut, htext]
  rfl

/-- **A command looks at nothing but what it names**: the files among its paths, and the standard input if
it asks for that.  All of it can be read before the command is carried out. -/
theorem Invocation.carryOut_congr (invocation : Invocation) (world : World m)
    (hread : ∀ path ∈ invocation.paths, read path = read' path)
    (hstandard : invocation.readsStandardInput = true → standardInput = surroundings.standardInput) :
    invocation.carryOut world read { surroundings with standardInput } =
      invocation.carryOut world read' surroundings := by
  unfold paths at hread
  unfold readsStandardInput at hstandard
  rw [carryOut, carryOut]
  cases hhelp : invocation.help with
  | true => rfl
  | false =>
    cases hrequest : invocation.request with
    | none => rfl
    | some request =>
      cases request with
      | run options =>
        simp only [hrequest, hhelp] at hread hstandard
        simpa using options.carryOut_congr world hread hstandard
      | check options =>
        simp only [hrequest] at hread
        simpa using options.carryOut_congr world.toChannels hread

end

end TapeMachine.Command
