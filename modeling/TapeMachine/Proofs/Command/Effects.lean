import TapeMachine.Proofs.Command.Course
import TapeMachine.Proofs.Storage.Lawful

/-!
# What a run leaves behind

Nothing happens before everything has been looked at: a command that is refused writes nothing to the
standard output and leaves the files as they are.  A command that is not refused writes what its program
writes, no more and no less, and then the files that were asked for, the output before the listing of the
tape.  The first of them that cannot be written is the last that is tried.

The paths may lead to one file, or to the file of the program or of the input.  What is written goes by
the places of the paths, so the listing takes the place of the output if both go to one file.

## Main definitions

* `Command.Written` — a file that was asked for has its content, and no other file is changed.
* `Command.RunOptions.Leaves` — the exit status and the files that a run leaves.

## Main results

* `Command.RunOptions.leaves_of_delivers` — what writing the files in turn leaves.
* `Command.RunOptions.perform_effects` — what the command leaves, in every case.
-/

namespace TapeMachine.Command

variable {σ κ : Type}

/-- A file, if it is asked for, has its content, by whatever path it is read, and every path to another
place leads to what it led to. -/
inductive Written (storage : Storage σ) (place : String → κ) (files : σ) :
    Option String → List UInt8 → σ → Prop
  /-- No file is asked for. -/
  | unasked (content : List UInt8) : Written storage place files none content files
  /-- The file is written. -/
  | asked {path : String} {content : List UInt8} {files' : σ}
    (hwrite : storage.write files path content = .ok files')
    (hread : storage.read files' path = .ok content)
    (hsame : ∀ other bytes, place other = place path → storage.read files' other = .ok bytes →
      bytes = content)
    (helsewhere : ∀ other, place other ≠ place path →
      ∀ bytes, storage.read files' other = .ok bytes ↔ storage.read files other = .ok bytes) :
    Written storage place files (some path) content files'

/-- `options.Leaves storage place files execution status files'` says that a run which came to its end
leaves this exit status and these files. -/
inductive RunOptions.Leaves (options : RunOptions) (storage : Storage σ) (place : String → κ) (files : σ)
    (execution : Execution) : Nat → σ → Prop
  /-- The output cannot be written, and nothing is. -/
  | outputFailed {path : String} {fault : Fault} (hpath : options.output = some path)
    (hfault : storage.write files path execution.output = .error fault) :
    Leaves options storage place files execution 1 files
  /-- The listing cannot be written, and the output is. -/
  | listingFailed {files' : σ} {path : String} {fault : Fault}
    (houtput : Written storage place files options.output execution.output files')
    (hpath : options.listing = some path)
    (hfault : storage.write files' path execution.tape.listing.toUTF8.toList = .error fault) :
    Leaves options storage place files execution 1 files'
  /-- Everything that is asked for is written. -/
  | all {files' files'' : σ}
    (houtput : Written storage place files options.output execution.output files')
    (hlisting :
      Written storage place files' options.listing execution.tape.listing.toUTF8.toList files'') :
    Leaves options storage place files execution 0 files''

variable {options : RunOptions} {storage : Storage σ} {place : String → κ} {files files' : σ}
  {execution : Execution}

theorem Written.of_write (hlawful : storage.Lawful place) {path : String} {content : List UInt8}
    (h : storage.write files path content = .ok files') :
    Written storage place files (some path) content files' :=
  .asked h (hlawful.read_written h) (fun _ _ => hlawful.read_same_place h) fun _ =>
    hlawful.read_elsewhere h

/-- A path that leads to none of the files that were asked for leads to what it led to. -/
theorem Written.read_elsewhere {path? : Option String} {content bytes : List UInt8} {other : String}
    (h : Written storage place files path? content files')
    (hother : ∀ path ∈ path?, place other ≠ place path) :
    storage.read files' other = .ok bytes ↔ storage.read files other = .ok bytes := by
  cases h with
  | unasked => exact Iff.rfl
  | asked hwrite hread hsame helsewhere => exact helsewhere other (hother _ rfl) bytes

theorem RunOptions.Leaves.read_elsewhere {status : Nat} {bytes : List UInt8} {other : String}
    (h : options.Leaves storage place files execution status files')
    (houtput : ∀ path ∈ options.output, place other ≠ place path)
    (hlisting : ∀ path ∈ options.listing, place other ≠ place path) :
    storage.read files' other = .ok bytes ↔ storage.read files other = .ok bytes := by
  cases h with
  | outputFailed => exact Iff.rfl
  | listingFailed hwritten => exact hwritten.read_elsewhere houtput
  | all hwritten hwritten' =>
    exact (hwritten'.read_elsewhere hlisting).trans (hwritten.read_elsewhere houtput)

/-- A file that is asked for is written, or its failure ends the writing. -/
theorem Delivers.option (hlawful : storage.Lawful place) {subject : String} {path? : Option String}
    {content : List UInt8} {rest : List Delivery} {failure? : Option String}
    (h : Delivers storage files ((path?.map fun path => ⟨subject, path, content⟩).toList ++ rest)
      failure? files') :
    (∃ files₁, Written storage place files path? content files₁ ∧
      Delivers storage files₁ rest failure? files') ∨
    ∃ path fault, path? = some path ∧ storage.write files path content = .error fault ∧
      failure? ≠ none ∧ files' = files := by
  cases path? with
  | none => exact .inl ⟨files, .unasked content, h⟩
  | some path =>
    simp only [Option.map_some, Option.toList_some, List.singleton_append] at h
    cases h with
    | written hwrite hrest => exact .inl ⟨_, .of_write hlawful hwrite, hrest⟩
    | failed hfault => exact .inr ⟨path, _, rfl, hfault, Option.some_ne_none _, rfl⟩

/-- **The files are written in turn**, up to the first that cannot be. -/
theorem RunOptions.leaves_of_delivers (hlawful : storage.Lawful place) {failure? : Option String}
    (h : Delivers storage files (options.deliveries execution) failure? files') :
    options.Leaves storage place files execution (if failure? = none then 0 else 1) files' := by
  rw [deliveries, ← List.append_nil (Option.toList (options.listing.map _))] at h
  rcases h.option hlawful with ⟨files₁, houtput, hrest⟩ | ⟨path, fault, hpath, hfault, hfailure, rfl⟩
  · rcases hrest.option hlawful with
      ⟨files₂, hlisting, hnothing⟩ | ⟨path, fault, hpath, hfault, hfailure, rfl⟩
    · cases hnothing
      exact .all houtput hlisting
    · rw [if_neg hfailure]
      exact .listingFailed houtput hpath hfault
  · rw [if_neg hfailure]
    exact .outputFailed hpath hfault

/-- **What the command leaves.**  If anything is in the way, the command ends with the exit status of what
is in the way first, nothing is on the standard output, and the files are as they were.  If nothing is,
the run has what it needs; the command goes on as long as the run does; and when the run comes to its end,
what it has handed over to the standard output is its output, and the files that were asked for are written
in turn, up to the first that cannot be.  No other file is changed. -/
theorem RunOptions.perform_effects (options : RunOptions) (hhelp : options.help = false)
    {storage : Storage σ} {place : String → κ} (hlawful : storage.Lawful place) (files : σ)
    (surroundings : Surroundings) :
    (∀ obstacle, options.Meets (storage.read files) surroundings obstacle →
      ∃ first outcome, options.Stops (storage.read files) surroundings first ∧
        (∀ fuel, options.perform fuel storage files surroundings = some outcome) ∧
        outcome.status = first.status ∧ outcome.output = [] ∧ outcome.files = files) ∧
    ((∀ obstacle, ¬ options.Meets (storage.read files) surroundings obstacle) →
      ∃ text shape ready, options.Supplies (storage.read files) surroundings text shape ready ∧
        ∀ fuel,
          (ready.source.execute fuel ready.tape ready.input = none ∧
            options.perform fuel storage files surroundings = none) ∨
          ∃ execution outcome, ready.source.execute fuel ready.tape ready.input = some (.ok execution) ∧
            options.perform fuel storage files surroundings = some outcome ∧
            outcome.output = execution.output ∧
            options.Leaves storage place files execution outcome.status outcome.files ∧
            ∀ other, (∀ path ∈ options.output, place other ≠ place path) →
              (∀ path ∈ options.listing, place other ≠ place path) →
              ∀ bytes, storage.read outcome.files other = .ok bytes ↔
                storage.read files other = .ok bytes) := by
  rcases options.prepare_cases (storage.read files) surroundings with
    ⟨refusal, hprepare, hstops⟩ | ⟨text, shape, ready, hprepare, hsupplies⟩
  · refine ⟨fun _ _ => ?_, fun hclear => absurd hstops.1 (hclear _)⟩
    exact ⟨refusal.obstacle, _, hstops, perform_of_refusal hhelp hprepare, refusal.status_obstacle.symm,
      rfl, rfl⟩
  · refine ⟨fun obstacle hmeets => absurd hmeets (hsupplies.not_meets obstacle), fun _ => ?_⟩
    refine ⟨text, shape, ready, hsupplies, fun fuel => ?_⟩
    rcases perform_of_ready hhelp hprepare hsupplies.code_eq fuel with
      hgoes | ⟨execution, events, failure?, files', hobserve, hdelivers, hperform⟩
    · exact .inl hgoes
    · have hleaves := options.leaves_of_delivers hlawful hdelivers
      exact .inr ⟨execution, _, Source.execute_of_observe hobserve, hperform, rfl, hleaves,
        fun other hoffOutput hoffListing bytes => hleaves.read_elsewhere hoffOutput hoffListing⟩

/-- The output goes to the file of the program, which has been read before.  Nothing happens to the file if
the input is to come from the standard input, and that is a directory. -/
theorem RunOptions.perform_effects_of_overwritten_program :
    Directory.storage.Lawful Directory.placeOf ∧
    (∃ outcome,
      perform { file := some "p", output := some "./p", settings := ⟨some 8, some 1⟩ } 3
        Directory.storage ⟨[(["p"], .file [43, 46])]⟩
        ⟨"bf", fun _ => none, none, none, false, .error .isDirectory, .ok (), fun _ => true⟩ =
          some outcome ∧
      outcome.status = 0 ∧ outcome.output = [1] ∧
      Directory.storage.read outcome.files "./p" = .ok [1]) ∧
    ∃ first outcome,
      Stops { file := some "p", input := some "-", output := some "./p" }
        (Directory.storage.read ⟨[(["p"], .file [43, 46])]⟩)
        ⟨"bf", fun _ => none, none, none, false, .error .isDirectory, .ok (), fun _ => true⟩ first ∧
      (∀ fuel, perform { file := some "p", input := some "-", output := some "./p" } fuel
        Directory.storage ⟨[(["p"], .file [43, 46])]⟩
        ⟨"bf", fun _ => none, none, none, false, .error .isDirectory, .ok (), fun _ => true⟩ =
          some outcome) ∧
      outcome.status = first.status ∧ outcome.output = [] ∧
      outcome.files = ⟨[(["p"], .file [43, 46])]⟩ := by
  let files : Directory := ⟨[(["p"], .file [43, 46])]⟩
  let surroundings : Surroundings :=
    ⟨"bf", fun _ => none, none, none, false, .error .isDirectory, .ok (), fun _ => true⟩
  refine ⟨Directory.storage_lawful, ?_,
    (perform_effects _ rfl Directory.storage_lawful files surroundings).1 .input
      ⟨.isDirectory, .inl ⟨rfl, rfl⟩⟩⟩
  let options : RunOptions := { file := some "p", output := some "./p", settings := ⟨some 8, some 1⟩ }
  have htext : loadProgram (Directory.storage.read files) options.file options.code = .ok "+." := by
    rfl
  have hshape : (options.load surroundings).shape = .ok ⟨.bits8, 1, by decide⟩ := by rfl
  have htape : Tape.allocate surroundings.grants ⟨.bits8, 1, by decide⟩ = .ok ⟨.bits8, #[0], 0⟩ := by
    rfl
  have hcheck : (Source.ofText "+.").syntaxError? = none := by rfl
  obtain ⟨code, hcode, -⟩ := Source.exists_compile_eq_ok hcheck
  have hsupplied : options.Supplies (Directory.storage.read files) surroundings _ _
      ⟨.ofText "+.", code, ⟨.bits8, #[0], 0⟩, []⟩ := ⟨htext, rfl, hshape, rfl, rfl, htape, hcode⟩
  obtain ⟨text, shape, ready, hsupplies, hrun⟩ :=
    (options.perform_effects rfl Directory.storage_lawful files surroundings).2 hsupplied.not_meets
  have hexecute : ready.source.execute 3 ready.tape ready.input =
      some (.ok ⟨[1], ⟨.bits8, #[1], 0⟩, 2, 0⟩) := by
    cases htext.symm.trans hsupplies.text_eq
    cases hshape.symm.trans hsupplies.shape_eq
    have hinput : ready.input = [] := Except.ok.inj hsupplies.input_eq.symm
    rw [hsupplies.source_eq, hinput, ← Except.ok.inj (htape.symm.trans hsupplies.tape_eq)]
    rfl
  rcases hrun 3 with ⟨hgoes, -⟩ | ⟨execution, outcome, hended, hperform, houtput, hleaves, -⟩
  · cases hexecute.symm.trans hgoes
  · cases hexecute.symm.trans hended
    have hwrite : Directory.storage.write files "./p" [1] = .ok ⟨[(["p"], .file [1])]⟩ := by rfl
    have hleft : outcome.status = 0 ∧ Directory.storage.read outcome.files "./p" = .ok [1] := by
      generalize outcome.status = status, outcome.files = files' at hleaves ⊢
      cases hleaves with
      | outputFailed hpath hfault =>
        cases hpath
        cases hwrite.symm.trans hfault
      | listingFailed hwritten hpath hfault => cases hpath
      | all hwritten hlisting =>
        cases hlisting
        cases hwritten with
        | asked hwrite hread hsame helsewhere => exact ⟨rfl, hread⟩
    exact ⟨outcome, hperform, hleft.1, houtput, hleft.2⟩

end TapeMachine.Command
