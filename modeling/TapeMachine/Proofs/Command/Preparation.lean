import TapeMachine.Command.Run
import TapeMachine.Proofs.Machine.Rejection

/-!
# What keeps a program from running

Everything that a run needs is looked at before anything happens.  What can be missing does not depend on
the order in which it is looked for: several things can be in the way at once.  The command is refused for
the one that it looks for first, and it is ready exactly when nothing is in the way.

## Main definitions

* `Command.Obstacle` — what can be in the way, with the exit status that it means.
* `Command.RunOptions.Meets` — an obstacle is in the way, whatever else is.
* `Command.RunOptions.Stops` — an obstacle is the first of those in the way.
* `Command.RunOptions.Supplies` — what a run is made of, if it comes to that.

## Main results

* `Command.RunOptions.Supplies.not_meets` — a run that has what it needs has nothing in the way.
* `Command.RunOptions.prepare_cases` — a run is refused for the first obstacle in the way, or it has what
  it needs.
-/

namespace TapeMachine.Command

theorem Except.mapError_eq_error_iff {ε ε' α : Type} {x : Except ε α} {f : ε → ε'} {error : ε'} :
    x.mapError f = .error error ↔ ∃ e, x = .error e ∧ f e = error := by
  cases x with
  | error e =>
    constructor
    · intro h
      exact ⟨e, rfl, Except.error.inj h⟩
    · rintro ⟨_, h, rfl⟩
      cases h
      rfl
  | ok a =>
    constructor
    · intro h
      cases h
    · rintro ⟨_, h, -⟩
      cases h

/-- What can be in the way of a run. -/
inductive Obstacle
  /-- Neither a file nor a text is given. -/
  | missing
  /-- Both are given. -/
  | conflicting
  /-- The file of the program cannot be read, or is no text. -/
  | unreadable
  /-- The settings make no tape. -/
  | settings
  /-- The input cannot be read. -/
  | input
  /-- The handler of interrupts cannot be set. -/
  | handler
  /-- There is no memory for the tape. -/
  | allocation
  /-- The program is refused. -/
  | program
  deriving DecidableEq, Repr

namespace Obstacle

/-- The exit status that an obstacle means. -/
def status : Obstacle → Nat
  | missing | conflicting | settings => 2
  | unreadable | input | handler | allocation | program => 1

/-- How many kinds of obstacles are looked for before.  The first three exclude each other. -/
def rank : Obstacle → Nat
  | missing | conflicting | unreadable => 0
  | settings => 1
  | input => 2
  | handler => 3
  | allocation => 4
  | program => 5

theorem eq_of_rank_eq {obstacle other : Obstacle} (hpos : 0 < obstacle.rank)
    (h : obstacle.rank = other.rank) : obstacle = other := by
  cases obstacle <;> cases other <;> simp [rank] at hpos h ⊢

end Obstacle

/-- The obstacle that a refusal is for. -/
def Refusal.obstacle : Refusal → Obstacle
  | origin .missing => .missing
  | origin .conflicting => .conflicting
  | origin (.unreadable _ _) => .unreadable
  | settings _ => .settings
  | input _ => .input
  | handler _ => .handler
  | allocation _ => .allocation
  | program _ _ => .program

theorem Refusal.status_obstacle (refusal : Refusal) : refusal.obstacle.status = refusal.status := by
  cases refusal with
  | origin error => cases error <;> rfl
  | _ => rfl

namespace RunOptions

/-- The obstacle is in the way, whatever else is. -/
def Meets (options : RunOptions) (read : String → Except Fault (List UInt8))
    (surroundings : Surroundings) : Obstacle → Prop
  | .missing => options.file = none ∧ options.code = none
  | .conflicting => options.file ≠ none ∧ options.code ≠ none
  | .unreadable => options.code = none ∧
    ∃ path fault, options.file = some path ∧ (read path >>= decodeText) = .error fault
  | .settings => ∃ error, (options.load surroundings).shape = .error error
  | .input => ∃ fault,
    options.input = some "-" ∧ surroundings.standardInput = .error fault ∨
      ∃ path, options.input = some path ∧ path ≠ "-" ∧ read path = .error fault
  | .handler => ∃ words, surroundings.handler = .error words
  | .allocation => ∃ shape error,
    (options.load surroundings).shape = .ok shape ∧ Tape.allocate surroundings.grants shape = .error error
  | .program => ∃ text error, loadProgram read options.file options.code = .ok text ∧
    (Source.ofText text).syntaxError? = some error

/-- The obstacle is in the way, and none is that is looked for before. -/
def Stops (options : RunOptions) (read : String → Except Fault (List UInt8))
    (surroundings : Surroundings) (obstacle : Obstacle) : Prop :=
  options.Meets read surroundings obstacle ∧
    ∀ other, options.Meets read surroundings other → obstacle.rank ≤ other.rank

/-- What a run is made of, if it comes to that. -/
structure Supplies (options : RunOptions) (read : String → Except Fault (List UInt8))
    (surroundings : Surroundings) (text : String) (shape : Shape) (ready : Ready) : Prop where
  /-- The text is the one that is asked for. -/
  text_eq : loadProgram read options.file options.code = .ok text
  /-- The program is the one that the text spells. -/
  source_eq : ready.source = .ofText text
  /-- The shape is the one of the settings. -/
  shape_eq : (options.load surroundings).shape = .ok shape
  /-- The input is the one that is asked for. -/
  input_eq : loadInput read surroundings.standardInput options.input = .ok ready.input
  /-- The handler of interrupts is set. -/
  handler_eq : surroundings.handler = .ok ()
  /-- The tape is blank and has the shape. -/
  tape_eq : Tape.allocate surroundings.grants shape = .ok ready.tape
  /-- The program is made ready. -/
  code_eq : ready.source.compile = .ok ready.code

variable {options : RunOptions} {read : String → Except Fault (List UInt8)}
  {surroundings : Surroundings} {obstacle : Obstacle} {text : String}

/-! ### One thing after the other -/

/-- There is no text exactly if one of the first three obstacles is in the way. -/
theorem exists_loadProgram_eq_error_iff : obstacle.rank = 0 ∧ options.Meets read surroundings obstacle ↔
    ∃ error, loadProgram read options.file options.code = .error error ∧
      (Refusal.origin error).obstacle = obstacle := by
  constructor
  · rintro ⟨hrank, hmeets⟩
    cases obstacle with
    | missing =>
      obtain ⟨hfile, hcode⟩ := hmeets
      exact ⟨.missing, by rw [hfile, hcode, loadProgram], rfl⟩
    | conflicting =>
      obtain ⟨hfile, hcode⟩ := hmeets
      obtain ⟨path, hpath⟩ := Option.ne_none_iff_exists'.mp hfile
      obtain ⟨text, htext⟩ := Option.ne_none_iff_exists'.mp hcode
      exact ⟨.conflicting, by rw [hpath, htext, loadProgram], rfl⟩
    | unreadable =>
      obtain ⟨hcode, path, fault, hfile, hread⟩ := hmeets
      exact ⟨.unreadable path fault, by rw [hfile, hcode, loadProgram, hread]; rfl, rfl⟩
    | settings | input | handler | allocation | program => cases hrank
  · rintro ⟨error, herror, rfl⟩
    cases hfile : options.file with
    | none =>
      cases hcode : options.code with
      | none =>
        rw [hfile, hcode] at herror
        cases herror
        exact ⟨rfl, hfile, hcode⟩
      | some text =>
        rw [hfile, hcode] at herror
        cases herror
    | some path =>
      cases hcode : options.code with
      | none =>
        rw [hfile, hcode] at herror
        obtain ⟨fault, hfault, rfl⟩ := Except.mapError_eq_error_iff.mp herror
        exact ⟨rfl, hcode, path, fault, hfile, hfault⟩
      | some text =>
        rw [hfile, hcode] at herror
        cases herror
        exact ⟨rfl, by simp [hfile], by simp [hcode]⟩

/-- With a text, what is in the way is looked for later. -/
theorem rank_pos_of_loadProgram (htext : loadProgram read options.file options.code = .ok text)
    (h : options.Meets read surroundings obstacle) : 0 < obstacle.rank := by
  refine Nat.pos_of_ne_zero fun hrank => ?_
  obtain ⟨error, herror, -⟩ := exists_loadProgram_eq_error_iff.mp ⟨hrank, h⟩
  cases htext.symm.trans herror

theorem not_meets_allocation {shape : Shape} {tape : Tape}
    (hshape : (options.load surroundings).shape = .ok shape)
    (htape : Tape.allocate surroundings.grants shape = .ok tape) :
    ¬ options.Meets read surroundings .allocation := by
  rintro ⟨shape', error, hshape', herror⟩
  cases hshape.symm.trans hshape'
  cases htape.symm.trans herror

theorem meets_input_iff : options.Meets read surroundings .input ↔
    ∃ fault, loadInput read surroundings.standardInput options.input = .error fault := by
  constructor
  · rintro ⟨fault, ⟨hinput, hfault⟩ | ⟨path, hinput, hpath, hread⟩⟩
    · exact ⟨fault, by rw [hinput, loadInput, hfault]⟩
    · refine ⟨fault, ?_⟩
      unfold loadInput
      split
      · next hnone => simp [hinput] at hnone
      · next hhyphen => simp [hinput, hpath] at hhyphen
      · next path' hsome =>
        cases hinput.symm.trans hsome
        exact hread
  · rintro ⟨fault, hfault⟩
    unfold loadInput at hfault
    split at hfault
    · cases hfault
    · next hinput => exact ⟨fault, .inl ⟨hinput, hfault⟩⟩
    · next path hpath hinput => exact ⟨fault, .inr ⟨path, hinput, hpath, hfault⟩⟩

/-- A program is refused exactly if it is not made ready. -/
theorem meets_program_iff (htext : loadProgram read options.file options.code = .ok text) :
    options.Meets read surroundings .program ↔ ∃ error, (Source.ofText text).compile = .error error := by
  constructor
  · rintro ⟨text', error, htext', herror⟩
    rw [htext] at htext'
    cases htext'
    exact ⟨_, Source.compile_of_syntaxError herror⟩
  · rintro ⟨error, hcompile⟩
    cases hcheck : (Source.ofText text).syntaxError? with
    | some error => exact ⟨text, error, htext, hcheck⟩
    | none =>
      obtain ⟨code, hcode, -⟩ := Source.exists_compile_eq_ok hcheck
      rw [hcompile] at hcode
      cases hcode

/-- A run that has what it needs has nothing in the way. -/
theorem Supplies.not_meets {shape : Shape} {ready : Ready}
    (h : options.Supplies read surroundings text shape ready) (obstacle : Obstacle) :
    ¬ options.Meets read surroundings obstacle := by
  cases obstacle with
  | missing | conflicting | unreadable =>
    intro hmeets
    exact Nat.lt_irrefl 0 (rank_pos_of_loadProgram h.text_eq hmeets)
  | settings =>
    rintro ⟨error, herror⟩
    cases h.shape_eq.symm.trans herror
  | input =>
    intro hmeets
    obtain ⟨fault, hfault⟩ := meets_input_iff.mp hmeets
    cases h.input_eq.symm.trans hfault
  | handler =>
    rintro ⟨words, hwords⟩
    cases h.handler_eq.symm.trans hwords
  | allocation => exact not_meets_allocation h.shape_eq h.tape_eq
  | program =>
    intro hmeets
    obtain ⟨error, herror⟩ := (meets_program_iff h.text_eq).mp hmeets
    cases herror.symm.trans (h.source_eq ▸ h.code_eq)

/-- With an input, a handler and a tape, there is only the program left to be refused. -/
theorem ready_eq_of_tape (text : String) {shape : Shape} {input : List UInt8} {tape : Tape}
    (hinput : loadInput read surroundings.standardInput options.input = .ok input)
    (hhandler : surroundings.handler = .ok ())
    (htape : Tape.allocate surroundings.grants shape = .ok tape) :
    options.ready read surroundings text shape =
      match (Source.ofText text).compile with
      | .ok code => .ok ⟨.ofText text, code, tape, input⟩
      | .error error => .error (.program (.ofText text) error) := by
  rw [ready, hinput, hhandler, htape]
  dsimp only
  cases (Source.ofText text).compile <;> rfl

theorem prepare_eq_of_tape {shape : Shape} {input : List UInt8} {tape : Tape}
    (htext : loadProgram read options.file options.code = .ok text)
    (hshape : (options.load surroundings).shape = .ok shape)
    (hinput : loadInput read surroundings.standardInput options.input = .ok input)
    (hhandler : surroundings.handler = .ok ())
    (htape : Tape.allocate surroundings.grants shape = .ok tape) :
    options.prepare read surroundings =
      (options.loadEntries surroundings,
        match (Source.ofText text).compile with
        | .ok code => .ok ⟨.ofText text, code, tape, input⟩
        | .error error => .error (.program (.ofText text) error)) := by
  simp only [prepare, htext, hshape, ready_eq_of_tape text hinput hhandler htape]

/-- If an obstacle is not in the way, then what is in the way is looked for after it, provided that it is
not looked for before. -/
theorem rank_lt_of_not_meets (obstacle : Obstacle) (hpos : 0 < obstacle.rank)
    (hbefore : ∀ other, options.Meets read surroundings other → obstacle.rank ≤ other.rank)
    (h : ¬ options.Meets read surroundings obstacle) :
    ∀ other, options.Meets read surroundings other → obstacle.rank < other.rank := by
  intro other hother
  rcases Nat.lt_or_eq_of_le (hbefore other hother) with hlt | heq
  · exact hlt
  · exact absurd (Obstacle.eq_of_rank_eq hpos heq ▸ hother) h

/-- What making ready comes to, if there are a text and a shape. -/
theorem ready_cases {shape : Shape} (htext : loadProgram read options.file options.code = .ok text)
    (hshape : (options.load surroundings).shape = .ok shape)
    (hbefore : ∀ other, options.Meets read surroundings other → Obstacle.input.rank ≤ other.rank) :
    (∃ refusal, options.ready read surroundings text shape = .error refusal ∧
      options.Stops read surroundings refusal.obstacle) ∨
    ∃ ready, options.ready read surroundings text shape = .ok ready ∧
      options.Supplies read surroundings text shape ready := by
  cases hinput : loadInput read surroundings.standardInput options.input with
  | error fault =>
    exact .inl ⟨.input fault, by rw [ready, hinput]; rfl, meets_input_iff.mpr ⟨fault, hinput⟩, hbefore⟩
  | ok input =>
    have hbefore := rank_lt_of_not_meets .input (by decide) hbefore (by simp [meets_input_iff, hinput])
    cases hhandler : surroundings.handler with
    | error words =>
      exact .inl ⟨.handler words, by rw [ready, hinput, hhandler]; rfl, ⟨words, hhandler⟩, hbefore⟩
    | ok =>
      have hbefore := rank_lt_of_not_meets .handler (by decide) hbefore (by simp [Meets, hhandler])
      cases htape : Tape.allocate surroundings.grants shape with
      | error error =>
        exact .inl ⟨.allocation error, by rw [ready, hinput, hhandler, htape]; rfl,
          ⟨shape, error, hshape, htape⟩, hbefore⟩
      | ok tape =>
        have hbefore := rank_lt_of_not_meets .allocation (by decide) hbefore
          (not_meets_allocation hshape htape)
        have hready := ready_eq_of_tape text hinput hhandler htape
        cases hcode : (Source.ofText text).compile with
        | error error =>
          exact .inl ⟨.program (.ofText text) error, by rw [hready, hcode],
            (meets_program_iff htext).mpr ⟨error, hcode⟩, hbefore⟩
        | ok code =>
          exact .inr ⟨⟨.ofText text, code, tape, input⟩, by rw [hready, hcode],
            ⟨htext, rfl, hshape, hinput, hhandler, htape, hcode⟩⟩

/-- **What the preparation comes to.**  It is refused for the first obstacle in the way, or the run has
what it needs. -/
theorem prepare_cases (options : RunOptions) (read : String → Except Fault (List UInt8))
    (surroundings : Surroundings) :
    (∃ refusal, (options.prepare read surroundings).2 = .error refusal ∧
      options.Stops read surroundings refusal.obstacle) ∨
    ∃ text shape ready, (options.prepare read surroundings).2 = .ok ready ∧
      options.Supplies read surroundings text shape ready := by
  rw [prepare]
  cases htext : loadProgram read options.file options.code with
  | error error =>
    obtain ⟨hrank, hmeets⟩ := exists_loadProgram_eq_error_iff.mpr ⟨error, htext, rfl⟩
    refine .inl ⟨.origin error, rfl, hmeets, fun other _ => ?_⟩
    rw [hrank]
    exact Nat.zero_le _
  | ok text =>
    have hbefore : ∀ other, options.Meets read surroundings other → Obstacle.settings.rank ≤ other.rank :=
      fun other hother => rank_pos_of_loadProgram htext hother
    dsimp only
    cases hshape : (options.load surroundings).shape with
    | error error => exact .inl ⟨.settings error, rfl, ⟨error, hshape⟩, hbefore⟩
    | ok shape =>
      have hbefore := rank_lt_of_not_meets .settings (by decide) hbefore (by simp [Meets, hshape])
      rcases ready_cases htext hshape hbefore with hrefused | ⟨ready, hready, hsupplies⟩
      · exact .inl hrefused
      · exact .inr ⟨text, shape, ready, hready, hsupplies⟩

end RunOptions

/-! ### What is looked at -/

theorem loadProgram_congr {read read' : String → Except Fault (List UInt8)} {file code : Option String}
    (h : ∀ path ∈ file, read path = read' path) :
    loadProgram read file code = loadProgram read' file code := by
  cases file with
  | none => cases code <;> rfl
  | some path =>
    cases code with
    | none => rw [loadProgram, loadProgram, h path rfl]
    | some text => rfl

theorem loadInput_congr {read read' : String → Except Fault (List UInt8)}
    {standardInput standardInput' : Except Fault (List UInt8)} {input : Option String}
    (hread : ∀ path ∈ input, path ≠ "-" → read path = read' path)
    (hstandard : input = some "-" → standardInput = standardInput') :
    loadInput read standardInput input = loadInput read' standardInput' input := by
  unfold loadInput
  split
  · rfl
  · exact hstandard rfl
  · next path hpath => exact hread path rfl hpath

/-- Nothing is read but the files that are named, and the standard input if it is named. -/
theorem RunOptions.prepare_congr (options : RunOptions) (surroundings : Surroundings)
    {read read' : String → Except Fault (List UInt8)} {standardInput : Except Fault (List UInt8)}
    (hread : ∀ path ∈ options.paths, read path = read' path)
    (hstandard : options.input = some "-" → standardInput = surroundings.standardInput) :
    options.prepare read { surroundings with standardInput } = options.prepare read' surroundings := by
  have htext : loadProgram read options.file options.code =
      loadProgram read' options.file options.code := by
    refine loadProgram_congr fun path hpath => hread path ?_
    simp [paths, Option.mem_def.mp hpath]
  have hinput : loadInput read standardInput options.input =
      loadInput read' surroundings.standardInput options.input := by
    refine loadInput_congr (fun path hpath hhyphen => hread path ?_) hstandard
    simp [paths, Option.mem_def.mp hpath, hhyphen]
  have hready : ∀ text shape, options.ready read { surroundings with standardInput } text shape =
      options.ready read' surroundings text shape := by
    intro text shape
    rw [ready, ready, hinput]
  rw [prepare, prepare, htext]
  simp only [hready]
  rfl

end TapeMachine.Command
