import TapeMachine.Proofs.Command.Course
import TapeMachine.Storage.Directory

/-!
# Checking and running agree

Both commands are given a program in the same way.  If there is none, both say so with the same exit
status.  If there is one and nothing else keeps it from running, the check is passed exactly by the
programs whose runs report no error, and what the check reports of the others is what their runs report.

The check only looks at the brackets; a run looks at them too, then pairs them, and goes by the pairs.
The two agree because the pairs are complete for every program that passes the check, so no run fails
later.

## Main definitions

* `Command.RunOptions.toCheck` — the check of what is to be run.
* `Command.Notice.apartFromLog` — what is said apart from the log.

## Main results

* `Command.failureNotice_ne_of_delivery` — a file that cannot be written is not reported like an error in
  a program.
* `Command.RunOptions.check_agrees` — how a check and a run of one program go together.
-/

namespace TapeMachine.Command

/-- The check of what is to be run. -/
def RunOptions.toCheck (options : RunOptions) : CheckOptions :=
  ⟨options.file, options.code, options.help⟩

/-- Notices without the log entries among them. -/
def Notice.apartFromLog (notices : List Notice) : List Notice :=
  notices.filter fun notice => Option.isNone <| Notice.entry? notice

variable {σ : Type} {options : RunOptions} {storage : Storage σ} {files : σ}
  {surroundings : Surroundings} {text : String}

/-! ### What is said -/

theorem Notice.text_notMem_ofEntries (threshold : Log.Threshold) (entries : List Log.Entry)
    (said : String) : .text said ∉ ofEntries threshold entries := by
  simp [ofEntries]

theorem Notice.apartFromLog_ofEntries_append (threshold : Log.Threshold) (entries : List Log.Entry)
    (notices : List Notice) :
    apartFromLog (ofEntries threshold entries ++ notices) = apartFromLog notices := by
  simp [apartFromLog, ofEntries, Notice.entry?]

/-- What the command says of a run that came to its end is the failure of a file, log entries and the
summary apart. -/
theorem exists_failure_of_mem {said : String} {entries : List Log.Entry} {execution : Execution}
    {files' : σ} {deliveries : List Delivery} {failure? : Option String}
    (hdelivers : Delivers storage files deliveries failure? files')
    (h : .text said ∈ Notice.ofEntries surroundings.threshold entries ++
      ((if options.quiet then [] else [.summary execution.instructions]) ++
        failure?.toList.map fun failure => .text (surroundings.say failure))) :
    ∃ (delivery : Delivery) (fault : Fault), said = surroundings.say (delivery.failure fault) := by
  rcases List.mem_append.mp h with hentry | h
  · exact absurd hentry (Notice.text_notMem_ofEntries _ _ _)
  · rcases List.mem_append.mp h with hsummary | hfailure
    · split at hsummary <;> simp at hsummary
    · obtain ⟨failure, hmem, hsaid⟩ := List.mem_map.mp hfailure
      rw [Option.mem_toList.mp hmem] at hdelivers
      obtain ⟨delivery, fault, rfl⟩ := hdelivers.exists_eq_failure
      exact ⟨delivery, fault, (Notice.text.inj hsaid).symm⟩

/-- A report starts with the name of who reports and the error, behind the codes of its paint if it is
painted. -/
theorem exists_toList_eq_of_report? {colour : Bool} {name said : String} {error : RunError}
    {source : Source} (h : error.report? colour (some name) source = some said) :
    ∃ rest, said.toList = (if colour then "\x1b[".toList ++ Paint.alarm.codes.toList ++ ['m'] else []) ++
      (name.toList ++ ": ".toList ++ error.message.toList ++ rest) := by
  obtain ⟨rest, hsaid⟩ : ∃ rest, said.toList =
      Paint.alarm.apply colour (Report.headline (some name) error).toList ++ rest := by
    unfold RunError.report? at h
    cases error with
    | rejected error =>
      obtain ⟨said', hrender, rfl⟩ := Option.map_eq_some_iff.mp h
      rw [Excerpt.render?, Option.map_eq_some_iff] at hrender
      obtain ⟨shown, -, rfl⟩ := hrender
      simp
    | internal error =>
      cases h
      simp
  cases colour with
  | false => exact ⟨rest, by simpa [Report.headline] using hsaid⟩
  | true => exact ⟨"\x1b[0m".toList ++ rest, by simpa [Paint.apply, Report.headline] using hsaid⟩

/-- A text that `c` comes behind is not the same text behind a front that `c` is not in. -/
theorem append_cons_ne_append {c : Char} {front : List Char} (hfront : c ∉ front) (hne : front ≠ [])
    (rest rest' text : List Char) : text ++ c :: rest ≠ front ++ (text ++ rest') := by
  -- the text starts with the front, or ends within it: take the front off as long as it does
  induction hlength : text.length using Nat.strongRecOn generalizing text with
  | _ length ih =>
    intro h
    rcases List.append_eq_append_iff.mp h with ⟨shared, rfl, hrest⟩ | ⟨shared, rfl, hrest⟩
    · cases shared with
      | cons c' shared =>
        obtain ⟨rfl, -⟩ := List.cons.inj hrest
        exact hfront (List.mem_append_right _ List.mem_cons_self)
      | nil =>
        rw [List.append_nil] at hfront hne
        obtain ⟨c', text, rfl⟩ := List.exists_cons_of_ne_nil hne
        obtain ⟨rfl, -⟩ := List.cons.inj hrest
        exact hfront List.mem_cons_self
    · refine ih shared.length ?_ shared rfl (by simpa using hrest.symm)
      have hpos := List.length_pos_iff.mpr hne
      rw [← hlength, List.length_append]
      omega

theorem exists_toList_append_eq {first : String} {c : Char} {cs : List Char} (h : first.toList = c :: cs)
    (second : String) : ∃ rest, (first ++ second).toList = c :: rest :=
  ⟨cs ++ second.toList, by rw [String.toList_append, h, List.cons_append]⟩

/-- The words for an error in a program start with a capital letter. -/
theorem exists_toList_message (error : RunError) :
    ∃ c rest, error.message.toList = c :: rest ∧ c ≠ 'c' := by
  cases error with
  | rejected error =>
    have hcapital : "Syntax error: ".toList = 'S' :: "yntax error: ".toList := by decide
    obtain ⟨rest, hrest⟩ := exists_toList_append_eq hcapital error.message
    exact ⟨'S', rest, hrest, by decide⟩
  | internal error =>
    have hcapital : "Internal error: ".toList = 'I' :: "nternal error: ".toList := by decide
    obtain ⟨rest, hrest⟩ := exists_toList_append_eq hcapital error.message
    exact ⟨'I', rest, hrest, by decide⟩

/-- The words for a file that cannot be written do not. -/
theorem exists_toList_failure (delivery : Delivery) (fault : Fault) :
    ∃ rest, (delivery.failure fault).toList = 'c' :: rest := by
  have hcould : "could not write the ".toList = 'c' :: "ould not write the ".toList := by decide
  unfold Delivery.failure
  simp only [String.append_assoc]
  exact exists_toList_append_eq hcould _

/-- A file that cannot be written is not reported like an error in a program. -/
theorem failureNotice_ne_of_delivery (surroundings : Surroundings) (source : Source) (error : RunError)
    (delivery : Delivery) (fault : Fault) :
    failureNotice surroundings source error ≠ .text (surroundings.say (delivery.failure fault)) := by
  intro h
  rw [failureNotice, Notice.text.injEq] at h
  have hsay : (surroundings.say (delivery.failure fault)).toList =
      surroundings.name.toList ++ ": ".toList ++ (delivery.failure fault).toList ++ ['\n'] := by
    simp [Surroundings.say]
  cases hreport : error.report? surroundings.colour (some surroundings.name) source with
  | none =>
    rw [hreport, Option.getD_none] at h
    rw [← h] at hsay
    simp at hsay
  | some said =>
    obtain ⟨rest, hsaid⟩ := exists_toList_eq_of_report? hreport
    rw [hreport, Option.getD_some] at h
    rw [h, hsay] at hsaid
    cases hcolour : surroundings.colour with
    | true =>
      -- a painted report has codes in front of the name, and no colon is among them
      rw [hcolour, if_pos rfl] at hsaid
      have hcolon : ':' ∉ "\x1b[".toList ++ Paint.alarm.codes.toList ++ ['m'] := by decide
      exact append_cons_ne_append hcolon (by decide) _ _ surroundings.name.toList
        (by simpa using hsaid)
    | false =>
      -- behind the name, the one goes on with a capital letter and the other does not
      rw [hcolour, if_neg Bool.false_ne_true, List.nil_append] at hsaid
      simp only [List.append_assoc, List.append_cancel_left_eq] at hsaid
      obtain ⟨rest', hsmall⟩ := exists_toList_failure delivery fault
      obtain ⟨c, rest'', hcapital, hc⟩ := exists_toList_message error
      rw [hsmall, hcapital] at hsaid
      exact hc (List.cons.inj hsaid).1.symm

/-! ### What the commands do -/

namespace RunOptions

theorem toCheck_of_origin (hhelp : options.help = false) {error : OriginError}
    (htext : loadProgram (storage.read files) options.file options.code = .error error) :
    options.toCheck.perform storage files surroundings =
      .quiet error.status (error.notices surroundings (Usage.check surroundings.name)) files := by
  rw [CheckOptions.perform_eq hhelp, toCheck, htext]

theorem toCheck_of_accepted (hhelp : options.help = false)
    (htext : loadProgram (storage.read files) options.file options.code = .ok text)
    (hcheck : (Source.ofText text).syntaxError? = none) :
    options.toCheck.perform storage files surroundings =
      ⟨0, ((Source.ofText text).verdict ++ "\n").toUTF8.toList, [], files⟩ := by
  rw [CheckOptions.perform_eq hhelp, toCheck, htext]
  simp only [hcheck]

theorem toCheck_of_rejected (hhelp : options.help = false)
    (htext : loadProgram (storage.read files) options.file options.code = .ok text) {error : SyntaxError}
    (hcheck : (Source.ofText text).syntaxError? = some error) :
    options.toCheck.perform storage files surroundings =
      .quiet 1 [failureNotice surroundings (.ofText text) (.rejected error)] files := by
  rw [CheckOptions.perform_eq hhelp, toCheck, htext]
  simp only [hcheck]

theorem perform_of_origin (hhelp : options.help = false) {error : OriginError}
    (htext : loadProgram (storage.read files) options.file options.code = .error error) (fuel : Nat) :
    options.perform fuel storage files surroundings = some (.quiet error.status
      (error.notices surroundings (Usage.run surroundings.name)) files) := by
  have hprepare : options.prepare (storage.read files) surroundings = ([], .error (.origin error)) := by
    rw [prepare, htext]
  rw [perform_of_refusal hhelp (congrArg Prod.snd hprepare), hprepare]
  rfl

section

variable {shape : Shape} {input : List UInt8} {tape : Tape} (hhelp : options.help = false)
  (htext : loadProgram (storage.read files) options.file options.code = .ok text)
  (hshape : (options.load surroundings).shape = .ok shape)
  (hinput : loadInput (storage.read files) surroundings.standardInput options.input = .ok input)
  (hhandler : surroundings.handler = .ok ())
  (htape : Tape.allocate surroundings.grants shape = .ok tape)

include hhelp htext hshape hinput hhandler htape

theorem perform_of_rejected {error : SyntaxError}
    (hcheck : (Source.ofText text).syntaxError? = some error) (fuel : Nat) :
    options.perform fuel storage files surroundings = some (.quiet 1
      (Notice.ofEntries surroundings.threshold (options.loadEntries surroundings) ++
        [failureNotice surroundings (.ofText text) (.rejected error)]) files) := by
  have hprepare := prepare_eq_of_tape htext hshape hinput hhandler htape
  rw [Source.compile_of_syntaxError hcheck] at hprepare
  rw [perform_of_refusal hhelp (congrArg Prod.snd hprepare), hprepare]
  rfl

/-- A run of a program that passes the check reports no error. -/
theorem perform_of_accepted (hcheck : (Source.ofText text).syntaxError? = none) (fuel : Nat)
    (error : RunError) :
    (Source.ofText text).execute fuel tape input ≠ some (.error error) ∧
      ∀ outcome, options.perform fuel storage files surroundings = some outcome →
        failureNotice surroundings (.ofText text) error ∉ outcome.notices := by
  obtain ⟨code, hcode, -⟩ := Source.exists_compile_eq_ok hcheck
  have hprepare := prepare_eq_of_tape htext hshape hinput hhandler htape
  rw [hcode] at hprepare
  rcases perform_of_ready hhelp (congrArg Prod.snd hprepare) hcode fuel with
    ⟨hgoes, hperform⟩ | ⟨execution, events, failure?, files', hobserve, hdelivers, hperform⟩
  · refine ⟨fun herror => ?_, fun outcome houtcome => ?_⟩
    · cases hgoes.symm.trans herror
    · cases hperform.symm.trans houtcome
  · refine ⟨fun herror => ?_, fun outcome houtcome hreport => ?_⟩
    · cases (Source.execute_of_observe hobserve).symm.trans herror
    · cases hperform.symm.trans houtcome
      obtain ⟨delivery, fault, hsaid⟩ := exists_failure_of_mem hdelivers hreport
      exact failureNotice_ne_of_delivery surroundings (.ofText text) error delivery fault
        (congrArg Notice.text hsaid)

end

/-- **A check and a run of one program go together.**  If there is no program, both end with the status
of that.  If nothing but the program can keep a run from starting, then a check is passed exactly if the
run ends in no error, whatever bound it has, and exactly if the command that runs it reports none.  A
check that ends with status one writes nothing to the standard output, and neither does the run, which
ends with the same status and says the same, log entries apart. -/
theorem check_agrees (options : RunOptions) (hhelp : options.help = false)
    (storage : Storage σ) (files : σ) (surroundings : Surroundings) :
    (∀ obstacle, obstacle.rank = 0 → options.Meets (storage.read files) surroundings obstacle →
      (options.toCheck.perform storage files surroundings).status = obstacle.status ∧
      ∀ fuel, ∃ outcome, options.perform fuel storage files surroundings = some outcome ∧
        outcome.status = obstacle.status) ∧
    ∀ shape input tape, (options.load surroundings).shape = .ok shape →
      loadInput (storage.read files) surroundings.standardInput options.input = .ok input →
      surroundings.handler = .ok () → Tape.allocate surroundings.grants shape = .ok tape →
      (∀ text, loadProgram (storage.read files) options.file options.code = .ok text →
        ((options.toCheck.perform storage files surroundings).status = 0 ↔
          ∀ fuel error, (Source.ofText text).execute fuel tape input ≠ some (.error error)) ∧
        ((options.toCheck.perform storage files surroundings).status = 0 ↔
          ∀ fuel outcome error, options.perform fuel storage files surroundings = some outcome →
            failureNotice surroundings (.ofText text) error ∉ outcome.notices)) ∧
      ((options.toCheck.perform storage files surroundings).status = 1 →
        (options.toCheck.perform storage files surroundings).output = [] ∧
        ∀ fuel, ∃ outcome, options.perform fuel storage files surroundings = some outcome ∧
          outcome.status = 1 ∧ outcome.output = [] ∧
          Notice.apartFromLog outcome.notices =
            (options.toCheck.perform storage files surroundings).notices) := by
  refine ⟨fun obstacle hrank hmeets => ?_, fun shape input tape hshape hinput hhandler htape => ?_⟩
  · obtain ⟨error, htext, rfl⟩ := exists_loadProgram_eq_error_iff.mp ⟨hrank, hmeets⟩
    have hstatus := (Refusal.origin error).status_obstacle.symm
    rw [toCheck_of_origin hhelp htext]
    exact ⟨hstatus, fun fuel => ⟨_, perform_of_origin hhelp htext fuel, hstatus⟩⟩
  · cases htext : loadProgram (storage.read files) options.file options.code with
    | error error =>
      rw [toCheck_of_origin hhelp htext]
      refine ⟨fun _ h => (nomatch h), fun hone => ⟨rfl, fun fuel => ?_⟩⟩
      have hstatus : error.status = 1 := hone
      refine ⟨_, perform_of_origin hhelp htext fuel, hstatus, rfl, ?_⟩
      cases error with
      | missing => cases hstatus
      | conflicting => cases hstatus
      | unreadable path fault => rfl
    | ok text =>
      cases hcheck : (Source.ofText text).syntaxError? with
      | none =>
        rw [toCheck_of_accepted hhelp htext hcheck]
        have hrun := perform_of_accepted hhelp htext hshape hinput hhandler htape hcheck
        refine ⟨fun text' h => ?_, fun hone => nomatch hone⟩
        cases h
        exact ⟨iff_of_true rfl fun fuel error => (hrun fuel error).1,
          iff_of_true rfl fun fuel outcome error => (hrun fuel error).2 outcome⟩
      | some error =>
        rw [toCheck_of_rejected hhelp htext hcheck]
        have hrun := perform_of_rejected hhelp htext hshape hinput hhandler htape hcheck
        refine ⟨fun text' h => ?_, fun hone => ⟨rfl, fun fuel => ⟨_, hrun fuel, rfl, rfl, ?_⟩⟩⟩
        · cases h
          have hexecute : (Source.ofText text).execute 0 tape input =
              some (.error (.rejected error)) := by
            rw [Source.execute, Source.observe, Source.compile_of_syntaxError hcheck]
            rfl
          refine ⟨iff_of_false Nat.one_ne_zero fun hnone => hnone 0 _ hexecute,
            iff_of_false Nat.one_ne_zero fun hnone => hnone 0 _ (.rejected error) (hrun 0) ?_⟩
          exact List.mem_append_right _ List.mem_cons_self
        · rw [Outcome.quiet, Notice.apartFromLog_ofEntries_append]
          rfl

/-- A closing bracket that opens nothing, on a tape of one cell, reported on a terminal. -/
theorem check_agrees_of_stray_bracket :
    ((toCheck { code := some "+]", settings := ⟨none, some 1⟩ }).perform Directory.storage ⟨[]⟩
      ⟨"bf", fun _ => none, none, none, true, .ok [], .ok (), fun _ => true⟩).status = 1 ∧
    ∀ fuel, ∃ outcome,
      perform { code := some "+]", settings := ⟨none, some 1⟩ } fuel Directory.storage ⟨[]⟩
        ⟨"bf", fun _ => none, none, none, true, .ok [], .ok (), fun _ => true⟩ = some outcome ∧
      outcome.status = 1 ∧ outcome.output = [] ∧
      Notice.apartFromLog outcome.notices =
        ((toCheck { code := some "+]", settings := ⟨none, some 1⟩ }).perform Directory.storage ⟨[]⟩
          ⟨"bf", fun _ => none, none, none, true, .ok [], .ok (), fun _ => true⟩).notices := by
  have hcheck : ((toCheck { code := some "+]", settings := ⟨none, some 1⟩ }).perform
      Directory.storage ⟨[]⟩
      ⟨"bf", fun _ => none, none, none, true, .ok [], .ok (), fun _ => true⟩).status = 1 := by
    rfl
  obtain ⟨-, hrun⟩ := check_agrees { code := some "+]", settings := ⟨none, some 1⟩ } rfl
    Directory.storage ⟨[]⟩ ⟨"bf", fun _ => none, none, none, true, .ok [], .ok (), fun _ => true⟩
  obtain ⟨-, hsame⟩ := hrun ⟨.bits8, 1, by decide⟩ [] ⟨.bits8, #[0], 0⟩ rfl rfl rfl rfl
  exact ⟨hcheck, (hsame hcheck).2⟩

end RunOptions

end TapeMachine.Command
