import TapeMachine.Proofs.Structured.Simulation

/-!
# Comments and lines

Comments and line ends move the instructions of a program to other positions and other places, and
change nothing else.  For the check this is seen on the instructions alone, each with its place: the
check passes over everything else, and on two streams with the same characters it reports the same
number of the stream.  For the run it is seen on the block, in which there are no positions at all.

## Main definitions

* `Source.instructions` — the instructions of a program, each with its place.
* `SyntaxError.moveTo` — the same error at another place.

## Main results

* `Bracket.scan_filter` — the check passes over comments.
* `Bracket.exists_scan_moveTo` — on the same characters the check reports the same number.
* `Source.rejected_or_yields_iff_of_symbols_eq` — comments and lines do not change what a program does.
-/

namespace TapeMachine

/-- The same error at another place. -/
def SyntaxError.moveTo (place : Location) : SyntaxError → SyntaxError
  | unexpectedClosing _ => unexpectedClosing place
  | unclosedOpening _ => unclosedOpening place

namespace Source

/-- The characters that are instructions, each with its place. -/
def instructions (source : Source) : List (Location × Char) :=
  source.located.filter fun p => (Symbol.ofChar? p.2).isSome

end Source

namespace Bracket

/-! ### The check without comments -/

/-- **The check passes over comments.** -/
theorem scan_filter (l : List (Location × Char)) : ∀ (depth : Nat) (outermost : Location),
    scan depth outermost (l.filter fun p => (Symbol.ofChar? p.2).isSome) =
      scan depth outermost l := by
  induction l with
  | nil =>
    intro depth outermost
    rfl
  | cons p l ih =>
    intro depth outermost
    obtain ⟨here, c⟩ := p
    cases hc : Symbol.ofChar? c with
    | none =>
      obtain ⟨hopening, hclosing⟩ := ne_bracket_of_ofChar?_eq_none hc
      rw [List.filter_cons_of_neg (by simp [hc]), ih, scan_comment _ _ _ _ hopening hclosing]
    | some symbol =>
      rw [List.filter_cons_of_pos (by simp [hc])]
      cases c using char_cases with
      | opening => rw [scan_opening, scan_opening, ih]
      | closing =>
        cases depth with
        | zero => rw [scan_closing_zero, scan_closing_zero]
        | succ depth => rw [scan_closing_succ, scan_closing_succ, ih]
      | comment c hopening hclosing =>
        rw [scan_comment _ _ _ _ hopening hclosing, scan_comment _ _ _ _ hopening hclosing, ih]

/-! ### The check of the same characters at other places -/

theorem exists_split_of_map_snd_eq {before after l : List (Location × Char)} {here : Location}
    {c : Char} (h : (before ++ (here, c) :: after).map Prod.snd = l.map Prod.snd) :
    ∃ before' there after', l = before' ++ (there, c) :: after' ∧ before'.length = before.length ∧
      before'.map Prod.snd = before.map Prod.snd ∧ after'.map Prod.snd = after.map Prod.snd := by
  rw [List.map_append, List.map_cons] at h
  obtain ⟨before', l', rfl, hbefore, hl'⟩ := List.map_eq_append_iff.mp h.symm
  obtain ⟨⟨there, _⟩, after', rfl, rfl, hafter⟩ := List.map_eq_cons_iff.mp hl'
  have hlength := congrArg List.length hbefore
  rw [List.length_map, List.length_map] at hlength
  exact ⟨before', there, after', rfl, hlength, hbefore, hafter⟩

/-- **On the same characters the check reports the same number**, and the same error there. -/
theorem exists_scan_moveTo {l l' : List (Location × Char)} {outermost outermost' : Location}
    {error : SyntaxError} (hmap : l.map Prod.snd = l'.map Prod.snd)
    (h : scan 0 outermost l = some error) :
    ∃ (place : Location) (k : Nat) (c : Char), scan 0 outermost' l' = some (error.moveTo place) ∧
      l[k]? = some (error.place, c) ∧ l'[k]? = some (place, c) := by
  cases scan_eq_iff.mp h with
  | @stray before hbefore here after =>
    obtain ⟨before', there, after', rfl, hlength, hbefore', -⟩ := exists_split_of_map_snd_eq hmap
    rw [← hbefore'] at hbefore
    refine ⟨there, before.length, ']', scan_of_answer (.stray hbefore there after') _, ?_, ?_⟩
    · simp [SyntaxError.place]
    · simp [← hlength]
  | @unclosed before after hbefore here hafter =>
    obtain ⟨before', there, after', rfl, hlength, hbefore', hafter'⟩ :=
      exists_split_of_map_snd_eq hmap
    rw [← hbefore'] at hbefore
    rw [← hafter'] at hafter
    refine ⟨there, before.length, '[', scan_of_answer (.unclosed hbefore there hafter) _, ?_, ?_⟩
    · simp [SyntaxError.place]
    · simp [← hlength]

end Bracket

namespace Source

/-- The check looks at the instructions alone. -/
theorem syntaxError?_eq_scan_instructions (source : Source) :
    source.syntaxError? = Bracket.scan 0 ⟨0, 0⟩ source.instructions :=
  (Bracket.scan_filter source.located 0 ⟨0, 0⟩).symm

/-- The places added to the instructions change neither the instructions nor their order. -/
theorem map_snd_instructions (source : Source) :
    source.instructions.map Prod.snd = source.symbols.map Symbol.toChar := by
  rw [instructions, symbols, ← map_snd_located]
  generalize source.located = l
  induction l with
  | nil => rfl
  | cons p l ih =>
    cases hc : Symbol.ofChar? p.2 with
    | none =>
      rw [List.filter_cons_of_neg (by simp [hc]), List.map_cons, List.filterMap_cons_none hc, ih]
    | some symbol =>
      rw [List.filter_cons_of_pos (by simp [hc]), List.map_cons, List.map_cons,
        List.filterMap_cons_some hc, List.map_cons, ih, Symbol.ofChar?_eq_some_iff.mp hc]

/-- **Comments and lines do not change what a program does.**  Two programs with the same instructions
are either both refused, for the same error at the instruction of the same number; or both accepted,
and then they have the same results from every tape and on every input. -/
theorem rejected_or_yields_iff_of_symbols_eq {source source' : Source}
    (h : source.symbols = source'.symbols) :
    (∃ (error : SyntaxError) (place : Location) (k : Nat) (c : Char),
      source.syntaxError? = some error ∧
      source'.syntaxError? = some (error.moveTo place) ∧
      source.instructions[k]? = some (error.place, c) ∧
      source'.instructions[k]? = some (place, c)) ∨
    (source.syntaxError? = none ∧ source'.syntaxError? = none ∧
      ∀ tape input result, source.Yields tape input result ↔ source'.Yields tape input result) := by
  cases herror : source.syntaxError? with
  | some error =>
    have hmap : source.instructions.map Prod.snd = source'.instructions.map Prod.snd := by
      rw [map_snd_instructions, map_snd_instructions, h]
    rw [syntaxError?_eq_scan_instructions] at herror
    obtain ⟨place, k, c, hscan, hk, hk'⟩ := Bracket.exists_scan_moveTo hmap herror
    rw [← syntaxError?_eq_scan_instructions] at hscan
    exact .inl ⟨error, place, k, c, rfl, hscan, hk, hk'⟩
  | none =>
    -- both programs spell one block, and the block alone decides the results
    obtain ⟨block, hblock⟩ := exists_block herror
    have hblock' : block.SpeltBy source'.chars := h.symm.trans hblock
    refine .inr ⟨rfl, syntaxError?_eq_none_iff.mpr hblock'.balanced, fun tape input result => ?_⟩
    rw [hblock.yields_iff, hblock'.yields_iff]

/-- One program on one line and with a comment on each of two, and one that is refused both ways. -/
theorem yields_iff_of_two_lines :
    ((ofLines ["+[-]"]).symbols = (ofLines ["one +", "none [-]"]).symbols ∧
      (ofLines ["+[-"]).symbols = (ofLines ["one +", "none [-"]).symbols) ∧
    (∀ tape input result, (ofLines ["+[-]"]).Yields tape input result ↔
      (ofLines ["one +", "none [-]"]).Yields tape input result) ∧
    ∃ error place, (ofLines ["+[-"]).syntaxError? = some error ∧
      (ofLines ["one +", "none [-"]).syntaxError? = some (error.moveTo place) := by
  have haccepted : (ofLines ["+[-]"]).symbols = (ofLines ["one +", "none [-]"]).symbols := by decide
  have hrefused : (ofLines ["+[-"]).symbols = (ofLines ["one +", "none [-"]).symbols := by decide
  refine ⟨⟨haccepted, hrefused⟩, ?_, ?_⟩
  · rcases rejected_or_yields_iff_of_symbols_eq haccepted with ⟨error, _, _, _, herror, -⟩ | ⟨-, -, h⟩
    · have hnone : (ofLines ["+[-]"]).syntaxError? = none := by decide
      rw [hnone] at herror
      cases herror
    · exact h
  · rcases rejected_or_yields_iff_of_symbols_eq hrefused with ⟨error, place, _, _, h, h', -⟩ | ⟨h, -⟩
    · exact ⟨error, place, h, h'⟩
    · exact absurd h (by decide)

end Source

end TapeMachine
